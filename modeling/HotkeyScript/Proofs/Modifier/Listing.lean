import HotkeyScript.Modifier.Listing
import HotkeyScript.Proofs.Modifier.Symbols
import HotkeyScript.Proofs.Text.Trim

/-!
# `HotkeyScript.Proofs.Modifier.Listing`: reading a list of flags

A modifier set is written as a list of entries, one for each of its
modifiers and one for all other bits. No entry holds the mark between
entries or a blank character, so the list is read entry by entry, and the
entries add up to the set.

* `hexWord?_toDigits`: a word is read from its hexadecimal digits.
* `ofListing?_eq`: how a text that is not blank is read.
* `readEntry?_flag`, `readEntry?_writeHex`: what an entry is read as.
* `foldl_entrySets`: what the entries of a set add up to.
-/

set_option autoImplicit false

namespace HotkeyScript

namespace Listing

/-! ### Numbers -/

/-- Each of the sixteen digits is read as its value. -/
theorem hexDigit?_digitChar :
    ∀ d < 16, Text.hexDigit? (Nat.digitChar d) = some d := by decide

/-- Every character in the digits of a number is one of the sixteen. -/
theorem exists_of_mem_toDigits {n : Nat} {c : Char}
    (h : c ∈ Nat.toDigits 16 n) : ∃ d < 16, c = Nat.digitChar d := by
  -- The digits of a number are those of a sixteenth of it, and one more.
  induction n using Nat.strongRecOn with
  | ind n ih =>
    rw [Nat.toDigits_eq_if (by decide)] at h
    split at h
    · next hn => exact ⟨n, hn, List.mem_singleton.mp h⟩
    · next hn =>
      cases List.mem_append.mp h with
      | inl h => exact ih (n / 16) (by omega) h
      | inr h => exact ⟨n % 16, by omega, List.mem_singleton.mp h⟩

/-- Digits are read on from the value of those before them. -/
theorem hexFrom?_append (value : Nat) (front back : List Char) :
    hexFrom? value (front ++ back)
      = (hexFrom? value front).bind (hexFrom? · back) := by
  induction front generalizing value with
  | nil => rfl
  | cons c front ih =>
    rw [List.cons_append, hexFrom?, hexFrom?]
    cases Text.hexDigit? c with
    | none => rfl
    | some digit => exact ih _

/-- One digit more is worth its value, and makes those before it worth
sixteen times as much. -/
theorem hexFrom?_digitChar (value : Nat) {d : Nat} (hd : d < 16) :
    hexFrom? value [Nat.digitChar d] = some (value * 16 + d) := by
  rw [hexFrom?, hexDigit?_digitChar d hd]
  rfl

/-- A number is read from its digits, however many there are. -/
theorem hexFrom?_toDigits (n : Nat) :
    hexFrom? 0 (Nat.toDigits 16 n) = some n := by
  induction n using Nat.strongRecOn with
  | ind n ih =>
    rw [Nat.toDigits_eq_if (by decide)]
    split
    · next hn => rw [hexFrom?_digitChar 0 hn, Nat.zero_mul, Nat.zero_add]
    · next hn =>
      rw [hexFrom?_append, ih (n / 16) (by omega), Option.bind_some,
        hexFrom?_digitChar _ (by omega), Nat.div_add_mod']

/-- A word is read from its digits. They are written without a sign, and
the number fits into a word again. -/
theorem hexWord?_toDigits (word : BitVec 16) :
    hexWord? (Nat.toDigits 16 word.toNat) = some word := by
  have hread := hexFrom?_toDigits word.toNat
  have hplus : ∀ d < 16, Nat.digitChar d ≠ '+' := by decide
  -- A leading plus would be skipped, so the first digit is looked at.
  cases hdigits : Nat.toDigits 16 word.toNat with
  | nil => exact absurd hdigits Nat.toDigits_ne_nil
  | cons c digits =>
    obtain ⟨d, hd, rfl⟩ := exists_of_mem_toDigits
      (hdigits ▸ List.mem_cons_self : c ∈ Nat.toDigits 16 word.toNat)
    rw [hdigits] at hread
    have hlt : word.toNat < 0x10000 := word.isLt
    simp [hexWord?, hplus d hd, hread, hlt]

/-! ### Entries -/

/-- An entry of a list: something without blanks and without the mark
between entries. -/
structure IsEntry (entry : List Char) : Prop where
  ne_nil : entry ≠ []
  mark : '|' ∉ entry
  solid : ∀ c ∈ entry, Text.isBlank c = false

/-- The name of a flag is an entry. -/
theorem isEntry_flag (m : Modifier) : IsEntry m.flag.toList where
  ne_nil := by cases m <;> decide
  mark := by cases m <;> decide
  solid := by
    have hall : m.flag.toList.all (!Text.isBlank ·) = true := by
      cases m <;> decide
    simpa using hall

/-- A word in hexadecimal digits is an entry: its mark and its digits are
neither blank nor the mark between entries. -/
theorem isEntry_writeHex (word : BitVec 16) : IsEntry (writeHex word) := by
  have hdigit : ∀ d < 16, Nat.digitChar d ≠ '|'
      ∧ Text.isBlank (Nat.digitChar d) = false := by decide
  have hmem : ∀ c ∈ writeHex word, c ≠ '|' ∧ Text.isBlank c = false := by
    intro c hc
    rw [writeHex, List.mem_cons, List.mem_cons] at hc
    obtain rfl | rfl | hc := hc
    · decide
    · decide
    · obtain ⟨d, hd, rfl⟩ := exists_of_mem_toDigits hc
      exact hdigit d hd
  exact
    { ne_nil := List.cons_ne_nil _ _
      mark := fun h => (hmem '|' h).1 rfl
      solid := fun c hc => (hmem c hc).2 }

/-- The name of a flag is read as the flag. -/
theorem readEntry?_flag (m : Modifier) :
    readEntry? m.flag.toList = some (.single m) := by
  cases m <;> rfl

/-- A word in hexadecimal digits is read as the word, whatever its
bits. -/
theorem readEntry?_writeHex (word : BitVec 16) :
    readEntry? (writeHex word) = some ⟨word⟩ := by
  rw [writeHex, readEntry?, hexWord?_toDigits]
  rfl

end Listing

namespace ModifierSet

open Listing

/-- A text that is not blank is read entry by entry. Its own ends need no
trimming, since those of the entries are trimmed. -/
theorem ofListing?_eq {text : String} {c : Char} (hmem : c ∈ text.toList)
    (hc : Text.isBlank c = false) :
    ofListing? text
      = (((text.toList.splitOn '|').map Text.trim).mapM readEntry?).map
        fun sets => sets.foldl (· ∪ ·) ∅ := by
  have hne : Text.trim text.toList ≠ [] := by
    rw [ne_eq, Text.trim_eq_nil_iff]
    intro hblank
    rw [hblank c hmem] at hc
    cases hc
  -- The test for a blank text is passed.
  have hsome : (Text.trim text.toList).isEmpty = false := by simpa using hne
  rw [ofListing?, hsome, ← Text.map_trim_splitOn_trim (by decide),
    List.mapM_map]
  rfl

section
variable (s : ModifierSet)

/-- Whatever is written for a set is an entry. -/
theorem isEntry_of_mem_entries {entry : List Char}
    (h : entry ∈ s.entries) : IsEntry entry := by
  cases List.mem_append.mp h with
  | inl h =>
    obtain ⟨m, -, rfl⟩ := List.mem_map.mp h
    exact isEntry_flag m
  | inr h =>
    split at h
    · cases h
    · exact List.mem_singleton.mp h ▸ isEntry_writeHex s.unnamed

/-- The sets that the entries of a list stand for. -/
def entrySets : List ModifierSet :=
  (Modifier.all.filter s.has).map single
    ++ if s.unnamed = 0#16 then [] else [⟨s.unnamed⟩]

/-- The entries of a set are read as the sets that they stand for. -/
theorem mapM_readEntry?_entries :
    s.entries.mapM readEntry? = some s.entrySets := by
  have hflags (ms : List Modifier) :
      (ms.map (·.flag.toList)).mapM readEntry? = some (ms.map single) := by
    induction ms with
    | nil => rfl
    | cons m ms ih =>
      rw [List.map_cons, List.mapM_cons, readEntry?_flag, ih]
      rfl
  -- The flags are always written, the other bits only if there are any.
  rw [entries, List.mapM_append, hflags, entrySets]
  by_cases hunnamed : s.unnamed = 0#16
  · simp [hunnamed]
  · simp [hunnamed, readEntry?_writeHex]

/-- The flags of a set stand for those of its bits that have one. -/
theorem bits_holdAll_filter_has :
    ((∅ : ModifierSet).holdAll (Modifier.all.filter s.has)).bits
      = s.bits &&& full.bits := by
  have hfull : full = (∅ : ModifierSet).holdAll Modifier.all := rfl
  apply BitVec.eq_of_getLsbD_eq
  intro i _
  -- Bit by bit: a bit of the set has a flag exactly when it is a bit of
  -- some modifier.
  rw [Bool.eq_iff_iff, getLsbD_holdAll_empty, BitVec.getLsbD_and,
    Bool.and_eq_true, hfull, getLsbD_holdAll_empty]
  constructor
  · rintro ⟨m, hm, rfl⟩
    obtain ⟨hall, hhas⟩ := List.mem_filter.mp hm
    exact ⟨has_iff_getLsbD.mp hhas, m, hall, rfl⟩
  · rintro ⟨hbit, m, hall, rfl⟩
    exact ⟨m, List.mem_filter.mpr ⟨hall, has_iff_getLsbD.mpr hbit⟩, rfl⟩

/-- The entries add up to the set: the flags give the bits that have a
name, and the last word all the others. -/
theorem foldl_entrySets : s.entrySets.foldl (· ∪ ·) ∅ = s := by
  have hflags : ((Modifier.all.filter s.has).map single).foldl (· ∪ ·) ∅
      = (∅ : ModifierSet).holdAll (Modifier.all.filter s.has) :=
    List.foldl_map
  -- The bits with a flag and those without are all bits of the set.
  have hsplit : (s.bits &&& full.bits) ||| s.unnamed = s.bits := by
    rw [unnamed, bits_sdiff]
    ext i
    simp only [BitVec.getElem_or, BitVec.getElem_and, BitVec.getElem_not]
    cases s.bits[i] <;> cases full.bits[i] <;> rfl
  apply bits_inj.mp
  rw [entrySets, List.foldl_append, hflags]
  by_cases hunnamed : s.unnamed = 0#16
  · rw [if_pos hunnamed, List.foldl_nil, bits_holdAll_filter_has]
    simpa [hunnamed] using hsplit
  · rw [if_neg hunnamed, List.foldl_cons, List.foldl_nil, bits_union,
      bits_holdAll_filter_has, hsplit]

end

end ModifierSet

end HotkeyScript
