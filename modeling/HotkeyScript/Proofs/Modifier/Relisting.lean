import HotkeyScript.Proofs.Modifier.Listing

/-!
# `HotkeyScript.Proofs.Modifier.Relisting`: other lists of the same set

A set is written as one list of entries, but many lists are read as it. The
entries may stand in any order and more than once, and any blank characters
may stand around them.

* `ListedAs`: the lists with the entries of a set.
* `listedAs_listing`: the list that is written is one of them.
* `foldl_union_congr`: what sets add up to depends only on which they are.
* `ofListing?_of_listedAs`: each of these lists is read as the set, and so
  the list that is written, `ofListing?_listing`.
-/

set_option autoImplicit false

namespace HotkeyScript

namespace Listing

/-- An entry with blank characters around it. -/
def Pads (entry part : List Char) : Prop :=
  ∃ front back, (∀ c ∈ front, Text.isBlank c = true)
    ∧ (∀ c ∈ back, Text.isBlank c = true) ∧ part = front ++ (entry ++ back)

end Listing

namespace ModifierSet

open Listing

/-- A list with the entries of a set, in any order, each at least once and
in any blank characters. -/
def ListedAs (s : ModifierSet) (text : String) : Prop :=
  ∃ entries parts, (∀ entry, entry ∈ entries ↔ entry ∈ s.entries)
    ∧ List.Forall₂ Pads entries parts
    ∧ text.toList = ['|'].intercalate parts

end ModifierSet

namespace Listing

/-! ### Parts of a list -/

/-- Trimming leaves the entry, which has no blank at its ends. -/
theorem Pads.trim_eq {entry part : List Char} (h : Pads entry part)
    (hentry : IsEntry entry) : Text.trim part = entry := by
  obtain ⟨front, back, hfront, hback, rfl⟩ := h
  -- The blanks are taken away one by one, first those behind and then
  -- those in front.
  have hend : Text.trim (entry ++ back) = entry := by
    induction back using List.reverseRecOn with
    | nil => rw [List.append_nil, Text.trim_eq_self hentry.solid]
    | append_singleton back c ih =>
      rw [List.forall_mem_append] at hback
      rw [← List.append_assoc, Text.trim_concat (by simpa using hback.2),
        ih hback.1]
  induction front with
  | nil => exact hend
  | cons c front ih =>
    rw [List.forall_mem_cons] at hfront
    rw [List.cons_append, Text.trim_cons hfront.1, ih hfront.2]

/-- The blanks around an entry are no mark, and the entry has none. -/
theorem Pads.not_mem_mark {entry part : List Char} (h : Pads entry part)
    (hentry : IsEntry entry) : '|' ∉ part := by
  obtain ⟨front, back, hfront, hback, rfl⟩ := h
  have hmark : Text.isBlank '|' ≠ true := by decide
  rw [List.mem_append, List.mem_append]
  rintro (hmem | hmem | hmem)
  · exact hmark (hfront _ hmem)
  · exact hentry.mark hmem
  · exact hmark (hback _ hmem)

/-- What stands around the entries is taken away again. -/
theorem map_trim_splitOn_of_pads {entries parts : List (List Char)}
    (h : List.Forall₂ Pads entries parts)
    (hentries : ∀ entry ∈ entries, IsEntry entry) (hne : parts ≠ []) :
    ((['|'].intercalate parts).splitOn '|').map Text.trim = entries := by
  have hparts : (∀ part ∈ parts, '|' ∉ part)
      ∧ parts.map Text.trim = entries := by
    -- The rest of the parts may be empty, so the induction does without
    -- this.
    clear hne
    induction h with
    | nil => exact ⟨nofun, rfl⟩
    | cons hpads _ ih =>
      rw [List.forall_mem_cons] at hentries
      obtain ⟨hentry, hentries⟩ := hentries
      obtain ⟨hmark, htrim⟩ := ih hentries
      refine ⟨List.forall_mem_cons.mpr ⟨hpads.not_mem_mark hentry, hmark⟩, ?_⟩
      rw [List.map_cons, hpads.trim_eq hentry, htrim]
  rw [List.splitOn_intercalate '|' hparts.1 hne, hparts.2]

/-- A padded entry is still padded with one more blank character in
front. -/
theorem Pads.cons {entry part : List Char} (h : Pads entry part) {c : Char}
    (hc : Text.isBlank c = true) : Pads entry (c :: part) := by
  obtain ⟨front, back, hfront, hback, rfl⟩ := h
  exact ⟨c :: front, back, List.forall_mem_cons.mpr ⟨hc, hfront⟩, hback, rfl⟩

/-- The list that is written has one blank on each side of a mark. -/
theorem exists_pads (entry : List Char) (entries : List (List Char)) :
    ∃ part parts, List.Forall₂ Pads (entry :: entries) (part :: parts)
      ∧ [' ', '|', ' '].intercalate (entry :: entries)
        = ['|'].intercalate (part :: parts) := by
  -- Each mark gives one of its blanks to the entry before it and the
  -- other one to the entry behind, so an entry in the middle has both.
  induction entries generalizing entry with
  | nil =>
    refine ⟨entry, [], .cons ⟨[], [], nofun, nofun, by simp⟩ .nil, ?_⟩
    rw [List.intercalate_singleton, List.intercalate_singleton]
  | cons next entries ih =>
    obtain ⟨part, parts, hpads, htext⟩ := ih next
    obtain ⟨hpart, hparts⟩ := List.forall₂_cons.mp hpads
    have hfirst : Pads entry (entry ++ [' ']) :=
      ⟨[], [' '], nofun, List.forall_mem_singleton.mpr rfl, rfl⟩
    have hblank : ['|'].intercalate ((' ' :: part) :: parts)
        = ' ' :: ['|'].intercalate (part :: parts) := by
      cases parts <;> simp
    refine ⟨entry ++ [' '], (' ' :: part) :: parts,
      .cons hfirst (.cons (hpart.cons (by decide)) hparts), ?_⟩
    rw [List.intercalate_cons_cons, List.intercalate_cons_cons, hblank, htext]
    simp

end Listing

namespace ModifierSet

open Listing

/-- The list that is written for a set has its entries, in one of the
orders. -/
theorem listedAs_listing (s : ModifierSet) : s.ListedAs s.listing := by
  cases hentries : s.entries with
  | nil =>
    refine ⟨[], [], by simp [hentries], .nil, ?_⟩
    rw [listing, String.toList_ofList, hentries]
    rfl
  | cons entry entries =>
    obtain ⟨part, parts, hpads, htext⟩ := exists_pads entry entries
    refine ⟨entry :: entries, part :: parts, by simp [hentries], hpads, ?_⟩
    rw [listing, String.toList_ofList, hentries, htext]

/-! ### Sets of entries -/

/-- A bit of what some sets add up to is a bit of one of them. -/
theorem getLsbD_foldl_union (start : ModifierSet) (sets : List ModifierSet)
    (i : Nat) :
    (sets.foldl (· ∪ ·) start).bits.getLsbD i = true
      ↔ start.bits.getLsbD i = true
        ∨ ∃ set ∈ sets, set.bits.getLsbD i = true := by
  induction sets generalizing start with
  | nil => simp
  | cons set sets ih =>
    rw [List.foldl_cons, ih, bits_union, BitVec.getLsbD_or]
    simp only [Bool.or_eq_true, List.mem_cons, exists_eq_or_imp, or_assoc]

/-- What sets add up to depends only on which they are. It is the same in
any order and with any of them repeated. -/
theorem foldl_union_congr {sets sets' : List ModifierSet}
    (h : ∀ set, set ∈ sets ↔ set ∈ sets') :
    sets.foldl (· ∪ ·) ∅ = sets'.foldl (· ∪ ·) (∅ : ModifierSet) := by
  apply eq_of_getLsbD_iff
  intro i
  simp only [getLsbD_foldl_union, h]

/-! ### Reading -/

section
variable (s : ModifierSet)

/-- What an entry stands for. -/
def entrySet (entry : List Char) : ModifierSet :=
  readEntry? entry |>.getD ∅

/-- Every entry of a set is read as something. -/
theorem readEntry?_of_mem_entries {entry : List Char}
    (h : entry ∈ s.entries) :
    readEntry? entry = some (entrySet entry) := by
  have hread : ∃ set, readEntry? entry = some set := by
    cases List.mem_append.mp h with
    | inl h =>
      obtain ⟨m, -, rfl⟩ := List.mem_map.mp h
      exact ⟨_, readEntry?_flag m⟩
    | inr h =>
      split at h
      · cases h
      · exact List.mem_singleton.mp h ▸ ⟨_, readEntry?_writeHex s.unnamed⟩
  obtain ⟨set, hset⟩ := hread
  rw [entrySet, hset, Option.getD_some]

/-- Any entries of a set are read, in any order and however often. -/
theorem mapM_readEntry?_of_subset {entries : List (List Char)}
    (h : entries ⊆ s.entries) :
    entries.mapM readEntry? = some (entries.map entrySet) := by
  induction entries with
  | nil => rfl
  | cons entry entries ih =>
    rw [List.cons_subset] at h
    rw [List.mapM_cons, readEntry?_of_mem_entries s h.1, ih h.2]
    rfl

/-- What the entries of a set are read as adds up to the set. -/
theorem foldl_map_entrySet_entries :
    (s.entries.map entrySet).foldl (· ∪ ·) ∅ = s := by
  have hsets := s.mapM_readEntry?_of_subset (List.Subset.refl _)
  rw [mapM_readEntry?_entries, Option.some.injEq] at hsets
  rw [← hsets, foldl_entrySets]

variable {s}

/-- A list of the entries of a set is read as the set. -/
theorem ofListing?_of_listedAs {text : String} (h : s.ListedAs text) :
    ofListing? text = some s := by
  obtain ⟨entries, parts, hentries, hpads, htext⟩ := h
  have hsets : (entries.map entrySet).foldl (· ∪ ·) ∅ = s := by
    rw [← s.foldl_map_entrySet_entries]
    refine foldl_union_congr fun set => ?_
    simp only [List.mem_map, hentries]
  -- The set without entries is read from the empty text, which is blank.
  cases hpads with
  | nil =>
    rw [← hsets, ofListing?, htext]
    rfl
  | @cons entry part entries parts hpart hparts =>
    have hall : ∀ e ∈ entry :: entries, IsEntry e :=
      fun e he => s.isEntry_of_mem_entries ((hentries e).mp he)
    have hfirst := hall entry List.mem_cons_self
    -- The first entry is somewhere in the text, so that is not blank.
    obtain ⟨c, cs, hcons⟩ := List.exists_cons_of_ne_nil hfirst.ne_nil
    have hmem : c ∈ text.toList := by
      obtain ⟨front, back, -, -, rfl⟩ := hpart
      rw [htext, hcons]
      cases parts <;> simp
    have hc : Text.isBlank c = false := hfirst.solid c (by simp [hcons])
    rw [ofListing?_eq hmem hc, htext,
      map_trim_splitOn_of_pads (.cons hpart hparts) hall
        (List.cons_ne_nil _ _),
      s.mapM_readEntry?_of_subset fun e he => (hentries e).mp he,
      Option.map_some, hsets]

/-- A set is read from the list that writes it, whatever its bits. -/
theorem ofListing?_listing (s : ModifierSet) :
    ofListing? s.listing = some s :=
  ofListing?_of_listedAs s.listedAs_listing

end

end ModifierSet

end HotkeyScript
