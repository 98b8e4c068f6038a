import HotkeyScript.Proofs.Half.Spelled
import Mathlib.Data.List.Perm.Basic

/-!
# `HotkeyScript.Proofs.Half.Concatenation`: halves put behind one another

What a half is read as does not depend on what it is read behind, but for
two things: a key where there is a key already, and a side at the end of
what stands before. So the reading of `a ++ b` can be told from the
readings of `a` and of `b`.

* `scan_append_of_ok`: two halves that are read, with one key at most.
* `scan_append_of_firstKey`: the first key of `b` is refused behind a
  key of `a`, if `b` is read as far as that.
* `StuckAt.prepend`, `StuckAt.append`: a half that is stuck by itself is
  stuck behind another and in front of another.
* `Composes`: all of this as one table.
* `IsToken`: the parts that are read in one step. `exists_tokens` and
  `tokens_unique`: a half that is read is a row of tokens in one way.
  `scan_perm`: in any other order they are read as the same combo.
-/

set_option autoImplicit false

namespace HotkeyScript

/-- The combo with the modifiers of both and the first key of the two. -/
def Combo.join (first second : Combo) : Combo :=
  ⟨first.modifiers ∪ second.modifiers, first.key.or second.key⟩

/-- The refusal behind some more bytes. -/
def ScanError.after (count : Nat) : ScanError → ScanError
  | .danglingSide symbol offset => .danglingSide symbol (count + offset)
  | .secondKey first second offset =>
    .secondKey first second (count + offset)

namespace Half

open Modifier (sides plainSymbols ofSymbol?_eq_none_iff
  mem_symbols_of_ofSymbol?)

/-- A key of a half, with this number of bytes before it. -/
def KeyAt (half : List Char) (key : Char) (offset : Nat) : Prop :=
  key ∉ Modifier.symbols
    ∧ ∃ before rest, half = before ++ key :: rest
      ∧ byteLength before = offset

/-- The first key of a half. -/
structure FirstKeyAt (half : List Char) (key : Char) (offset : Nat) :
    Prop where
  keyAt : KeyAt half key offset
  le : ∀ other offset', KeyAt half other offset' → offset ≤ offset'

/-! ### Keys and where they stand -/

section
variable {half before rest : List Char} {key : Char} {offset : Nat}
  {combo : Combo}

/-- A character that is no symbol stands somewhere in its half, whatever
is put behind. -/
theorem keyAt_of_mem (hmem : key ∈ before) (hkey : key ∉ Modifier.symbols)
    (rest : List Char) :
    ∃ offset, KeyAt (before ++ rest) key offset
      ∧ offset < byteLength before := by
  obtain ⟨front, back, rfl⟩ := List.append_of_mem hmem
  refine ⟨byteLength front, ⟨hkey, front, back ++ rest, by simp, rfl⟩, ?_⟩
  rw [byteLength_append]
  exact Nat.lt_add_of_pos_right (byteLength_cons_pos key back)

/-- A combo that was read has no key exactly when the half has symbols
only. -/
theorem key_eq_none_iff (hscan : scan half = .ok combo) :
    combo.key = none ↔ ∀ c ∈ half, c ∈ Modifier.symbols := by
  rw [Option.eq_none_iff_forall_ne_some]
  simp only [ne_eq, key_eq_some_iff hscan, not_and, not_not]

/-- The first key cuts the half in two. All that stands before it is
symbols, and their bytes are its offset. -/
theorem FirstKeyAt.exists_append (h : FirstKeyAt half key offset) :
    key ∉ Modifier.symbols ∧ ∃ before rest, half = before ++ key :: rest
      ∧ byteLength before = offset
      ∧ ∀ c ∈ before, c ∈ Modifier.symbols := by
  obtain ⟨hkey, before, rest, rfl, rfl⟩ := h.keyAt
  refine ⟨hkey, before, rest, rfl, rfl, ?_⟩
  intro c hc
  by_contra hsymbol
  obtain ⟨offset, hkeyAt, hlt⟩ := keyAt_of_mem hc hsymbol (key :: rest)
  exact absurd (h.le c offset hkeyAt) (Nat.not_le_of_lt hlt)

/-- Behind symbols only, a key is the first one. -/
theorem firstKeyAt_append (hkey : key ∉ Modifier.symbols)
    (hbefore : ∀ c ∈ before, c ∈ Modifier.symbols) :
    FirstKeyAt (before ++ key :: rest) key (byteLength before) where
  keyAt := ⟨hkey, before, rest, rfl, rfl⟩
  le := by
    rintro other offset ⟨hother, front, back, heq, rfl⟩
    rcases List.append_eq_append_iff.mp heq with
      ⟨between, rfl, -⟩ | ⟨between, rfl, hback⟩
    · rw [byteLength_append]
      exact Nat.le_add_right _ _
    · -- The other key would stand in `before`.
      cases between with
      | nil => simp
      | cons c between =>
        obtain ⟨rfl, -⟩ := List.cons.inj hback
        exact absurd (hbefore other (by simp)) hother

/-- A half with a key has a first key. -/
theorem exists_firstKeyAt (h : ∃ c ∈ half, c ∉ Modifier.symbols) :
    ∃ key offset, FirstKeyAt half key offset := by
  obtain ⟨c, hc, hsymbol⟩ := h
  -- The first of the keys, with what stands before it.
  cases hkeys : keys half with
  | nil =>
    have hmem : c ∈ keys half := mem_keys.mpr ⟨hc, hsymbol⟩
    rw [hkeys] at hmem
    cases hmem
  | cons key more =>
    obtain ⟨before, rest, rfl, hbefore, hkey, -⟩ :=
      List.filter_eq_cons_iff.mp hkeys
    refine ⟨key, _, firstKeyAt_append (by simpa using hkey) ?_⟩
    intro c hc
    simpa using hbefore c hc

end

/-! ### Reading on behind another half -/

section
variable {a b : List Char} {p q : Combo} {cause : ScanError}
  {offset : Nat}

/-- Two halves with one key at most are read as one half, with what both
hold. The scan of the second begins with the combo of the first. -/
theorem scan_append_of_ok (ha : scan a = .ok p) (hb : scan b = .ok q)
    (hkey : p.key = none ∨ q.key = none) :
    scan (a ++ b) = .ok (p.join q) := by
  obtain ⟨hqualify, hkeys, hmodifiers⟩ := scan_eq_ok_iff_held.mp hb
  rw [scan, scanFrom_append ha, scanFrom_eq_ok_iff]
  refine ⟨hqualify, ?_, ?_⟩
  · rw [← hkeys, Combo.join]
    rcases hkey with hnone | hnone
    · rw [hnone]
      rfl
    · rw [hnone, Option.or_none]
      exact (List.append_nil _).symm
  · rw [Combo.join, hmodifiers, ← ModifierSet.holdAll_eq_union]

/-- What is stuck behind some combo is stuck behind more, unless the key
for which there is no room is the key of both. -/
theorem Stuck.join (h : Stuck q offset b cause)
    (hkey : p.key = none ∨ q.key = none) (count : Nat) :
    Stuck (p.join q) (count + offset) b (cause.after count) := by
  cases h with
  | danglingSide hside hrest => exact .danglingSide hside hrest
  | secondKey hfirst hsecond =>
    -- The scan of `b` has a key when it is stuck, so `a` has none, and
    -- the key that was first stays the first.
    have hnone : p.key = none :=
      hkey.resolve_right fun hnone => by
        rw [hfirst] at hnone
        cases hnone
    refine .secondKey ?_ hsecond
    rw [Combo.join, hnone]
    exact hfirst

/-- A half that is stuck is stuck there as well behind another one, if no
key of its own has been refused before. -/
theorem StuckAt.prepend (h : StuckAt b offset cause) (ha : scan a = .ok p)
    (hkey : p.key = none
      ∨ ∀ key offset', KeyAt b key offset' → offset ≤ offset') :
    StuckAt (a ++ b) (byteLength a + offset)
      (cause.after (byteLength a)) := by
  obtain ⟨before, rest, q, rfl, rfl, hread, hstuck⟩ := h
  have hkey' : p.key = none ∨ q.key = none := by
    -- No key of `b` has been read where `b` is stuck.
    refine hkey.imp_right fun hle => (key_eq_none_iff hread).mpr ?_
    intro c hc
    by_contra hsymbol
    obtain ⟨offset, hkeyAt, hlt⟩ := keyAt_of_mem hc hsymbol rest
    exact absurd (hle c offset hkeyAt) (Nat.not_le_of_lt hlt)
  exact ⟨a ++ before, rest, p.join q, (List.append_assoc ..).symm,
    byteLength_append _ _, scan_append_of_ok ha hread hkey',
    hstuck.join hkey' _⟩

/-! ### More behind a refused half -/

/-- A side at the end of a half may get a symbol to qualify. Nothing else
that is refused can be mended by what follows. -/
theorem StuckAt.append (h : StuckAt a offset cause)
    (hlast : ∀ side front, cause = .danglingSide side offset →
      a = front ++ [side] → byteLength front = offset →
      ∀ c ∈ b.head?, c ∉ Modifier.symbols) :
    StuckAt (a ++ b) offset cause := by
  obtain ⟨before, rest, q, rfl, rfl, hread, hstuck⟩ := h
  refine ⟨before, rest ++ b, q, List.append_assoc .., rfl, hread, ?_⟩
  cases hstuck with
  | secondKey hfirst hsecond => exact .secondKey hfirst hsecond
  | @danglingSide side rest hside hrest =>
    refine .danglingSide hside ?_
    -- What follows reaches the side only if nothing else stands behind
    -- it.
    cases rest with
    | nil => exact hlast side before rfl rfl rfl
    | cons c rest => exact hrest

/-- Up to its first key, a half is read if it is not refused before. -/
theorem exists_scan_of_firstKey {before rest : List Char} {key : Char}
    (hkey : key ∉ Modifier.symbols)
    (hbefore : ∀ c ∈ before, c ∈ Modifier.symbols)
    (hscan : ∀ cause, scan (before ++ key :: rest) = .error cause →
      byteLength before < cause.offset) :
    ∃ q, scan before = .ok q ∧ q.key = none := by
  cases hread : scan before with
  | ok q => exact ⟨q, rfl, (key_eq_none_iff hread).mpr hbefore⟩
  | error cause =>
    -- What is refused before the key is refused in front of it as well: a
    -- side at the end gets no symbol.
    have hstuck := stuckAt_of_scan hread
    have hlt := hstuck.isValid_offset.1
    have happend : StuckAt (before ++ key :: rest) cause.offset cause := by
      apply hstuck.append
      intro _ _ _ _ _ c hc
      obtain rfl : key = c := by simpa using hc
      exact hkey
    have hoffset := hscan cause happend.scan_eq
    omega

/-- The first key of a half is a second key behind a half with a key. -/
theorem scan_append_of_firstKey (ha : scan a = .ok p) {first second : Char}
    (hfirst : p.key = some first) (hsecond : FirstKeyAt b second offset)
    (hscan : ∀ cause, scan b = .error cause → offset < cause.offset) :
    scan (a ++ b)
      = .error (.secondKey first second (byteLength a + offset)) := by
  obtain ⟨hkey, before, rest, rfl, rfl, hbefore⟩ := hsecond.exists_append
  obtain ⟨q, hread, hnone⟩ := exists_scan_of_firstKey hkey hbefore hscan
  have hjoin : (p.join q).key = some first := by
    rw [Combo.join, hfirst]
    rfl
  -- Everything before the key is read behind `a`, and the key of `a` is
  -- still the first.
  have hstuck : StuckAt (a ++ (before ++ second :: rest))
      (byteLength a + byteLength before) (.secondKey first second _) :=
    ⟨a ++ before, second :: rest, p.join q,
      (List.append_assoc ..).symm, byteLength_append _ _,
      scan_append_of_ok ha hread (.inr hnone), .secondKey hjoin hkey⟩
  exact hstuck.scan_eq

end

/-! ### The table -/

/-- How two texts are read behind one another. -/
structure Composes (a b : List Char) : Prop where
  /-- Both are halves, with one key at most. -/
  ok : ∀ p q, scan a = .ok p → scan b = .ok q →
    p.key = none ∨ q.key = none → scan (a ++ b) = .ok (p.join q)
  /-- Both are halves, with a key each. -/
  secondKey : ∀ p q first second, scan a = .ok p → scan b = .ok q →
    p.key = some first → q.key = some second →
    ∃ offset, FirstKeyAt b second offset
      ∧ scan (a ++ b)
        = .error (.secondKey first second (byteLength a + offset))
  /-- The second one is refused, and not behind a key of the first one
  and a key of its own. -/
  error : ∀ p cause, scan a = .ok p → scan b = .error cause →
    (p.key = none
      ∨ ∀ key offset, KeyAt b key offset → cause.offset ≤ offset) →
    scan (a ++ b) = .error (cause.after (byteLength a))
  /-- The second one is refused, but its first key is refused before. -/
  error_secondKey : ∀ p cause first, scan a = .ok p →
    scan b = .error cause → p.key = some first →
    (∃ key offset, KeyAt b key offset ∧ offset < cause.offset) →
    ∃ second offset, FirstKeyAt b second offset ∧ offset < cause.offset
      ∧ scan (a ++ b)
        = .error (.secondKey first second (byteLength a + offset))
  /-- The first one has two keys. -/
  left_secondKey : ∀ first second offset,
    scan a = .error (.secondKey first second offset) →
    scan (a ++ b) = .error (.secondKey first second offset)
  /-- The first one has a side that no symbol follows, and not at its
  end. -/
  left_danglingSide : ∀ side offset,
    scan a = .error (.danglingSide side offset) →
    (∀ front last, a = front ++ [last] → byteLength front ≠ offset) →
    scan (a ++ b) = .error (.danglingSide side offset)

/-- Any two texts are read behind one another as the table says. -/
theorem composes (a b : List Char) : Composes a b where
  ok _ _ ha hb hkey := scan_append_of_ok ha hb hkey
  secondKey p q first second ha hb hfirst hsecond := by
    -- The key of `b` is its only one, so it is the first.
    have hmem := mem_of_scan hb second hsecond
    obtain ⟨key, offset, hkey⟩ := exists_firstKeyAt ⟨second, hmem⟩
    obtain ⟨hsymbol, before, rest, heq, -, -⟩ := hkey.exists_append
    have hsame : q.key = some key :=
      (key_eq_some_iff hb).mpr ⟨by simp [heq], hsymbol⟩
    obtain rfl : key = second :=
      Option.some.inj (hsame.symm.trans hsecond)
    refine ⟨offset, hkey, scan_append_of_firstKey ha hfirst hkey ?_⟩
    intro cause hcause
    rw [hb] at hcause
    cases hcause
  error p cause ha hb hkey :=
    ((stuckAt_of_scan hb).prepend ha hkey).scan_eq
  error_secondKey p cause first ha hb hfirst hbefore := by
    -- Some key of `b` stands before its refused character, so the first
    -- one does.
    obtain ⟨key, offset, hkeyAt, hlt⟩ := hbefore
    have hmem : ∃ c ∈ b, c ∉ Modifier.symbols := by
      obtain ⟨hsymbol, before, rest, rfl, -⟩ := hkeyAt
      exact ⟨key, by simp, hsymbol⟩
    obtain ⟨second, offset', hsecond⟩ := exists_firstKeyAt hmem
    have hlt' : offset' < cause.offset :=
      Nat.lt_of_le_of_lt (hsecond.le key offset hkeyAt) hlt
    refine ⟨second, offset', hsecond, hlt',
      scan_append_of_firstKey ha hfirst hsecond ?_⟩
    intro cause' hcause'
    obtain rfl : cause = cause' :=
      Except.error.inj (hb.symm.trans hcause')
    exact hlt'
  left_secondKey first second offset ha := by
    have hstuck : StuckAt a offset (.secondKey first second offset) :=
      stuckAt_of_scan ha
    refine (hstuck.append ?_).scan_eq
    intro _ _ hcause
    cases hcause
  left_danglingSide side offset ha hlast := by
    have hstuck : StuckAt a offset (.danglingSide side offset) :=
      stuckAt_of_scan ha
    refine (hstuck.append ?_).scan_eq
    intro last front _ heq hoffset
    exact absurd hoffset (hlast front last heq)

/-! ### Tokens -/

/-- A text that is read in one step: a key, a plain symbol, or a side
with the symbol that it qualifies. -/
inductive IsToken : List Char → Prop where
  | key {c : Char} (hc : c ∉ Modifier.symbols) : IsToken [c]
  | plain {c : Char} (hc : c ∈ plainSymbols) : IsToken [c]
  | pair {side c : Char} (hside : side ∈ sides) (hc : c ∈ Modifier.symbols) :
      IsToken [side, c]

/-- A token is one character, or two if the first one is a side. -/
theorem IsToken.exists_cons {token : List Char} (h : IsToken token) :
    ∃ c rest, token = c :: rest
      ∧ rest.length = if c ∈ sides then 1 else 0 := by
  cases h with
  | @key c hc =>
    have hside : c ∉ sides := fun hside => hc (mem_symbols.mpr (.inl hside))
    exact ⟨c, [], rfl, by rw [if_neg hside]; rfl⟩
  | @plain c hc =>
    have hside := not_mem_sides_of_mem_plainSymbols hc
    exact ⟨c, [], rfl, by rw [if_neg hside]; rfl⟩
  | @pair side c hside hc => exact ⟨side, [c], rfl, by rw [if_pos hside]; rfl⟩

/-- A text falls into tokens in one way at most, since the first character
of a token tells how long the token is. -/
theorem tokens_unique {tokens other : List (List Char)}
    (htokens : ∀ token ∈ tokens, IsToken token)
    (hother : ∀ token ∈ other, IsToken token)
    (heq : tokens.flatten = other.flatten) : tokens = other := by
  induction tokens generalizing other with
  | nil =>
    cases other with
    | nil => rfl
    | cons token other =>
      obtain ⟨c, rest, rfl, -⟩ :=
        (hother token List.mem_cons_self).exists_cons
      cases heq
  | cons token tokens ih =>
    obtain ⟨c, rest, rfl, hlength⟩ :=
      (htokens token List.mem_cons_self).exists_cons
    cases other with
    | nil => cases heq
    | cons token' other =>
      obtain ⟨c', rest', rfl, hlength'⟩ :=
        (hother token' List.mem_cons_self).exists_cons
      -- Both begin with the same character, so they are equally long.
      rw [List.flatten_cons, List.flatten_cons, List.cons_append,
        List.cons_append, List.cons.injEq] at heq
      obtain ⟨rfl, htail⟩ := heq
      obtain ⟨rfl, hmore⟩ :=
        List.append_inj htail (hlength.trans hlength'.symm)
      rw [ih (fun t ht => htokens t (List.mem_cons_of_mem _ ht))
        (fun t ht => hother t (List.mem_cons_of_mem _ ht)) hmore]

/-- A text that is read falls into tokens, one for each step of the
scan. -/
theorem exists_tokens {combo result : Combo} {offset : Nat}
    {half : List Char} (h : scanFrom combo offset half = .ok result) :
    ∃ tokens : List (List Char), (∀ token ∈ tokens, IsToken token)
      ∧ tokens.flatten = half := by
  have hcons {token rest : List Char} (htoken : IsToken token)
      (hrest : ∃ tokens : List (List Char),
        (∀ token ∈ tokens, IsToken token) ∧ tokens.flatten = rest) :
      ∃ tokens : List (List Char), (∀ token ∈ tokens, IsToken token)
        ∧ tokens.flatten = token ++ rest := by
    obtain ⟨tokens, htokens, rfl⟩ := hrest
    refine ⟨token :: tokens, ?_, rfl⟩
    simpa [htoken] using htokens
  induction combo, offset, half using scanFrom.induct with
  | case1 combo offset => exact ⟨[], by simp, rfl⟩
  | case2 combo offset c rest hc hnone ih =>
    rw [scanFrom_key hc hnone] at h
    exact hcons (.key (ofSymbol?_eq_none_iff.mp hc)) (ih h)
  | case3 combo offset c rest hc first hsome =>
    rw [scanFrom_secondKey hc hsome] at h
    cases h
  | case4 combo offset c m hc hm =>
    rw [scanFrom_danglingSide hc hm (by simp)] at h
    cases h
  | case5 combo offset c m hc hm d rest hd =>
    rw [scanFrom_danglingSide hc hm (by simpa using hd)] at h
    cases h
  -- A side and whatever symbol stands behind it are one token.
  | case6 combo offset c m hc hm d rest n hd ih =>
    rw [scanFrom_pair hc hm hd] at h
    have hside := (mem_symbols_of_ofSymbol? hc).2.mp hm
    exact hcons (.pair hside (mem_symbols_of_ofSymbol? hd).1) (ih h)
  | case7 combo offset c rest m hc hm ih =>
    rw [scanFrom_plain hc hm] at h
    obtain ⟨hsymbol, hside⟩ := mem_symbols_of_ofSymbol? hc
    have hplain := (mem_symbols.mp hsymbol).resolve_left (mt hside.mpr hm)
    exact hcons (.plain hplain) (ih h)

/-- In a row of tokens every side qualifies the symbol of its own
token. -/
theorem sidesQualify_flatten {tokens : List (List Char)}
    (htokens : ∀ token ∈ tokens, IsToken token) :
    SidesQualify tokens.flatten := by
  induction tokens with
  | nil => exact sidesQualify_nil
  | cons token tokens ih =>
    have hrest := ih fun t ht => htokens t (List.mem_cons_of_mem _ ht)
    rw [List.flatten_cons]
    cases htokens token List.mem_cons_self with
    | key hc =>
      exact (sidesQualify_cons
        (fun hside => hc (mem_symbols.mpr (.inl hside))) _).mpr hrest
    | plain hc =>
      exact (sidesQualify_cons
        (not_mem_sides_of_mem_plainSymbols hc) _).mpr hrest
    | pair hside hc => exact (sidesQualify_pair hside hc _).mpr hrest

/-- The order of its characters matters to a half only as far as its
sides have to qualify. -/
theorem scan_perm {half other : List Char} {combo : Combo}
    (h : scan half = .ok combo) (hperm : other.Perm half)
    (hqualify : SidesQualify other) : scan other = .ok combo := by
  obtain ⟨-, hkeys, hmodifiers⟩ := scan_eq_ok_iff_held.mp h
  refine scan_eq_ok_iff_held.mpr ⟨hqualify, ?_, ?_⟩
  · -- There is one key at most, so the keys have one order only.
    have hperm' : (keys other).Perm combo.key.toList := by
      rw [hkeys]
      exact hperm.filter _
    cases hkey : combo.key with
    | none =>
      rw [hkey] at hperm'
      exact hperm'.eq_nil.symm
    | some key =>
      rw [hkey] at hperm'
      exact (List.perm_singleton.mp hperm').symm
  · have hheld : (held half).Perm (held other) := hperm.symm.filterMap _
    rw [hmodifiers]
    exact ModifierSet.holdAll_congr fun m => hheld.mem_iff

/-- **Halves put behind one another**, for any two texts, and the tokens
of a half in any order. -/
theorem composes_and_reorders :
    (∀ a b : List Char, Composes a b)
      ∧ ∀ half combo, scan half = .ok combo →
        ∃ tokens : List (List Char),
          ((∀ token ∈ tokens, IsToken token) ∧ tokens.flatten = half)
            ∧ (∀ other : List (List Char),
              (∀ token ∈ other, IsToken token) → other.flatten = half →
                other = tokens)
            ∧ ∀ reordered : List (List Char), reordered.Perm tokens →
              scan reordered.flatten = .ok combo := by
  refine ⟨composes, ?_⟩
  intro half combo h
  obtain ⟨tokens, htokens, rfl⟩ := exists_tokens h
  refine ⟨tokens, ⟨htokens, rfl⟩, ?_, ?_⟩
  · intro other hother heq
    exact tokens_unique hother htokens heq
  · intro reordered hperm
    apply scan_perm h hperm.flatten
    exact sidesQualify_flatten fun token ht =>
      htokens token (hperm.mem_iff.mp ht)

/-- A side at the end of the second half is refused there, but not behind
a key. The key of that half is refused first. -/
theorem composes_and_reorders_side_at_end :
    (∃ second offset, FirstKeyAt ['k', '^', '<'] second offset
        ∧ offset < 2
        ∧ scan ['é', 'k', '^', '<']
          = .error (.secondKey 'é' second (2 + offset)))
      ∧ ∃ tokens : List (List Char), tokens.flatten = ['<', '^', 'k']
        ∧ ∀ reordered : List (List Char), reordered.Perm tokens →
          scan reordered.flatten = scan ['<', '^', 'k'] := by
  have hleft : scan ['é'] = .ok ⟨∅, some 'é'⟩ := by decide
  have hright : scan ['k', '^', '<'] = .error (.danglingSide '<' 2) := by
    decide
  -- The key stands before the side, so it is refused before the side is
  -- reached.
  have hkey : ∃ key offset, KeyAt ['k', '^', '<'] key offset
      ∧ offset < 2 :=
    ⟨'k', 0, ⟨by decide, [], ['^', '<'], rfl, rfl⟩, by decide⟩
  have hscan : scan ['<', '^', 'k']
      = .ok ⟨.single .left ∪ .single .ctrl, some 'k'⟩ := by
    decide
  obtain ⟨tokens, ⟨-, hflatten⟩, -, hreorder⟩ :=
    composes_and_reorders.2 _ _ hscan
  refine ⟨?_, tokens, hflatten, ?_⟩
  · exact (composes_and_reorders.1 ['é'] ['k', '^', '<']).error_secondKey
      _ _ _ hleft hright rfl hkey
  · rw [hscan]
    exact hreorder

end Half

end HotkeyScript
