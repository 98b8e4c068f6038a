import HotkeyScript.Half
import HotkeyScript.Proofs.Modifier.Symbols

/-!
# `HotkeyScript.Proofs.Half.SideRuns`: which halves spell a combo

`Half.scan` reads a half from left to right and takes `<` and `>`
together with the symbol behind them, whatever it is. So whether a `<`
is refused depends on where the scan stands in a row of such
characters. `scan_eq_ok_iff` says it without a scan: a half spells a
combo exactly when it has at most one key and every maximal run of `<`
and `>` of odd length has a plain symbol right behind it. The combo
then holds the modifiers of all symbols and has that key.

The proof follows the scan. Its tokens are a key, a plain symbol, or a
side with the symbol behind it, and `SidesQualify` is the same before
and after each of them is cut off:

* `sidesQualify_cons`: a character that is no side touches no run.
* `sidesQualify_side_side`: two sides leave a run with the parity of
  its length, also where they are the whole run.
* `sidesQualify_side_cons`: a side before another character is a run of
  its own.
* `sidesQualify_pair`: so a side can be cut off with the symbol behind it,
  whichever symbol it is.

`scanFrom_eq_ok_iff` is the induction over these steps, from any combo
read so far.
-/

set_option autoImplicit false

namespace HotkeyScript.Half

open Modifier (sides plainSymbols ofSymbol?_eq_none_iff
  mem_symbols_of_ofSymbol?)

/-- The keys of a half: its characters that are no symbols. -/
def keys (half : List Char) : List Char :=
  half.filter fun c => c ∉ Modifier.symbols

/-- The modifiers that the symbols of a half stand for, in their
order. -/
def held (half : List Char) : List Modifier :=
  half.filterMap Modifier.ofSymbol?

/-- A run of `<` and `>` in a half that is as long as can be: no side
stands right before it or right behind it. -/
structure SideRun (half before run after : List Char) : Prop where
  eq_append : half = before ++ run ++ after
  sides : ∀ c ∈ run, c ∈ Modifier.sides
  start : ∀ c ∈ before.getLast?, c ∉ Modifier.sides
  stop : ∀ c ∈ after.head?, c ∉ Modifier.sides

/-- Every maximal run of `<` and `>` of odd length has a plain symbol
right behind it. -/
def SidesQualify (half : List Char) : Prop :=
  ∀ before run after : List Char, SideRun half before run after →
    run.length % 2 = 1 → ∃ c ∈ after.head?, c ∈ plainSymbols

/-- The keys of a half are its characters that are no symbols. -/
theorem mem_keys {half : List Char} {c : Char} :
    c ∈ keys half ↔ c ∈ half ∧ c ∉ Modifier.symbols := by
  rw [keys, List.mem_filter, decide_eq_true_iff]

/-! ### Runs and the front of a half -/

/-- The runs of a half that does not begin with a side are those of the
rest, and the empty one at its front. -/
theorem sideRun_cons {c : Char} (hc : c ∉ sides)
    (rest before run after : List Char) :
    SideRun (c :: rest) before run after
      ↔ (before = [] ∧ run = [] ∧ after = c :: rest)
        ∨ ∃ before', before = c :: before'
          ∧ SideRun rest before' run after := by
  constructor
  · rintro ⟨heq, hsides, hstart, hstop⟩
    match before, run with
    | [], [] => exact .inl ⟨rfl, rfl, by simpa using heq.symm⟩
    | [], d :: run =>
        -- The run would begin with `c`.
        obtain ⟨rfl, -⟩ := List.cons.inj heq
        exact absurd (hsides c List.mem_cons_self) hc
    | b :: before, run =>
        obtain ⟨rfl, heq'⟩ := List.cons.inj heq
        refine .inr ⟨before, rfl, heq', hsides, ?_, hstop⟩
        intro d hd
        refine hstart d ?_
        rw [List.getLast?_cons, Option.mem_def.mp hd]
        rfl
  · rintro (⟨rfl, rfl, rfl⟩ | ⟨before', rfl, heq, hsides, hstart, hstop⟩)
    -- Backwards, the empty run in front is maximal because `c` is no
    -- side, and behind `c` a run keeps what stands before it.
    · exact ⟨rfl, by simp, by simp, by simpa using hc⟩
    · refine ⟨by rw [heq]; rfl, hsides, ?_, hstop⟩
      intro d hd
      cases before' with
      | nil =>
          obtain rfl : c = d := by simpa using hd
          exact hc
      | cons b before' =>
          rw [List.getLast?_cons_cons] at hd
          exact hstart d hd

/-- Behind a side that another character follows, the run at the front
is that side alone, and the other runs are those further on. -/
theorem sideRun_side_cons {c d : Char} (hc : c ∈ sides) (hd : d ∉ sides)
    (rest before run after : List Char) :
    SideRun (c :: d :: rest) before run after
      ↔ (before = [] ∧ run = [c] ∧ after = d :: rest)
        ∨ ∃ before', before = c :: d :: before'
          ∧ SideRun rest before' run after := by
  constructor
  · rintro ⟨heq, hsides, hstart, hstop⟩
    -- Where the run begins decides the case: before `c`, behind `c`, or
    -- behind `d`. Anywhere else a side would touch it.
    match before, run with
    | [], [] =>
        have hafter : after = c :: d :: rest := by simpa using heq.symm
        exact absurd hc (hstop c (by simp [hafter]))
    | [], [b] =>
        obtain ⟨rfl, heq'⟩ := List.cons.inj heq
        exact .inl ⟨rfl, rfl, by simpa using heq'.symm⟩
    | [], b :: b' :: run =>
        obtain ⟨-, heq'⟩ := List.cons.inj heq
        obtain ⟨rfl, -⟩ := List.cons.inj heq'
        exact absurd (hsides d (by simp)) hd
    | [b], run =>
        obtain ⟨rfl, -⟩ := List.cons.inj heq
        exact absurd hc (hstart c (by simp))
    | b :: b' :: before, run =>
        obtain ⟨rfl, heq'⟩ := List.cons.inj heq
        rw [List.getLast?_cons_cons] at hstart
        rcases (sideRun_cons hd ..).mp ⟨heq', hsides, hstart, hstop⟩ with
          ⟨hnil, -, -⟩ | ⟨before', hbefore, hrun⟩
        · cases hnil
        · exact .inr ⟨before', by rw [hbefore], hrun⟩
  · rintro (⟨rfl, rfl, rfl⟩ | ⟨before', rfl, hrun⟩)
    · exact ⟨rfl, by simpa using hc, by simp, by simpa using hd⟩
    · obtain ⟨heq, hsides, hstart, hstop⟩ :=
        (sideRun_cons hd ..).mpr (.inr ⟨before', rfl, hrun⟩)
      refine ⟨by rw [heq]; rfl, hsides, ?_, hstop⟩
      rwa [List.getLast?_cons_cons]

/-- A half that begins with two sides has the runs of the rest, except
that the run at the front is longer by the two. -/
theorem sideRun_side_side {c d : Char} (hc : c ∈ sides) (hd : d ∈ sides)
    (rest before run after : List Char) :
    SideRun (c :: d :: rest) before run after
      ↔ (before = [] ∧ ∃ run', run = c :: d :: run'
          ∧ SideRun rest [] run' after)
        ∨ ∃ before', before' ≠ [] ∧ before = c :: d :: before'
          ∧ SideRun rest before' run after := by
  constructor
  · rintro ⟨heq, hsides, hstart, hstop⟩
    -- A maximal run that begins at `c` reaches past `d`. It cannot begin
    -- at `d`, nor right behind it, where a side stands before it.
    match before, run with
    | [], [] =>
        have hafter : after = c :: d :: rest := by simpa using heq.symm
        exact absurd hc (hstop c (by simp [hafter]))
    | [], [b] =>
        have hafter : after = d :: rest := by
          simpa using (List.cons.inj heq).2.symm
        exact absurd hd (hstop d (by simp [hafter]))
    | [], b :: b' :: run =>
        obtain ⟨rfl, heq'⟩ := List.cons.inj heq
        obtain ⟨rfl, heq''⟩ := List.cons.inj heq'
        refine .inl ⟨rfl, run, rfl, heq'', ?_, by simp, hstop⟩
        intro x hx
        exact hsides x (List.mem_cons_of_mem _ (List.mem_cons_of_mem _ hx))
    | [b], run =>
        obtain ⟨rfl, -⟩ := List.cons.inj heq
        exact absurd hc (hstart c (by simp))
    | [b, b'], run =>
        obtain ⟨-, heq'⟩ := List.cons.inj heq
        obtain ⟨rfl, -⟩ := List.cons.inj heq'
        exact absurd hd (hstart d (by simp))
    | b :: b' :: b'' :: before, run =>
        obtain ⟨rfl, heq'⟩ := List.cons.inj heq
        obtain ⟨rfl, heq''⟩ := List.cons.inj heq'
        refine .inr ⟨b'' :: before, by simp, rfl, heq'', hsides, ?_, hstop⟩
        rwa [List.getLast?_cons_cons, List.getLast?_cons_cons] at hstart
  · rintro (⟨rfl, run', rfl, heq, hsides, -, hstop⟩
      | ⟨before', hne, rfl, heq, hsides, hstart, hstop⟩)
    · refine ⟨by rw [heq]; rfl, ?_, by simp, hstop⟩
      intro x hx
      rcases List.mem_cons.mp hx with rfl | hx
      · exact hc
      · rcases List.mem_cons.mp hx with rfl | hx
        · exact hd
        · exact hsides x hx
    · refine ⟨by rw [heq]; rfl, hsides, ?_, hstop⟩
      cases before' with
      | nil => exact absurd rfl hne
      | cons b before' =>
          rwa [List.getLast?_cons_cons, List.getLast?_cons_cons]

/-! ### The tokens of the scan -/

/-- An empty text has the empty run only, whose length is even. -/
theorem sidesQualify_nil : SidesQualify [] := by
  intro before run after hrun hodd
  have hnil : run = [] := by
    have heq := hrun.eq_append
    simp only [List.nil_eq, List.append_eq_nil_iff] at heq
    exact heq.1.2
  rw [hnil] at hodd
  cases hodd

/-- A character that is no side touches no run, so nothing changes when it
is cut off. -/
theorem sidesQualify_cons {c : Char} (hc : c ∉ sides)
    (rest : List Char) :
    SidesQualify (c :: rest) ↔ SidesQualify rest := by
  constructor
  · intro h before run after hrun hodd
    exact h (c :: before) run after
      ((sideRun_cons hc ..).mpr (.inr ⟨before, rfl, hrun⟩)) hodd
  · intro h before run after hrun hodd
    rcases (sideRun_cons hc ..).mp hrun with
      ⟨-, rfl, -⟩ | ⟨before', -, hrun'⟩
    -- The empty run in front is not of odd length.
    · cases hodd
    · exact h before' run after hrun' hodd

/-- A side before a character that is no side needs that character to be
a plain symbol. -/
theorem sidesQualify_side_cons {c d : Char} (hc : c ∈ sides)
    (hd : d ∉ sides) (rest : List Char) :
    SidesQualify (c :: d :: rest)
      ↔ d ∈ plainSymbols ∧ SidesQualify rest := by
  constructor
  · intro h
    constructor
    -- The side by itself is a run of odd length, and `d` stands behind
    -- it.
    · simpa using h [] [c] (d :: rest)
        ((sideRun_side_cons hc hd ..).mpr (.inl ⟨rfl, rfl, rfl⟩)) rfl
    · intro before run after hrun hodd
      exact h (c :: d :: before) run after
        ((sideRun_side_cons hc hd ..).mpr (.inr ⟨before, rfl, hrun⟩)) hodd
  · rintro ⟨hplain, h⟩ before run after hrun hodd
    rcases (sideRun_side_cons hc hd ..).mp hrun with
      ⟨-, -, rfl⟩ | ⟨before', -, hrun'⟩
    · exact ⟨d, rfl, hplain⟩
    · exact h before' run after hrun' hodd

/-- Two sides at the front are taken together and leave a run whose
length has the same parity. -/
theorem sidesQualify_side_side {c d : Char} (hc : c ∈ sides)
    (hd : d ∈ sides) (rest : List Char) :
    SidesQualify (c :: d :: rest) ↔ SidesQualify rest := by
  constructor
  · intro h before run after hrun hodd
    cases before with
    | nil =>
        -- Only the run at the front changes, and by two.
        refine h [] (c :: d :: run) after
          ((sideRun_side_side hc hd ..).mpr (.inl ⟨rfl, run, rfl, hrun⟩)) ?_
        simp only [List.length_cons]
        omega
    | cons b before =>
        exact h (c :: d :: b :: before) run after
          ((sideRun_side_side hc hd ..).mpr
            (.inr ⟨b :: before, by simp, rfl, hrun⟩)) hodd
  · intro h before run after hrun hodd
    rcases (sideRun_side_side hc hd ..).mp hrun with
      ⟨-, run', hlonger, hrun'⟩ | ⟨before', -, -, hrun'⟩
    · refine h [] run' after hrun' ?_
      simp only [hlonger, List.length_cons] at hodd
      omega
    · exact h before' run after hrun' hodd

/-- A side and the symbol behind it leave the other runs as they are. -/
theorem sidesQualify_pair {c d : Char} (hc : c ∈ sides)
    (hd : d ∈ Modifier.symbols) (rest : List Char) :
    SidesQualify (c :: d :: rest) ↔ SidesQualify rest := by
  by_cases hd' : d ∈ sides
  · exact sidesQualify_side_side hc hd' rest
  · have hplain := (List.mem_append.mp hd).resolve_left hd'
    rw [sidesQualify_side_cons hc hd' rest]
    exact and_iff_right hplain

/-- A side at the end has nothing to qualify. -/
theorem not_sidesQualify_side {c : Char} (hc : c ∈ sides) :
    ¬ SidesQualify [c] := by
  intro h
  obtain ⟨d, hd, -⟩ :=
    h [] [c] [] ⟨rfl, by simpa using hc, by simp, by simp⟩ rfl
  cases hd

/-! ### The scan -/

/-- A key at the front is one more key and no modifier. -/
theorem keys_cons_key {c : Char} (hc : Modifier.ofSymbol? c = none)
    (rest : List Char) :
    keys (c :: rest) = c :: keys rest ∧ held (c :: rest) = held rest := by
  have hmem : c ∉ Modifier.symbols := ofSymbol?_eq_none_iff.mp hc
  constructor
  · exact List.filter_cons_of_pos (by simpa using hmem)
  · exact List.filterMap_cons_none hc

/-- A symbol at the front is one more modifier and no key. -/
theorem keys_cons_symbol {c : Char} {m : Modifier}
    (hc : Modifier.ofSymbol? c = some m) (rest : List Char) :
    keys (c :: rest) = keys rest ∧ held (c :: rest) = m :: held rest := by
  have hmem := (mem_symbols_of_ofSymbol? hc).1
  constructor
  · exact List.filter_cons_of_neg (by simpa using hmem)
  · exact List.filterMap_cons_some hc

/-- The scan of a half, from any combo read so far: it succeeds exactly
where all sides qualify a symbol and the keys before and behind are one
at most. -/
theorem scanFrom_eq_ok_iff (combo result : Combo) (offset : Nat)
    (half : List Char) :
    scanFrom combo offset half = .ok result
      ↔ SidesQualify half
        ∧ result.key.toList = combo.key.toList ++ keys half
        ∧ result.modifiers = combo.modifiers.holdAll (held half) := by
  -- One case for each way in which the scan goes on or ends. The token in
  -- front changes both sides of the equivalence alike.
  induction combo, offset, half using scanFrom.induct with
  | case1 combo offset =>
      obtain ⟨modifiers, key⟩ := combo
      obtain ⟨modifiers', key'⟩ := result
      have hkey : key'.toList = key.toList ++ keys [] ↔ key = key' := by
        cases key <;> cases key' <;> simp [keys, eq_comm]
      rw [hkey, scanFrom]
      constructor
      · intro h
        cases h
        exact ⟨sidesQualify_nil, rfl, rfl⟩
      · rintro ⟨-, rfl, rfl⟩
        rfl
  | case2 combo offset c rest hc hnone ih =>
      obtain ⟨hkeys, hheld⟩ := keys_cons_key hc rest
      have hside : c ∉ sides := fun h =>
        ofSymbol?_eq_none_iff.mp hc (List.mem_append_left _ h)
      rw [scanFrom_key hc hnone, ih, sidesQualify_cons hside, hkeys, hheld,
        hnone]
      rfl
  | case3 combo offset c rest hc first hsome =>
      obtain ⟨hkeys, -⟩ := keys_cons_key hc rest
      rw [scanFrom_secondKey hc hsome, hkeys, hsome]
      constructor
      · intro h
        cases h
      · -- A combo has no room for a second key.
        rintro ⟨-, h, -⟩
        cases hkey : result.key <;> simp [hkey] at h
  | case4 combo offset c m hc hm =>
      have hside := (mem_symbols_of_ofSymbol? hc).2.mp hm
      rw [scanFrom_danglingSide hc hm (by simp)]
      simp [not_sidesQualify_side hside]
  -- The character behind the side is a key, so the side is a run by
  -- itself and is not qualified.
  | case5 combo offset c m hc hm d rest hd =>
      have hside := (mem_symbols_of_ofSymbol? hc).2.mp hm
      have hd' := ofSymbol?_eq_none_iff.mp hd
      simp only [Modifier.symbols, List.mem_append, not_or] at hd'
      rw [scanFrom_danglingSide hc hm (by simpa using hd)]
      simp [sidesQualify_side_cons hside hd'.1, hd'.2]
  | case6 combo offset c m hc hm d rest n hd ih =>
      obtain ⟨hkeys, hheld⟩ := keys_cons_symbol hc (d :: rest)
      obtain ⟨hkeys', hheld'⟩ := keys_cons_symbol hd rest
      have hside := (mem_symbols_of_ofSymbol? hc).2.mp hm
      have hqualify :=
        sidesQualify_pair hside (mem_symbols_of_ofSymbol? hd).1 rest
      rw [scanFrom_pair hc hm hd, ih, hqualify, hkeys, hkeys', hheld,
        hheld']
      rfl
  | case7 combo offset c rest m hc hm ih =>
      obtain ⟨hkeys, hheld⟩ := keys_cons_symbol hc rest
      have hside : c ∉ sides := fun h =>
        hm ((mem_symbols_of_ofSymbol? hc).2.mpr h)
      rw [scanFrom_plain hc hm, ih, sidesQualify_cons hside, hkeys, hheld]
      rfl

/-- **The halves that spell a combo**: those with at most one key whose
runs of `<` and `>` of odd length each have a plain symbol right behind
them. The combo has exactly the bits of the symbols, and its key is the
one character that is no symbol. -/
theorem scan_eq_ok_iff (half : List Char) :
    ((∃ combo, scan half = .ok combo)
        ↔ (keys half).length ≤ 1 ∧ SidesQualify half)
      ∧ ∀ combo, scan half = .ok combo →
        (∀ i, combo.modifiers.bits.getLsbD i = true
          ↔ ∃ c ∈ half, ∃ m, Modifier.ofSymbol? c = some m ∧ m.place = i)
        ∧ keys half = combo.key.toList := by
  have hscan := fun combo => scanFrom_eq_ok_iff Combo.empty combo 0 half
  have hnone : Combo.empty.key.toList = [] := rfl
  -- Nothing has been read at the start of a half.
  simp only [hnone, List.nil_append] at hscan
  refine ⟨⟨?_, ?_⟩, ?_⟩
  · rintro ⟨combo, h⟩
    obtain ⟨hqualify, hkey, -⟩ := (hscan combo).mp h
    refine ⟨?_, hqualify⟩
    rw [← hkey]
    exact Option.length_toList_le
  · rintro ⟨hlength, hqualify⟩
    -- The combo is built from the half: all its modifiers, and its only
    -- key.
    refine ⟨⟨Combo.empty.modifiers.holdAll (held half), (keys half).head?⟩,
      (hscan _).mpr ⟨hqualify, ?_, rfl⟩⟩
    match hkeys : keys half with
    | [] => rfl
    | [key] => rfl
    | first :: second :: more => simp [hkeys] at hlength
  · intro combo h
    obtain ⟨-, hkey, hmodifiers⟩ := (hscan combo).mp h
    refine ⟨fun i => ?_, hkey.symm⟩
    have hzero : Combo.empty.modifiers.bits.getLsbD i = false := by
      simp [Combo.empty]
    rw [hmodifiers, ModifierSet.getLsbD_holdAll, hzero]
    simp only [Bool.false_eq_true, false_or, held, List.mem_filterMap]
    constructor
    · rintro ⟨m, ⟨c, hc, hm⟩, hplace⟩
      exact ⟨c, hc, m, hm, hplace⟩
    · rintro ⟨c, hc, m, hm, hplace⟩
      exact ⟨m, ⟨c, hc, hm⟩, hplace⟩

end HotkeyScript.Half
