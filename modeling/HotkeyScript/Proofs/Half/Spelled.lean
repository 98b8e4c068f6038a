import HotkeyScript.Proofs.Half.Refusal

/-!
# `HotkeyScript.Proofs.Half.Spelled`: halves that are written for a combo

Two ways to write a combo put `<` and `>` in front, then the plain
symbols, and the key last. In `Combo.symbols` each of the two stands
once. Such a text is not always a half: with one of the two and no plain
symbol to qualify, nothing but the key or the end follows. In
`Combo.spelling` each of the two stands twice, so they qualify each
other, and the text is always a half.

* `sidesQualify_append`: when a text of this form is a half.
* `scan_spelling`: a spelling is read as its combo.
* `scan_symbols`: so are the symbols of a combo, if it has no
  `lonelySide?`, and else they are refused at their start.
* `ofSymbols_of_scan`, `key_eq_some_iff`, `ne_empty_of_scan`: what every
  combo that is read is like.
-/

set_option autoImplicit false

namespace HotkeyScript

open Modifier (sides plainSymbols)

namespace Combo

/-- The plain symbols of the combo and its key. -/
def behindSides (combo : Combo) : List Char :=
  plainSymbols.filter combo.modifiers.shows ++ combo.key.toList

/-- The combo in symbols with each of `<` and `>` doubled. -/
def spelling (combo : Combo) : List Char :=
  (sides.filter combo.modifiers.shows).flatMap (fun c => [c, c])
    ++ combo.behindSides

/-- The symbol of Left or of Right, if the combo has this one of the two
only and no modifier that it could qualify. -/
def lonelySide? (combo : Combo) : Option Char :=
  if [Modifier.win, .alt, .ctrl, .shift, .wildcard, .dontBlock,
      .useHook].any combo.modifiers.has then none
  else
    match combo.modifiers.has .left, combo.modifiers.has .right with
    | true, false => some '<'
    | false, true => some '>'
    | _, _ => none

end Combo

namespace Half

open Modifier (ofSymbol?_eq_some_iff ofSymbol?_eq_none_iff
  mem_symbols_of_ofSymbol?)

/-- No plain symbol is a side, so it never waits for what it qualifies. -/
theorem not_mem_sides_of_mem_plainSymbols {c : Char}
    (hc : c ∈ plainSymbols) : c ∉ sides := by
  have hall : plainSymbols.all (· ∉ sides) = true := by decide
  exact of_decide_eq_true (List.all_eq_true.mp hall c hc)

/-- Every symbol is a side or a plain symbol. -/
theorem mem_symbols {c : Char} :
    c ∈ Modifier.symbols ↔ c ∈ sides ∨ c ∈ plainSymbols :=
  List.mem_append

/-! ### Sides in front -/

/-- In a text without sides there is nothing to qualify. -/
theorem sidesQualify_of_not_mem_sides {half : List Char}
    (h : ∀ c ∈ half, c ∉ sides) : SidesQualify half := by
  induction half with
  | nil => exact sidesQualify_nil
  | cons c half ih =>
    rw [sidesQualify_cons (h c List.mem_cons_self)]
    exact ih fun d hd => h d (List.mem_cons_of_mem _ hd)

/-- The sides in front of a text without others are one run. If their
number is odd, a plain symbol has to follow. -/
theorem sidesQualify_append {front rest : List Char}
    (hfront : ∀ c ∈ front, c ∈ sides) (hrest : ∀ c ∈ rest, c ∉ sides) :
    SidesQualify (front ++ rest)
      ↔ (front.length % 2 = 1 → ∃ c ∈ rest.head?, c ∈ plainSymbols) := by
  have hqualify := sidesQualify_of_not_mem_sides hrest
  match front with
  | [] => simpa using hqualify
  | [c] =>
    have hc := hfront c List.mem_cons_self
    cases rest with
    | nil => simpa using not_sidesQualify_side hc
    | cons d rest =>
      have hd := hrest d List.mem_cons_self
      rw [sidesQualify_cons hd] at hqualify
      show SidesQualify (c :: d :: rest) ↔ _
      rw [sidesQualify_side_cons hc hd]
      simp [hqualify]
  | c :: d :: front =>
    -- Two sides qualify each other and leave the parity as it was.
    have hc := hfront c (by simp)
    have hd := hfront d (by simp)
    have hfront' : ∀ c ∈ front, c ∈ sides :=
      fun c hc => hfront c (by simp [hc])
    show SidesQualify (c :: d :: (front ++ rest)) ↔ _
    rw [sidesQualify_side_side hc hd, sidesQualify_append hfront' hrest]
    simp [List.length_cons, Nat.add_assoc]

/-! ### What a text is read as -/

/-- When a half is read as a combo, without a scan. -/
theorem scan_eq_ok_iff_held {half : List Char} {combo : Combo} :
    scan half = .ok combo
      ↔ SidesQualify half ∧ combo.key.toList = keys half
        ∧ combo.modifiers = (∅ : ModifierSet).holdAll (held half) :=
  scanFrom_eq_ok_iff Combo.empty combo 0 half

/-- A half holds the modifiers of its symbols. -/
theorem mem_held {half : List Char} {m : Modifier} :
    m ∈ held half ↔ ∃ c ∈ half, Modifier.ofSymbol? c = some m :=
  List.mem_filterMap

/-- The modifiers of a set are held by any text with its symbols. -/
theorem holdAll_held {s : ModifierSet} (hs : s.OfSymbols)
    {half : List Char}
    (hhalf : ∀ c ∈ Modifier.symbols, c ∈ half ↔ s.shows c = true) :
    (∅ : ModifierSet).holdAll (held half) = s := by
  -- Bit by bit: every bit of the set has a symbol, and this symbol is in
  -- the text.
  apply ModifierSet.eq_of_getLsbD_iff
  intro i
  rw [ModifierSet.getLsbD_holdAll_empty]
  constructor
  · rintro ⟨m, hm, rfl⟩
    obtain ⟨c, hc, hsymbol⟩ := mem_held.mp hm
    have hshows := (hhalf c (mem_symbols_of_ofSymbol? hsymbol).1).mp hc
    rw [ModifierSet.shows, hsymbol] at hshows
    exact ModifierSet.has_iff_getLsbD.mp hshows
  · intro hbit
    obtain ⟨⟨c, m⟩, hentry, rfl⟩ := hs i hbit
    have hsymbol := ofSymbol?_eq_some_iff.mpr hentry
    have hshows : s.shows c = true := by
      rw [s.shows_of_mem_symbolTable hentry]
      exact ModifierSet.has_iff_getLsbD.mpr hbit
    have hc := (hhalf c (mem_symbols_of_ofSymbol? hsymbol).1).mpr hshows
    exact ⟨m, mem_held.mpr ⟨c, hc, hsymbol⟩, rfl⟩

/-- A text of symbols has no key. -/
theorem keys_eq_nil {half : List Char}
    (h : ∀ c ∈ half, c ∈ Modifier.symbols) : keys half = [] := by
  rw [keys, List.filter_eq_nil_iff]
  intro c hc
  simp [h c hc]

/-- A text without symbols has keys only. -/
theorem keys_eq_self {half : List Char}
    (h : ∀ c ∈ half, c ∉ Modifier.symbols) : keys half = half := by
  rw [keys, List.filter_eq_self]
  intro c hc
  simp [h c hc]

section
variable {combo : Combo}

/-- A combo is read from its sides, in any number, with its plain symbols
and its key behind them, if the sides qualify. -/
theorem scan_append (hcombo : combo.modifiers.OfSymbols)
    (hkey : ∀ c ∈ combo.key, c ∉ Modifier.symbols) {front : List Char}
    (hfront : ∀ c, c ∈ front ↔ c ∈ sides ∧ combo.modifiers.shows c = true)
    (hqualify : SidesQualify (front ++ combo.behindSides)) :
    scan (front ++ combo.behindSides) = .ok combo := by
  have hkey' : ∀ c ∈ combo.key.toList, c ∉ Modifier.symbols :=
    fun c hc => hkey c (Option.mem_toList.mp hc)
  rw [scan_eq_ok_iff_held]
  refine ⟨hqualify, ?_, (holdAll_held hcombo ?_).symm⟩
  -- The keys: neither the sides nor the plain symbols have any.
  · have hkeys : keys (front ++ combo.behindSides)
        = keys front
          ++ (keys (plainSymbols.filter combo.modifiers.shows)
            ++ keys combo.key.toList) := by
      simp only [Combo.behindSides, keys, List.filter_append]
    rw [hkeys, keys_eq_self hkey', keys_eq_nil, keys_eq_nil]
    · rfl
    · intro c hc
      exact mem_symbols.mpr (.inr (List.mem_of_mem_filter hc))
    · intro c hc
      exact mem_symbols.mpr (.inl ((hfront c).mp hc).1)
  · intro c hc
    -- A symbol of the text stands among the sides or among the plain
    -- symbols, since the key is no symbol.
    have hnotkey : c ∉ combo.key.toList := fun hmem => hkey' c hmem hc
    rw [List.mem_append, hfront, Combo.behindSides, List.mem_append,
      List.mem_filter, or_iff_left hnotkey, ← or_and_right, ← mem_symbols]
    exact and_iff_right hc

/-- Behind the sides stand plain symbols and a key, and none of these is a
side. -/
theorem not_mem_sides_of_mem_behindSides
    (hkey : ∀ c ∈ combo.key, c ∉ Modifier.symbols) :
    ∀ c ∈ combo.behindSides, c ∉ sides := by
  intro c hc
  cases List.mem_append.mp hc with
  | inl hplain =>
    exact not_mem_sides_of_mem_plainSymbols (List.mem_of_mem_filter hplain)
  | inr hmem =>
    exact fun hside => hkey c (Option.mem_toList.mp hmem)
      (mem_symbols.mpr (.inl hside))

/-- A spelling is read as its combo. Each side stands there twice, so
their number is even and nothing has to follow them. -/
theorem scan_spelling (hcombo : combo.modifiers.OfSymbols)
    (hkey : ∀ c ∈ combo.key, c ∉ Modifier.symbols) :
    scan combo.spelling = .ok combo := by
  have hfront : ∀ c, c ∈ (sides.filter combo.modifiers.shows).flatMap
        (fun c => [c, c]) ↔ c ∈ sides ∧ combo.modifiers.shows c = true := by
    intro c
    simp [List.mem_flatMap]
  apply scan_append hcombo hkey hfront
  rw [sidesQualify_append (fun c hc => ((hfront c).mp hc).1)
    (not_mem_sides_of_mem_behindSides hkey)]
  intro hodd
  simp [List.length_flatMap] at hodd

/-- What stands behind the sides is a symbol or the key. -/
theorem mem_of_mem_behindSides {c : Char} (hc : c ∈ combo.behindSides) :
    c ∈ Modifier.symbols ∨ c ∈ combo.key := by
  cases List.mem_append.mp hc with
  | inl hplain =>
    exact .inl (mem_symbols.mpr (.inr (List.mem_of_mem_filter hplain)))
  | inr hkey => exact .inr (Option.mem_toList.mp hkey)

/-- A spelling consists of symbols and of the key. -/
theorem mem_of_mem_spelling {c : Char} (hc : c ∈ combo.spelling) :
    c ∈ Modifier.symbols ∨ c ∈ combo.key := by
  cases List.mem_append.mp hc with
  | inl hfront =>
    obtain ⟨side, hside, hmem⟩ := List.mem_flatMap.mp hfront
    obtain rfl : c = side := by simpa using hmem
    exact .inl (mem_symbols.mpr (.inl (List.mem_of_mem_filter hside)))
  | inr hbehind => exact mem_of_mem_behindSides hbehind

/-! ### Each side once -/

/-- The sides of a set in symbols, Left before Right. -/
theorem filter_shows_sides (s : ModifierSet) :
    sides.filter s.shows
      = (if s.has .left then ['<'] else [])
        ++ if s.has .right then ['>'] else [] := by
  have hleft : s.shows '<' = s.has .left := rfl
  have hright : s.shows '>' = s.has .right := rfl
  rw [sides, List.filter_cons, List.filter_cons, hleft, hright]
  cases s.has .left <;> cases s.has .right <;> rfl

/-- A set shows no plain symbol exactly when it has none of the modifiers
that a side could qualify. -/
theorem filter_shows_plainSymbols_eq_nil_iff (s : ModifierSet) :
    plainSymbols.filter s.shows = []
      ↔ [Modifier.win, .alt, .ctrl, .shift, .wildcard, .dontBlock,
          .useHook].any s.has = false := by
  have hany : [Modifier.win, .alt, .ctrl, .shift, .wildcard, .dontBlock,
      .useHook].any s.has = plainSymbols.any s.shows := rfl
  rw [hany, List.filter_eq_nil_iff, List.any_eq_false]

/-- A side is lonely when it is the only one and no plain symbol is
shown. -/
theorem lonelySide?_eq_some_iff {side : Char} :
    combo.lonelySide? = some side
      ↔ sides.filter combo.modifiers.shows = [side]
        ∧ plainSymbols.filter combo.modifiers.shows = [] := by
  rw [Combo.lonelySide?, filter_shows_sides,
    filter_shows_plainSymbols_eq_nil_iff]
  cases [Modifier.win, .alt, .ctrl, .shift, .wildcard, .dontBlock,
    .useHook].any combo.modifiers.has <;>
  cases combo.modifiers.has .left <;>
  cases combo.modifiers.has .right <;> simp

/-- In symbols a combo begins with its sides, once each. -/
theorem symbols_eq_append (combo : Combo) :
    combo.symbols
      = sides.filter combo.modifiers.shows ++ combo.behindSides := by
  rw [Combo.symbols, ModifierSet.symbols_eq, List.append_assoc]
  rfl

/-- The symbols of a combo are symbols, apart from its key. -/
theorem mem_of_mem_symbols {c : Char} (hc : c ∈ combo.symbols) :
    c ∈ Modifier.symbols ∨ c ∈ combo.key := by
  rw [symbols_eq_append] at hc
  cases List.mem_append.mp hc with
  | inl hfront =>
    exact .inl (mem_symbols.mpr (.inl (List.mem_of_mem_filter hfront)))
  | inr hbehind => exact mem_of_mem_behindSides hbehind

/-- A side that no symbol follows is refused. -/
theorem scan_side_cons {side : Char} (hside : side ∈ sides)
    {rest : List Char} (hrest : ∀ c ∈ rest.head?, c ∉ Modifier.symbols) :
    scan (side :: rest) = .error (.danglingSide side 0) :=
  Stuck.scanFrom_eq (.danglingSide hside hrest)

/-- The symbols of a combo are read as the combo, unless it has a side
with nothing to qualify, which then is their first character. -/
theorem scan_symbols (hcombo : combo.modifiers.OfSymbols)
    (hkey : ∀ c ∈ combo.key, c ∉ Modifier.symbols) :
    scan combo.symbols
      = match combo.lonelySide? with
        | none => .ok combo
        | some side => .error (.danglingSide side 0) := by
  rw [symbols_eq_append]
  cases hlonely : combo.lonelySide? with
  | none =>
    have hfront : ∀ c, c ∈ sides.filter combo.modifiers.shows
        ↔ c ∈ sides ∧ combo.modifiers.shows c = true :=
      fun _ => List.mem_filter
    apply scan_append hcombo hkey hfront
    rw [sidesQualify_append (fun c hc => ((hfront c).mp hc).1)
      (not_mem_sides_of_mem_behindSides hkey)]
    intro hodd
    -- An odd number of sides is one side. It is not lonely, so there is a
    -- plain symbol, and the first of them follows it.
    have hlength : (sides.filter combo.modifiers.shows).length ≤ 2 :=
      List.length_filter_le _ _
    obtain ⟨side, hside⟩ := List.length_eq_one_iff.mp
      (by omega : (sides.filter combo.modifiers.shows).length = 1)
    cases hplain : plainSymbols.filter combo.modifiers.shows with
    | nil =>
      rw [lonelySide?_eq_some_iff.mpr ⟨hside, hplain⟩] at hlonely
      cases hlonely
    | cons c plain =>
      have hc : c ∈ plainSymbols.filter combo.modifiers.shows := by
        rw [hplain]
        exact List.mem_cons_self
      refine ⟨c, ?_, List.mem_of_mem_filter hc⟩
      rw [Combo.behindSides, hplain]
      rfl
  | some side =>
    -- The side stands alone in front of the key or of the end.
    obtain ⟨hside, hplain⟩ := lonelySide?_eq_some_iff.mp hlonely
    have hmem : side ∈ sides.filter combo.modifiers.shows := by
      rw [hside]
      exact List.mem_cons_self
    rw [hside, Combo.behindSides, hplain]
    apply scan_side_cons (List.mem_of_mem_filter hmem)
    intro c hc
    apply hkey
    cases hkey' : combo.key with
    | none => simp [hkey'] at hc
    | some key => simpa [hkey'] using hc

end

/-! ### What every combo that is read is like -/

section
variable {half : List Char} {combo : Combo}

/-- Only modifiers that have a symbol are ever read. -/
theorem ofSymbols_of_scan (h : scan half = .ok combo) :
    combo.modifiers.OfSymbols := by
  obtain ⟨-, -, hmodifiers⟩ := scan_eq_ok_iff_held.mp h
  intro i hbit
  rw [hmodifiers, ModifierSet.getLsbD_holdAll_empty] at hbit
  obtain ⟨m, hm, hplace⟩ := hbit
  obtain ⟨c, -, hsymbol⟩ := mem_held.mp hm
  exact ⟨(c, m), ofSymbol?_eq_some_iff.mp hsymbol, hplace⟩

/-- The key is the character of the half that is no symbol. -/
theorem key_eq_some_iff (h : scan half = .ok combo) {c : Char} :
    combo.key = some c ↔ c ∈ half ∧ c ∉ Modifier.symbols := by
  obtain ⟨-, hkeys, -⟩ := scan_eq_ok_iff_held.mp h
  rw [← mem_keys, ← hkeys, Option.mem_toList]

/-- The key of a combo that was read stands in the half and is no
symbol. -/
theorem mem_of_scan (h : scan half = .ok combo) :
    ∀ c ∈ combo.key, c ∈ half ∧ c ∉ Modifier.symbols :=
  fun _ hc => (key_eq_some_iff h).mp hc

/-- A half with a character in it has a modifier or a key. -/
theorem ne_empty_of_scan (h : scan half = .ok combo) (hne : half ≠ []) :
    combo.modifiers ≠ ∅ ∨ combo.key ≠ none := by
  obtain ⟨-, -, hmodifiers⟩ := scan_eq_ok_iff_held.mp h
  obtain ⟨c, hc⟩ := List.exists_mem_of_ne_nil half hne
  -- Any character of the half will do: it is the key, or it stands for a
  -- modifier.
  cases hsymbol : Modifier.ofSymbol? c with
  | none =>
    right
    intro hnone
    have hkey := (key_eq_some_iff h).mpr
      ⟨hc, ofSymbol?_eq_none_iff.mp hsymbol⟩
    rw [hnone] at hkey
    cases hkey
  | some m =>
    left
    intro hempty
    have hbit := (ModifierSet.getLsbD_holdAll_empty (held half) m.place).mpr
      ⟨m, mem_held.mpr ⟨c, hc, hsymbol⟩, rfl⟩
    rw [← hmodifiers, hempty, ModifierSet.bits_empty] at hbit
    simp at hbit

end

end Half

end HotkeyScript
