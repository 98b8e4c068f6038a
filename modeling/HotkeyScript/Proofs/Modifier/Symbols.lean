import HotkeyScript.Modifier
import Mathlib.Data.List.Basic

/-!
# `HotkeyScript.Proofs.Modifier.Symbols`: symbols and their bits

A half of a declaration is read symbol by symbol, and each symbol adds
one bit to a set. This file says which characters are symbols, without
the table of `Modifier.symbolTable`, and which bits a list of modifiers
adds up to.

* `ofSymbol?_eq_some_iff` / `ofSymbol?_eq_none_iff`: the table read as
  a set of pairs. A character stands for no modifier exactly when it is
  none of the nine `symbols`.
* `mem_symbols_of_ofSymbol?`: the modifiers that qualify another are
  those of `<` and `>`.
* `getLsbD_holdAll`: the bits of a set after some modifiers have been
  added are its own bits and theirs. `holdAll_congr` and
  `holdAll_eq_union` follow, bit by bit.
* `has_iff_getLsbD`: a set has a modifier when it has the modifier's bit.
* `OfSymbols`: the sets without any other bit.
* `symbols_eq`: how a set is written, as a filter over the symbols.
-/

set_option autoImplicit false

namespace HotkeyScript

namespace Modifier

/-- The symbols that qualify the symbol after them. -/
def sides : List Char := ['<', '>']

/-- The symbols that stand by themselves. -/
def plainSymbols : List Char := ['#', '!', '^', '+', '*', '~', '$']

/-- The nine symbols of declarations. -/
def symbols : List Char := sides ++ plainSymbols

/-- A symbol stands for the modifier that the table gives it. No symbol
is in the table twice, so looking it up is membership. -/
theorem ofSymbol?_eq_some_iff {c : Char} {m : Modifier} :
    ofSymbol? c = some m ↔ (c, m) ∈ symbolTable := by
  constructor
  · intro h
    obtain ⟨before, after, heq, -⟩ := List.lookup_eq_some_iff.mp h
    rw [heq]
    simp
  -- No symbol is there twice, so each entry is the one that is found.
  · have hall : ∀ entry ∈ symbolTable,
        ofSymbol? entry.1 = some entry.2 := by decide
    intro h
    exact hall (c, m) h

/-- What stands for a modifier is a symbol, and one of `sides` exactly
when the modifier is a side. -/
theorem mem_symbols_of_ofSymbol? {c : Char} {m : Modifier}
    (h : ofSymbol? c = some m) :
    c ∈ symbols ∧ (m.isSide = true ↔ c ∈ sides) := by
  have hall : ∀ entry ∈ symbolTable,
      entry.1 ∈ symbols
        ∧ (entry.2.isSide = true ↔ entry.1 ∈ sides) := by decide
  exact hall (c, m) (ofSymbol?_eq_some_iff.mp h)

/-- The characters without a modifier are those that are no symbol. -/
theorem ofSymbol?_eq_none_iff {c : Char} :
    ofSymbol? c = none ↔ c ∉ symbols := by
  -- Every symbol is in the table, which is decided symbol by symbol.
  have hall : symbols.all (fun c => (ofSymbol? c).isSome) = true := by
    decide
  constructor
  · intro h hmem
    have hsome := List.all_eq_true.mp hall c hmem
    rw [h] at hsome
    cases hsome
  · intro hmem
    cases hc : ofSymbol? c with
    | none => rfl
    | some m => exact absurd (mem_symbols_of_ofSymbol? hc).1 hmem

/-- The bit of a modifier is set at its place and nowhere else. -/
theorem getLsbD_bit (m : Modifier) (i : Nat) :
    m.bit.getLsbD i = decide (m.place = i) := by
  -- Within the word, so that no bit is shifted out.
  have hplace : m.place ≤ 10 := by cases m <;> decide
  unfold bit
  simp only [BitVec.getLsbD_shiftLeft, BitVec.getLsbD_one]
  grind

end Modifier

namespace ModifierSet

/-- A set is its word of bits and nothing else. -/
theorem bits_inj {s t : ModifierSet} : s.bits = t.bits ↔ s = t := by
  cases s
  cases t
  exact (mk.injEq ..).symm.to_iff

/-- The set with some more modifiers. -/
def holdAll (s : ModifierSet) (ms : List Modifier) : ModifierSet :=
  ms.foldl (fun s m => s ∪ .single m) s

/-- No more modifiers leave the set as it is. -/
@[simp] theorem holdAll_nil (s : ModifierSet) : s.holdAll [] = s := rfl

/-- The modifiers join one by one, the first one first. -/
@[simp] theorem holdAll_cons (s : ModifierSet) (m : Modifier)
    (ms : List Modifier) :
    s.holdAll (m :: ms) = (s ∪ .single m).holdAll ms := rfl

/-- No bit is lost and none added: a bit of the larger set is one of
the set or the bit of one of the modifiers. -/
theorem getLsbD_holdAll (s : ModifierSet) (ms : List Modifier) (i : Nat) :
    (s.holdAll ms).bits.getLsbD i = true
      ↔ s.bits.getLsbD i = true ∨ ∃ m ∈ ms, m.place = i := by
  -- The set grows on the way, so the induction is for every set.
  induction ms generalizing s with
  | nil => simp
  | cons m ms ih =>
      have hbit : (single m).bits.getLsbD i = decide (m.place = i) :=
        m.getLsbD_bit i
      rw [holdAll_cons, ih, bits_union, BitVec.getLsbD_or, hbit]
      simp only [Bool.or_eq_true, decide_eq_true_eq, List.mem_cons,
        exists_eq_or_imp, or_assoc]

/-- The bits of some modifiers are theirs and no others. -/
theorem getLsbD_holdAll_empty (ms : List Modifier) (i : Nat) :
    ((∅ : ModifierSet).holdAll ms).bits.getLsbD i = true
      ↔ ∃ m ∈ ms, m.place = i := by
  rw [getLsbD_holdAll, bits_empty]
  simp

/-- Sets with the same bits are the same. -/
theorem eq_of_getLsbD_iff {s t : ModifierSet}
    (h : ∀ i, s.bits.getLsbD i = true ↔ t.bits.getLsbD i = true) :
    s = t := by
  apply bits_inj.mp
  apply BitVec.eq_of_getLsbD_eq
  intro i _
  exact Bool.eq_iff_iff.mpr (h i)

/-- The order in which modifiers are added does not matter, and neither
does how often one is. -/
theorem holdAll_congr {ms ns : List Modifier}
    (h : ∀ m, m ∈ ms ↔ m ∈ ns) :
    (∅ : ModifierSet).holdAll ms = (∅ : ModifierSet).holdAll ns := by
  apply eq_of_getLsbD_iff
  intro i
  simp only [getLsbD_holdAll_empty, h]

/-- The modifiers of a list are added to a set all at once. -/
theorem holdAll_eq_union (s : ModifierSet) (ms : List Modifier) :
    s.holdAll ms = s ∪ (∅ : ModifierSet).holdAll ms := by
  apply eq_of_getLsbD_iff
  intro i
  rw [getLsbD_holdAll, bits_union, BitVec.getLsbD_or, Bool.or_eq_true,
    getLsbD_holdAll_empty]

/-! ### The symbols of a set -/

/-- A set has a modifier when the bit at its place is set. -/
theorem has_iff_getLsbD {s : ModifierSet} {m : Modifier} :
    s.has m = true ↔ s.bits.getLsbD m.place = true := by
  have hbit : (single m).bits = m.bit := rfl
  rw [has, includes, beq_iff_eq, hbit]
  constructor
  -- The word has the modifier's whole bit pattern exactly when it has the
  -- one bit of it.
  · intro h
    have hplace := congrArg (BitVec.getLsbD · m.place) h
    simpa [Modifier.getLsbD_bit] using hplace
  · intro h
    apply BitVec.eq_of_getLsbD_eq
    intro i _
    rw [BitVec.getLsbD_and, Modifier.getLsbD_bit]
    by_cases hi : m.place = i
    · subst hi
      rw [h, Bool.true_and]
    · simp [hi]

/-- Every bit of the set is that of a modifier with a symbol. -/
def OfSymbols (s : ModifierSet) : Prop :=
  ∀ i, s.bits.getLsbD i = true →
    ∃ entry ∈ Modifier.symbolTable, entry.2.place = i

/-- Whether the character is the symbol of a modifier in the set. -/
def shows (s : ModifierSet) (c : Char) : Bool :=
  (Modifier.ofSymbol? c).any s.has

/-- The symbol of an entry is shown when the set has its modifier. -/
theorem shows_of_mem_symbolTable (s : ModifierSet)
    {entry : Char × Modifier} (hentry : entry ∈ Modifier.symbolTable) :
    s.shows entry.1 = s.has entry.2 := by
  rw [shows, Modifier.ofSymbol?_eq_some_iff.mpr hentry, Option.any_some]

/-- To choose entries by their modifiers is to choose symbols by what the
set shows, also among some of the entries only. -/
theorem map_fst_filter_has (s : ModifierSet)
    (p : Char × Modifier → Bool) :
    ((Modifier.symbolTable.filter fun entry => s.has entry.2).filter p).map
        (·.1)
      = ((Modifier.symbolTable.filter p).map (·.1)).filter s.shows := by
  -- Both sides choose twice. Once the order is the same, they test each
  -- entry of the table for the same thing.
  rw [List.filter_map, List.filter_comm]
  congr 1
  apply List.filter_congr
  intro entry hmem
  exact (s.shows_of_mem_symbolTable (List.mem_of_mem_filter hmem)).symm

/-- The symbols of a set, those of `<` and `>` in front. -/
theorem symbols_eq (s : ModifierSet) :
    s.symbols
      = Modifier.sides.filter s.shows
        ++ Modifier.plainSymbols.filter s.shows := by
  -- The table itself has the sides and the plain symbols in their order.
  have hsides : (Modifier.symbolTable.filter (·.2.isSide)).map (·.1)
      = Modifier.sides := by decide
  have hplain : (Modifier.symbolTable.filter (!·.2.isSide)).map (·.1)
      = Modifier.plainSymbols := by decide
  rw [symbols, List.map_append, map_fst_filter_has, map_fst_filter_has,
    hsides, hplain]

end ModifierSet

end HotkeyScript
