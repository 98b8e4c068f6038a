/-!
# `HotkeyScript.Modifier`: modifiers and sets of them

A hotkey is a key together with the modifiers that have to be held
with it, such as `^` for Ctrl. Nine modifiers have a symbol; AltGr and
Up have none, so no declaration names them.

* `Modifier`: the eleven modifiers, with their symbols and names.
* `ModifierSet`: a set of modifiers as a word of sixteen bits. Bits
  that stand for no modifier are kept, so that a set read from
  elsewhere is written back as it was.
* `ModifierSet.symbols`: the set in symbols, `<` and `>` first, since
  they qualify the modifier that follows them.
* `ModifierSet.names`: the set in words.
-/

set_option autoImplicit false

namespace HotkeyScript

/-- What may be asked of a keyboard besides the key itself. -/
inductive Modifier where
  /-- The Windows logo key. -/
  | win
  /-- The Alt key. -/
  | alt
  /-- The Control key. -/
  | ctrl
  /-- The Shift key. -/
  | shift
  /-- The AltGr key. -/
  | altGr
  /-- The key on the left of a pair. -/
  | left
  /-- The key on the right of a pair. -/
  | right
  /-- Fire also while other modifiers are held. -/
  | wildcard
  /-- Let the key reach the active window as well. -/
  | dontBlock
  /-- Watch for the key with the keyboard hook. -/
  | useHook
  /-- Fire when the key is released. -/
  | up
  deriving DecidableEq, Repr

namespace Modifier

/-- Every modifier, in the order of its bit. -/
def all : List Modifier :=
  [win, alt, ctrl, shift, altGr, left, right, wildcard, dontBlock,
   useHook, up]

/-- The place of a modifier's bit in a set. -/
def place : Modifier → Nat
  | win => 0
  | alt => 1
  | ctrl => 2
  | shift => 3
  | altGr => 4
  | left => 5
  | right => 6
  | wildcard => 7
  | dontBlock => 8
  | useHook => 9
  | up => 10

/-- A modifier's bit in a set. -/
def bit (m : Modifier) : BitVec 16 :=
  1#16 <<< m.place

/-- Left and Right say which key of a pair is meant, so in a
declaration they stand before another modifier. -/
def isSide : Modifier → Bool
  | left | right => true
  | _ => false

/-- The symbols of declarations and what they stand for. -/
def symbolTable : List (Char × Modifier) :=
  [('#', win), ('!', alt), ('^', ctrl), ('+', shift), ('<', left),
   ('>', right), ('*', wildcard), ('~', dontBlock), ('$', useHook)]

/-- The modifier that a symbol stands for. -/
def ofSymbol? (c : Char) : Option Modifier :=
  symbolTable.lookup c

/-- Every modifier, in the order in which a description names it. -/
def namingOrder : List Modifier :=
  [left, right, win, alt, ctrl, shift, altGr, wildcard, dontBlock,
   useHook, up]

/-- The name of a modifier in a description. -/
def name : Modifier → String
  | win => "Win"
  | alt => "Alt"
  | ctrl => "Ctrl"
  | shift => "Shift"
  | altGr => "AltGr"
  | left => "Left"
  | right => "Right"
  | wildcard => "Wildcard"
  | dontBlock => "DontBlock"
  | useHook => "UseHook"
  | up => "Up"

end Modifier

/-- A set of modifiers: the bit at `m.place` says whether `m` is in
it. -/
structure ModifierSet where
  /-- The word that holds the set. -/
  bits : BitVec 16
  deriving DecidableEq, Repr

namespace ModifierSet

/-- The set without any modifier. -/
def empty : ModifierSet := ⟨0#16⟩

instance : EmptyCollection ModifierSet := ⟨empty⟩

instance : Inhabited ModifierSet := ⟨empty⟩

/-- The set of one modifier. -/
def single (m : Modifier) : ModifierSet := ⟨m.bit⟩

instance : Union ModifierSet := ⟨fun s t => ⟨s.bits ||| t.bits⟩⟩

instance : Inter ModifierSet := ⟨fun s t => ⟨s.bits &&& t.bits⟩⟩

instance : SDiff ModifierSet := ⟨fun s t => ⟨s.bits &&& ~~~t.bits⟩⟩

/-- What is in exactly one of two sets. -/
def symmDiff (s t : ModifierSet) : ModifierSet := ⟨s.bits ^^^ t.bits⟩

/-- The set of every modifier. -/
def full : ModifierSet :=
  Modifier.all.foldl (fun s m => s ∪ single m) ∅

/-- The modifiers outside a set. -/
def complement (s : ModifierSet) : ModifierSet := full \ s

/-- Whether every bit of `t` is set in `s`. -/
def includes (s t : ModifierSet) : Bool := s.bits &&& t.bits == t.bits

/-- Whether some bit is set in both. -/
def meets (s t : ModifierSet) : Bool := s.bits &&& t.bits != 0#16

/-- Whether a modifier is in the set. -/
def has (s : ModifierSet) (m : Modifier) : Bool := s.includes (single m)

/-- Whether the set says Left or Right. -/
def isSided (s : ModifierSet) : Bool :=
  s.meets (single .left ∪ single .right)

/-- The symbols of the set: `<` and `>` first, then the others in the
order of the table. -/
def symbols (s : ModifierSet) : List Char :=
  let present := Modifier.symbolTable.filter fun entry => s.has entry.2
  (present.filter (·.2.isSide) ++ present.filter (!·.2.isSide)).map (·.1)

/-- The set in symbols. -/
def display (s : ModifierSet) : String := String.ofList s.symbols

/-- The names of the modifiers in the set. -/
def names (s : ModifierSet) : List String :=
  (Modifier.namingOrder.filter s.has).map Modifier.name

/-! ### The words behind the set operations -/

/-- A union has the bits of both sets. -/
@[simp] theorem bits_union (s t : ModifierSet) :
    (s ∪ t).bits = s.bits ||| t.bits := rfl

/-- An intersection has the bits that both sets have. -/
@[simp] theorem bits_inter (s t : ModifierSet) :
    (s ∩ t).bits = s.bits &&& t.bits := rfl

/-- A difference has the bits of the first set that the second one
lacks. -/
@[simp] theorem bits_sdiff (s t : ModifierSet) :
    (s \ t).bits = s.bits &&& ~~~t.bits := rfl

/-- The empty set has no bit. -/
@[simp] theorem bits_empty : (∅ : ModifierSet).bits = 0#16 := rfl

/-- The eleven modifiers fill the low eleven bits. -/
theorem bits_full : full.bits = 0x07FF#16 := by decide

end ModifierSet

end HotkeyScript
