import HotkeyScript.Json.Members
import HotkeyScript.Proofs.Json.Value

/-!
# `HotkeyScript.Proofs.Json.Members`: a record and its members

The members of a record keep their names as they are, and what is asked of a
record as a whole is asked of its members.

* `filter_named`, `filter_ne_named`: the members of a name and the others.
* `isReadable_record`, `isReadable_array`: whether a record or an array is
  read from its text.
* `isBoundedBy_record`, `isBoundedBy_array`: whether it can be held as a
  whole.
-/

set_option autoImplicit false

namespace HotkeyScript.Json

/-- A member whose name is a text. -/
def named (member : String × Value) : Option String × Value :=
  (some member.1, member.2)

/-- A record is an object whose members are all named by texts. -/
theorem record_eq (members : List (String × Value)) :
    Value.record members = .object (members.map named) := rfl

/-! ### Members of a name -/

/-- The members of a name are found by that name. -/
theorem filter_named (members : List (String × Value)) (name : String) :
    (members.map named).filter (·.1 == some name)
      = (members.filter (·.1 == name)).map named := by
  rw [List.filter_map]
  rfl

/-- The members of other names are those found by other names, so that
what is left when a field has been taken is again a list of named
members. -/
theorem filter_ne_named (members : List (String × Value)) (name : String) :
    (members.map named).filter (·.1 != some name)
      = (members.filter (·.1 != name)).map named := by
  rw [List.filter_map]
  rfl

/-! ### Records as a whole -/

/-- A record is read from its text if the values of its members are. -/
theorem isReadable_record (members : List (String × Value)) :
    (Value.record members).isReadable = members.all (·.2.isReadable) := by
  have hmember (member : String × Value) :
      (Value.nameValueTokens (named member)).all Token.isReadable
        = member.2.isReadable := rfl
  have hmembers :
      (Value.memberTokens (members.map named)).all Token.isReadable
        = members.all (·.2.isReadable) := by
    induction members with
    | nil => rfl
    | cons member members ih =>
      -- Only a member that is not the last has a comma after it.
      cases members with
      | nil => simp [Value.memberTokens, hmember]
      | cons next members =>
        rw [List.map_cons] at ih ⊢
        rw [List.map_cons, Value.memberTokens, List.all_append, hmember,
          List.all_cons, ih]
        rfl
  rw [record_eq, Value.isReadable, Value.tokens, List.all_cons,
    List.all_append, hmembers]
  simp [Token.isReadable]

/-- An array is read from its text if its items are. -/
theorem isReadable_array (items : List Value) :
    (Value.array items).isReadable = items.all Value.isReadable := by
  have hitems : (Value.itemTokens items).all Token.isReadable
      = items.all Value.isReadable := by
    induction items with
    | nil => rfl
    | cons item items ih =>
      -- Only an item that is not the last has a comma after it.
      cases items with
      | nil => simp [Value.itemTokens, Value.isReadable]
      | cons next items =>
        rw [Value.itemTokens, List.all_append, List.all_cons, ih,
          List.all_cons]
        rfl
  rw [Value.isReadable, Value.tokens, List.all_cons, List.all_append, hitems]
  simp [Token.isReadable]

/-- A record is held as a whole if the values of its members are, with one
container less around them. -/
theorem isBoundedBy_record (depth : Nat) (members : List (String × Value)) :
    (Value.record members).isBoundedBy (depth + 1)
      = members.all (·.2.isBoundedBy depth) := by
  have hmembers :
      Value.membersBoundedBy depth (members.map named)
        = members.all (·.2.isBoundedBy depth) := by
    induction members with
    | nil => rfl
    | cons member members ih =>
      rw [List.map_cons, Value.membersBoundedBy, ih, List.all_cons]
      rfl
  rw [record_eq, Value.isBoundedBy, Nat.add_sub_cancel, hmembers]
  simp

/-- An array is held as a whole if its items are, with one container less
around them. -/
theorem isBoundedBy_array (depth : Nat) (items : List Value) :
    (Value.array items).isBoundedBy (depth + 1)
      = items.all (·.isBoundedBy depth) := by
  have hitems : Value.areBoundedBy depth items
      = items.all (·.isBoundedBy depth) := by
    induction items with
    | nil => rfl
    | cons item items ih => rw [Value.areBoundedBy, ih, List.all_cons]
  rw [Value.isBoundedBy, Nat.add_sub_cancel, hitems]
  simp

end HotkeyScript.Json
