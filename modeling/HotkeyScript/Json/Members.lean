import HotkeyScript.Json.Value

/-!
# `HotkeyScript.Json.Members`: the fields of a record

A record with given fields is an object or an array. The object has
the fields as members in any order; members of other names are passed
over, but a field may not occur twice. The array has every field in
its place and nothing else.

* `Value.fields?`: the fields of a record, a missing one as `none`.
* `readOptional?`: a field that may be missing or `null`.
-/

set_option autoImplicit false

namespace HotkeyScript.Json

/-- The value of the member of a name: none if there is no such member,
and no answer if there are several. -/
def member? (members : List (Option String × Value)) (name : String) :
    Option (Option Value) :=
  match members.filter (·.1 == some name) with
  | [] => some none
  | [(_, value)] => some (some value)
  | _ => none

/-- The fields of a record, in the order of `names`. -/
def Value.fields? (names : List String) :
    Value → Option (List (Option Value))
  | .object members =>
    if members.all (·.1.isSome) then names.mapM (member? members)
    else none
  | .array items =>
    if items.length = names.length then some (items.map some) else none
  | _ => none

/-- The text of a string. -/
def Value.text? : Value → Option String
  | .string text? => text?
  | _ => none

/-- Reads a field that may be missing: `null` and a missing field are
the same. -/
def readOptional? {α : Type} (read? : Value → Option α) :
    Option Value → Option (Option α)
  | none => some none
  | some .null => some none
  | some value => (read? value).map some

end HotkeyScript.Json
