import HotkeyScript.Json.Members
import HotkeyScript.Modifier.Listing
import HotkeyScript.Report

/-!
# `HotkeyScript.Record`: the JSON form of statements and reports

Statements are written as JSON records for other programs and read
back from them.

* A modifier set is a string, a list of flags.
* A combo has the fields `modifiers` and `key`, a key being a string of
  one character or `null`.
* A comment has the field `text`; a hotkey has `text`, `first` and
  `second`, where `second` is `null` unless it is a chord.
* A statement is its comment or hotkey with one more member, `kind`,
  which stands first when it is written and anywhere when it is read.
* A report has the field `lines`, and a line has `number`, `kind` and
  `text`. Reports are only written.

A missing `key` or `second` is read as `null`.
-/

set_option autoImplicit false

namespace HotkeyScript

open Json (Value)

/-! ### Writing -/

/-- A modifier set as a value. -/
def ModifierSet.toJson (s : ModifierSet) : Value :=
  .ofString s.listing

/-- A combo as a value. -/
def Combo.toJson (combo : Combo) : Value :=
  .record
    [("modifiers", combo.modifiers.toJson),
     ("key",
      match combo.key with
      | some key => .ofString (String.singleton key)
      | none => .null)]

/-- The members that write a comment. -/
def Comment.members (comment : Comment) : List (String × Value) :=
  [("text", .ofString comment.text)]

/-- The members that write a hotkey. -/
def Hotkey.members (hotkey : Hotkey) : List (String × Value) :=
  [("text", .ofString hotkey.text),
   ("first", hotkey.first.toJson),
   ("second",
    match hotkey.second with
    | some second => second.toJson
    | none => .null)]

/-- A comment as a value. -/
def Comment.toJson (comment : Comment) : Value := .record comment.members

/-- A hotkey as a value. -/
def Hotkey.toJson (hotkey : Hotkey) : Value := .record hotkey.members

/-- A statement as a value. -/
def Statement.toJson : Statement → Value
  | .comment c => .record (("kind", .ofString "comment") :: c.members)
  | .hotkey h => .record (("kind", .ofString "hotkey") :: h.members)

/-- A line of a report as a value. -/
def Report.Line.toJson (line : Report.Line) : Value :=
  .record
    [("number", .ofNat line.number),
     ("kind", .ofString line.verdict.word),
     ("text", .ofString line.text)]

/-- A report as a value. -/
def Report.toJson (report : Report) : Value :=
  .record [("lines", .array (report.lines.toList.map Line.toJson))]

/-! ### Reading -/

/-- The modifier set that a value writes. -/
def ModifierSet.ofJson? (value : Value) : Option ModifierSet :=
  value.text?.bind ModifierSet.ofListing?

/-- The key that a value writes. -/
def Combo.keyOfJson? (value : Value) : Option Char :=
  match value.text?.map String.toList with
  | some [key] => some key
  | _ => none

/-- The combo that a value writes. -/
def Combo.ofJson? (value : Value) : Option Combo :=
  match value.fields? ["modifiers", "key"] with
  | some [some modifiers, key] => do
    let modifiers ← ModifierSet.ofJson? modifiers
    let key ← Json.readOptional? Combo.keyOfJson? key
    return ⟨modifiers, key⟩
  | _ => none

/-- The comment that a value writes. -/
def Comment.ofJson? (value : Value) : Option Comment :=
  match value.fields? ["text"] with
  | some [some text] => text.text?.map Comment.mk
  | _ => none

/-- The hotkey that a value writes. -/
def Hotkey.ofJson? (value : Value) : Option Hotkey :=
  match value.fields? ["text", "first", "second"] with
  | some [some text, some first, second] => do
    let text ← text.text?
    let first ← Combo.ofJson? first
    let second ← Json.readOptional? Combo.ofJson? second
    return ⟨text, first, second⟩
  | _ => none

/-- The statement of a kind that a value without the kind writes. -/
def Statement.ofKind? (kind : String) (value : Value) :
    Option Statement :=
  if kind = "comment" then (Comment.ofJson? value).map .comment
  else if kind = "hotkey" then (Hotkey.ofJson? value).map .hotkey
  else none

/-- The statement that a value writes. What the members stand for is
only known once the kind has been found, so the value is held as a
whole. In an array the kind comes first. -/
def Statement.ofJson? (value : Value) : Option Statement :=
  if !value.isBounded then none
  else
    match value with
    | .object members =>
      -- Exactly one member says the kind; a second one is refused even
      -- if it says the same.
      match members.filter (·.1 == some "kind") with
      | [(_, .string (some kind))] =>
        Statement.ofKind? kind
          (.object (members.filter (·.1 != some "kind")))
      | _ => none
    | .array (.string (some kind) :: fields) =>
      Statement.ofKind? kind (.array fields)
    | _ => none

end HotkeyScript
