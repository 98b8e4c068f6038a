import HotkeyScript.Proofs.Record.Presentation

/-!
# `HotkeyScript.Proofs.Record.RoundTrip`: records lose nothing

What is written as a record is read back from it, from the flags of a
modifier set up to a statement, and the text that a record is written
as holds the whole record. So two things with one text are the same.

* `ofJson?_toJson`, for each kind of record: it is read from its value, which
  is one of those that present it.
* `Lossless`: written as text and read back from that text.
* `lossless_records`: every kind of record is.
-/

set_option autoImplicit false

namespace HotkeyScript

open Json (Value)

/-! ### Records read from their values -/

/-- A set is read from the value that is written for it. -/
theorem ModifierSet.ofJson?_toJson (s : ModifierSet) :
    ModifierSet.ofJson? s.toJson = some s :=
  ofJson?_of_writtenBy s.writtenBy_toJson

/-- A combo is read from the value that is written for it. -/
theorem Combo.ofJson?_toJson (combo : Combo) :
    Combo.ofJson? combo.toJson = some combo :=
  ofJson?_of_presentedBy combo.presentedBy_toJson

/-- A comment is read from the value that is written for it, which has no
kind. -/
theorem Comment.ofJson?_toJson (comment : Comment) :
    Comment.ofJson? comment.toJson = some comment :=
  ofJson?_of_presents comment.given_members.presents

/-- A hotkey is read from the value that is written for it, which has no
kind either. -/
theorem Hotkey.ofJson?_toJson (hotkey : Hotkey) :
    Hotkey.ofJson? hotkey.toJson = some hotkey :=
  ofJson?_of_presentedBy hotkey.given_members.presents

/-- A statement is read from the value that is written for it, as the kind
of statement it is. -/
theorem Statement.ofJson?_toJson (statement : Statement) :
    ofJson? statement.toJson = some statement :=
  ofJson?_of_presentedBy statement.presentedBy_toJson

/-- The record of a combo can be read as JSON. -/
theorem Combo.isReadable_toJson (combo : Combo) :
    combo.toJson.isReadable = true :=
  isReadable_of_presentedBy combo.presentedBy_toJson

/-- The record of a hotkey can be read as JSON, since those of its combos
can. -/
theorem Hotkey.isReadable_toJson (hotkey : Hotkey) :
    hotkey.toJson.isReadable = true := by
  refine hotkey.given_members.presents.isReadable fun value hfits => ?_
  obtain hsimple | ⟨combo, hcombo⟩ := isSimple_or_combo hfits
  · exact hsimple.isReadable
  · exact Combo.isReadable_of_presentedBy (hcombo.elim id id)

/-- The record of a statement can be read as JSON. -/
theorem Statement.isReadable_toJson (statement : Statement) :
    statement.toJson.isReadable = true :=
  isReadable_of_presentedBy statement.presentedBy_toJson

/-- An array of such records can be read as JSON. It is what `list --json`
writes. -/
theorem Statement.isReadable_array (statements : List Statement) :
    (Value.array (statements.map toJson)).isReadable = true := by
  simp [Json.isReadable_array, isReadable_toJson]

/-! ### Records read from their texts -/

/-- Things are written as text on one line without loss: each of them is
read from its text, and no two have one text. -/
structure Lossless {α : Type} (write : α → Value)
    (read? : Value → Option α) : Prop where
  /-- Each thing is read from its text. -/
  readBack : ∀ a, (Value.ofText? (write a).compact).bind read? = some a
  /-- Different things have different texts. -/
  injective : Function.Injective fun a => (write a).compact

/-- What is read from its value is read from the text as well, if the text
can be read, and then no other thing has this text. -/
theorem Lossless.of_readable {α : Type} {write : α → Value}
    {read? : Value → Option α} (hread : ∀ a, read? (write a) = some a)
    (hreadable : ∀ a, (write a).isReadable = true) :
    Lossless write read? := by
  have hback (a : α) :
      (Value.ofText? (write a).compact).bind read? = some a := by
    rw [Value.ofText?_compact (hreadable a), Option.bind_some, hread]
  refine ⟨hback, ?_⟩
  -- Both things are what the one text is read as.
  intro a b htext
  have hsame : some a = some b := by
    rw [← hback a, ← hback b]
    exact congrArg (fun text => (Value.ofText? text).bind read?) htext
  exact Option.some.inj hsame

/-- Every kind of record is written without loss. -/
theorem lossless_records :
    Lossless Statement.toJson Statement.ofJson?
      ∧ Lossless Comment.toJson Comment.ofJson?
      ∧ Lossless Hotkey.toJson Hotkey.ofJson?
      ∧ Lossless Combo.toJson Combo.ofJson?
      ∧ Lossless ModifierSet.toJson ModifierSet.ofJson? := by
  refine ⟨?statement, ?comment, ?hotkey, ?combo, ?modifiers⟩
  case statement =>
    exact .of_readable Statement.ofJson?_toJson Statement.isReadable_toJson
  case comment =>
    exact .of_readable Comment.ofJson?_toJson fun _ => rfl
  case hotkey =>
    exact .of_readable Hotkey.ofJson?_toJson Hotkey.isReadable_toJson
  case combo =>
    exact .of_readable Combo.ofJson?_toJson Combo.isReadable_toJson
  case modifiers =>
    exact .of_readable ModifierSet.ofJson?_toJson fun _ => rfl

end HotkeyScript
