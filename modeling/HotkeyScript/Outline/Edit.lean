import HotkeyScript.Outline

/-!
# `HotkeyScript.Outline.Edit`: edits and their answers

A caller builds an outline edit by edit. An edit adds one statement and
is answered with the handle of the new node, or it names a parent that
the outline does not have and is refused.

* `Outline.apply`: one edit. A refused edit leaves the outline as it
  was.
* `Outline.applyAll`: edits in a row, the refused ones among them.
-/

set_option autoImplicit false

namespace HotkeyScript.Outline

/-- What a caller may do to an outline. -/
inductive Edit where
  /-- Add a statement as the last child of the root. -/
  | add (statement : Statement)
  /-- Add a statement as the last child of a node. -/
  | addUnder (parent : Handle) (statement : Statement)
  deriving DecidableEq, Repr

/-- The answer to an edit, and the outline after it. -/
def apply (outline : Outline) :
    Edit → Except UnknownNode Handle × Outline
  | .add statement => (.ok outline.next, outline.add statement)
  | .addUnder parent statement =>
    match outline.addUnder parent statement with
    | .ok grown => (.ok outline.next, grown)
    | .error refusal => (.error refusal, outline)

/-- The answers to some edits, in their order, and the outline after
them all. -/
def applyAll (outline : Outline) :
    List Edit → List (Except UnknownNode Handle) × Outline
  | [] => ([], outline)
  | edit :: edits =>
    let (answer, outline) := outline.apply edit
    let (answers, outline) := outline.applyAll edits
    (answer :: answers, outline)

end HotkeyScript.Outline
