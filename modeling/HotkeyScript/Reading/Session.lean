import HotkeyScript.Reading

/-!
# `HotkeyScript.Reading.Session`: readers side by side

A reader is an outline in the making, into which one text is read after
the other. A caller can have any number of readers, can copy one in the
middle of its work, and takes the outline out of a reader that is done,
which ends it.

What a caller can do with readers does not depend on what a reader is.
So a session is over any `Reader.Kind`: the readers of a program are
those of `Outline.reader`, and what is said about them can be said by a
session over something simpler.

* `Session.step`: what a caller does next. Nothing happens where there
  is no such reader.
* `Session.run`: all that a caller does, from the beginning.
-/

set_option autoImplicit false

namespace HotkeyScript

/-- What a reader is at first, and what a call makes of it. -/
structure Reader.Kind (α : Type) where
  new : α
  read : α → String → α
  tryRead : α → String → α

/-- The readers of a program. -/
def Outline.reader : Reader.Kind Outline where
  new := ∅
  read outline text := (outline.read text).1
  tryRead outline text := (outline.tryRead text).1

/-- What a caller has. -/
structure Session (α : Type) where
  /-- The readers in use. -/
  readers : List α
  /-- What was taken out of the readers that are done. -/
  finished : List α

namespace Session

/-- What a caller may do. A reader is named by its place. A text is read
for its report or for its acceptance, a copy is a new reader, and a
reader that is finished is gone. -/
inductive Action where
  | start
  | read (place : Nat) (text : String)
  | tryRead (place : Nat) (text : String)
  | copy (place : Nat)
  | finish (place : Nat)
  deriving DecidableEq, Repr

variable {α : Type}

/-- The session after one more action. -/
def step (kind : Reader.Kind α) (session : Session α) :
    Action → Session α
  | .start => { session with readers := session.readers ++ [kind.new] }
  | .read place text =>
    { session with readers :=
        session.readers.modify place (kind.read · text) }
  | .tryRead place text =>
    { session with readers :=
        session.readers.modify place (kind.tryRead · text) }
  | .copy place =>
    { session with readers :=
        session.readers ++ session.readers[place]?.toList }
  | .finish place =>
    { readers := session.readers.eraseIdx place
      finished := session.finished ++ session.readers[place]?.toList }

/-- The session after some actions, from one without readers. -/
def run (kind : Reader.Kind α) (actions : List Action) : Session α :=
  actions.foldl (step kind) ⟨[], []⟩

end Session

end HotkeyScript
