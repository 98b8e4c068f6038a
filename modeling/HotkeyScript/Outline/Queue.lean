/-!
# `HotkeyScript.Outline.Queue`: first in, first out

The queue of a breadth-first walk. It is two lists, so that joining at
the end and leaving at the front take no time to speak of.

* `Queue.toList`: the elements in the order in which they leave.
* `toList_pushAll`, `pop?_eq_none_iff`, `toList_of_pop?_eq_some`: what
  joining and leaving do to that list. A proof about a walk needs no other
  fact.
-/

set_option autoImplicit false

namespace HotkeyScript

/-- Elements that leave in the order in which they joined. -/
structure Queue (α : Type) where
  /-- The elements that leave first, in their order. -/
  front : List α
  /-- The elements that leave after them, the last one first. -/
  back : List α

namespace Queue

variable {α : Type}

/-- The elements in the order in which they leave. -/
def toList (queue : Queue α) : List α :=
  queue.front ++ queue.back.reverse

/-- The queue of one element. -/
def single (a : α) : Queue α := ⟨[a], []⟩

/-- The queue after some elements have joined at the end. -/
def pushAll (queue : Queue α) (elements : List α) : Queue α :=
  { queue with back := elements.reverse ++ queue.back }

/-- The element that leaves first, and the queue without it. -/
def pop? (queue : Queue α) : Option (α × Queue α) :=
  match queue.front with
  | a :: front => some (a, { queue with front })
  | [] =>
    match queue.back.reverse with
    | a :: front => some (a, ⟨front, []⟩)
    | [] => none

/-- The one element of a queue is the next to leave. -/
@[simp] theorem toList_single (a : α) : (single a).toList = [a] := rfl

/-- What joins leaves behind all that is there, in the order in which it
joined. -/
@[simp] theorem toList_pushAll (queue : Queue α) (elements : List α) :
    (queue.pushAll elements).toList = queue.toList ++ elements := by
  simp [pushAll, toList]

/-- No element leaves an empty queue. -/
theorem pop?_eq_none_iff (queue : Queue α) :
    queue.pop? = none ↔ queue.toList = [] := by
  unfold pop? toList
  cases queue.front with
  | cons a front => simp
  | nil => cases h : queue.back.reverse <;> simp

/-- The first element leaves, and the others stay in their order. -/
theorem toList_of_pop?_eq_some {queue rest : Queue α} {a : α}
    (h : queue.pop? = some (a, rest)) :
    queue.toList = a :: rest.toList := by
  unfold pop? at h
  unfold toList
  cases hf : queue.front with
  | cons b front =>
      simp only [hf, Option.some.injEq, Prod.mk.injEq] at h
      obtain ⟨rfl, rfl⟩ := h
      simp
  | nil =>
      cases hb : queue.back.reverse with
      | nil => simp [hf, hb] at h
      | cons b front =>
          simp only [hf, hb, Option.some.injEq, Prod.mk.injEq] at h
          obtain ⟨rfl, rfl⟩ := h
          simp

end Queue

end HotkeyScript
