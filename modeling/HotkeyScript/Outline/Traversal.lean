import HotkeyScript.Outline
import HotkeyScript.Outline.Queue

/-!
# `HotkeyScript.Outline.Traversal`: walking an outline

An outline is walked breadth first from the root, with a queue of
nodes to visit and a list of the nodes that have been in it, so that
no node is visited twice.

* `Outline.order`: the nodes in the order of the walk.
* `Outline.statements`: their statements. In an outline of one level
  this is the order in which they were added.
* `Outline.contains`: whether a statement that says the same is in the
  outline. The walk stops at the first one.
* `Outline.levelOrder`: the same order without a queue, one level after
  the other.
-/

set_option autoImplicit false

namespace HotkeyScript.Outline

/-- The children of a node that have not been seen, each once. -/
def unseen (outline : Outline) (seen : List Handle) (handle : Handle) :
    List Handle :=
  ((outline.children handle).filter fun child =>
    !seen.contains child).eraseDups

/-- Walks on from the nodes in the queue, for `fuel` visits at most. -/
def visit (outline : Outline) : Nat → List Handle → Queue Handle →
    List Handle
  | 0, _, _ => []
  | fuel + 1, seen, queue =>
    match queue.pop? with
    | none => []
    | some (handle, queue) =>
      -- A node is noted when it joins the queue, not when it leaves, so
      -- it cannot join twice.
      let fresh := outline.unseen seen handle
      handle :: outline.visit fuel (fresh ++ seen) (queue.pushAll fresh)

/-- The nodes in the order of a breadth-first walk. Each node is
visited once, so there are no more visits than nodes. -/
def order (outline : Outline) : List Handle :=
  outline.visit outline.nodes.size [root] (.single root)

/-- The statements in the order of a breadth-first walk. -/
def statements (outline : Outline) : List Statement :=
  outline.order.filterMap outline.statementAt?

/-- Searches the nodes in the queue and those below them, for `fuel`
visits at most. A handle that names no node ends the search. -/
def search (outline : Outline) (query : Statement) :
    Nat → List Handle → Queue Handle → Bool
  | 0, _, _ => false
  | fuel + 1, seen, queue =>
    match queue.pop? with
    | none => false
    | some (handle, queue) =>
      match outline.node? handle with
      | none => false
      | some node =>
        if node.statement?.any (·.agrees query) then true
        else
          let fresh := outline.unseen seen handle
          outline.search query fuel (fresh ++ seen)
            (queue.pushAll fresh)

/-- Whether some statement of the outline says the same as `query`. -/
def contains (outline : Outline) (query : Statement) : Bool :=
  outline.search query outline.nodes.size [root] (.single root)

/-- The nodes of one level and of the levels below it, for `depth`
levels at most. -/
def levelsFrom (outline : Outline) : Nat → List Handle → List Handle
  | 0, _ => []
  | depth + 1, level =>
    level ++ outline.levelsFrom depth (level.flatMap outline.children)

/-- The nodes level by level: the root, its children, their children,
and so on. An outline has no more levels than nodes. -/
def levelOrder (outline : Outline) : List Handle :=
  outline.levelsFrom outline.nodes.size [root]

end HotkeyScript.Outline
