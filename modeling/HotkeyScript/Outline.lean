import HotkeyScript.Statement

/-!
# `HotkeyScript.Outline`: the statements of a script, as a tree

An outline keeps the statements of a script under one root. A script
that is read fills the first level only; a caller may nest statements
further. Nodes are only ever added, so a handle stays good and names
the same node for ever.

* `Outline.Handle`: names a node by its place in the outline. The root
  has place 0 and each new node the next place.
* `Outline.add`, `Outline.addUnder`: add a statement as the last child
  of the root or of another node.
* `Outline.size`: the number of statements.
-/

set_option autoImplicit false

namespace HotkeyScript

namespace Outline

/-- The name of a node: its place in the outline. -/
structure Handle where
  /-- The place of the node. -/
  index : Nat
  deriving DecidableEq, Repr

/-- The handle as it is shown, such as `#3`. -/
def Handle.label (handle : Handle) : String := s!"#{handle.index}"

/-- The handle of the root. -/
def root : Handle := ⟨0⟩

/-- What a node stands for. -/
inductive Content where
  /-- The top of the outline. -/
  | root
  /-- A statement and the node under which it stands. -/
  | entry (parent : Handle) (statement : Statement)
  deriving DecidableEq, Repr

/-- A node of an outline. -/
structure Node where
  /-- What the node stands for. -/
  content : Content
  /-- The nodes under it, the oldest first. -/
  children : Array Handle
  deriving DecidableEq, Repr

namespace Node

/-- Whether the node is the top of the outline. -/
def isRoot (node : Node) : Bool :=
  match node.content with
  | .root => true
  | .entry _ _ => false

/-- The node above this one. -/
def parent? (node : Node) : Option Handle :=
  match node.content with
  | .root => none
  | .entry parent _ => some parent

/-- The statement of the node. -/
def statement? (node : Node) : Option Statement :=
  match node.content with
  | .root => none
  | .entry _ statement => some statement

/-- The node with one more child, the last. -/
def withChild (node : Node) (child : Handle) : Node :=
  { node with children := node.children.push child }

end Node

end Outline

/-- A tree of statements. Its nodes stand in the order in which they
were added, the root first. -/
structure Outline where
  /-- The nodes, each at the place that its handle names. -/
  nodes : Array Outline.Node
  deriving DecidableEq, Repr

namespace Outline

/-- An addition under a node that the outline does not have. -/
structure UnknownNode where
  /-- The handle that names no node. -/
  handle : Handle
  deriving DecidableEq, Repr

/-- The refusal in words. -/
def UnknownNode.message (refusal : UnknownNode) : String :=
  "Unknown node " ++ refusal.handle.label

/-- The outline of no statement. -/
def empty : Outline := ⟨#[⟨.root, #[]⟩]⟩

instance : EmptyCollection Outline := ⟨empty⟩

instance : Inhabited Outline := ⟨empty⟩

/-- The node that a handle names. -/
def node? (outline : Outline) (handle : Handle) : Option Node :=
  outline.nodes[handle.index]?

/-- The nodes under a node; none under a handle that names no node. -/
def children (outline : Outline) (handle : Handle) : List Handle :=
  match outline.node? handle with
  | some node => node.children.toList
  | none => []

/-- The statement of a node. -/
def statementAt? (outline : Outline) (handle : Handle) :
    Option Statement :=
  (outline.node? handle).bind Node.statement?

/-- The handle that the next added node will have. -/
def next (outline : Outline) : Handle := ⟨outline.nodes.size⟩

/-- Puts a new node with this statement at the end and makes it the
last child of `parent`. -/
def graft (outline : Outline) (parent : Handle) (statement : Statement) :
    Outline :=
  let child := outline.next
  let node : Node := ⟨.entry parent statement, #[]⟩
  -- The parent is one of the nodes that were there before, so the new
  -- node does not become its own child.
  ⟨(outline.nodes.push node).modify parent.index (·.withChild child)⟩

/-- Adds a statement as the last child of the root. -/
def add (outline : Outline) (statement : Statement) : Outline :=
  outline.graft root statement

/-- Adds a statement as the last child of a node. -/
def addUnder (outline : Outline) (parent : Handle)
    (statement : Statement) : Except UnknownNode Outline :=
  match outline.node? parent with
  | some _ => .ok (outline.graft parent statement)
  | none => .error ⟨parent⟩

/-- The number of statements. -/
def size (outline : Outline) : Nat := outline.nodes.size - 1

/-- Whether the outline has no statement. -/
def isEmpty (outline : Outline) : Bool := outline.size == 0

end Outline

end HotkeyScript
