import HotkeyScript.Outline.Edit

/-!
# `HotkeyScript.Proofs.Outline.Graft`: one insertion

`Outline.graft` puts a node at the end of the nodes and then makes it a
child of its parent: the same edge is stored twice, in two steps, and
the second step does nothing under a parent that is no node. This file
says once what an insertion under a node does to an outline. The theory
of whole runs rests on these equations and does not open `graft`.

* `node?_graft`: every node after the insertion. The new one has no
  children, its parent has one child more, and no other node changes.
* `parentAt?_graft`, `statementAt?_graft`, `children_graft`,
  `handles_graft`: the same for the parents, statements, children and
  handles.
* `apply_addUnder_of_le`, `apply_addUnder_of_lt`: an edit is refused
  exactly under a handle behind the last node, and is an insertion
  otherwise.
-/

set_option autoImplicit false

namespace HotkeyScript.Outline

/-- The handles that name nodes, in the order of the nodes. -/
def handles (outline : Outline) : List Handle :=
  (List.range outline.nodes.size).map Handle.mk

/-- What a node stands for. -/
def contentAt? (outline : Outline) (handle : Handle) : Option Content :=
  (outline.node? handle).map Node.content

/-- The node above a node. -/
def parentAt? (outline : Outline) (handle : Handle) : Option Handle :=
  (outline.node? handle).bind Node.parent?

/-! ### Handles and nodes -/

/-- The handles of an outline are those that name a node. -/
theorem mem_handles {outline : Outline} {handle : Handle} :
    handle ∈ outline.handles ↔ handle.index < outline.nodes.size := by
  rw [handles, List.mem_map]
  constructor
  · rintro ⟨i, hi, rfl⟩
    exact List.mem_range.mp hi
  · intro h
    exact ⟨handle.index, List.mem_range.mpr h, rfl⟩

/-- A handle behind the last node names none. -/
theorem node?_eq_none_iff {outline : Outline} {handle : Handle} :
    outline.node? handle = none ↔ outline.nodes.size ≤ handle.index :=
  Array.getElem?_eq_none_iff

/-- A handle before the end of the nodes names one of them. -/
theorem exists_node?_of_lt {outline : Outline} {handle : Handle}
    (h : handle.index < outline.nodes.size) :
    ∃ node, outline.node? handle = some node :=
  ⟨outline.nodes[handle.index], Array.getElem?_eq_getElem h⟩

/-- What names a node stands before the end. -/
theorem lt_of_node?_eq_some {outline : Outline} {handle : Handle}
    {node : Node} (h : outline.node? handle = some node) :
    handle.index < outline.nodes.size :=
  (Array.getElem?_eq_some_iff.mp h).1

/-- Under a handle that names no node there is nothing. -/
theorem children_eq_nil_of_le {outline : Outline} {handle : Handle}
    (h : outline.nodes.size ≤ handle.index) :
    outline.children handle = [] := by
  rw [children, node?_eq_none_iff.mpr h]

/-- The handle of the next node is behind those of all nodes. -/
theorem ne_next_of_lt {outline : Outline} {handle : Handle}
    (h : handle.index < outline.nodes.size) : handle ≠ outline.next := by
  rintro rfl
  exact Nat.lt_irrefl _ h

/-! ### An insertion under a node -/

section
variable {outline : Outline} {parent : Handle} {statement : Statement}

/-- An insertion adds one node, under whatever parent. -/
theorem size_nodes_graft :
    (outline.graft parent statement).nodes.size
      = outline.nodes.size + 1 := by
  simp [graft]

/-- Every node but the new one was there before. -/
theorem lt_of_lt_graft {handle : Handle}
    (h : handle.index < (outline.graft parent statement).nodes.size)
    (hnext : handle ≠ outline.next) :
    handle.index < outline.nodes.size := by
  rw [size_nodes_graft] at h
  have hindex : handle.index ≠ outline.nodes.size :=
    fun heq => hnext (congrArg Handle.mk heq)
  omega

/-- Every node after an insertion: the new one, its parent with one child
more, and the others as they were. -/
theorem node?_graft (hparent : parent.index < outline.nodes.size)
    (handle : Handle) :
    (outline.graft parent statement).node? handle
      = if handle = outline.next then some ⟨.entry parent statement, #[]⟩
        else if handle = parent then
          (outline.node? parent).map (·.withChild outline.next)
        else outline.node? handle := by
  obtain ⟨i⟩ := handle
  obtain ⟨p⟩ := parent
  -- The parent was there before, so it is not the new node.
  have hne : p ≠ outline.nodes.size := Nat.ne_of_lt hparent
  simp only [graft, node?, next, Array.getElem?_modify, Array.getElem?_push,
    Handle.mk.injEq]
  by_cases hi : i = outline.nodes.size
  · subst hi
    simp [hne]
  · by_cases hp : i = p
    · subst hp
      simp [hne]
    · simp [hi, hp, Ne.symm hp]

/-- A child joins no other list of children than its parent's. -/
theorem children_graft (hparent : parent.index < outline.nodes.size)
    (handle : Handle) :
    (outline.graft parent statement).children handle
      = outline.children handle
        ++ if handle = parent then [outline.next] else [] := by
  by_cases hnext : handle = outline.next
  -- The new node has no children, and there was none under its handle.
  · have hne : handle ≠ parent := by
      rintro rfl
      exact ne_next_of_lt hparent hnext
    have hnil : outline.children handle = [] :=
      children_eq_nil_of_le (by rw [hnext]; exact Nat.le_refl _)
    rw [hnil, children, node?_graft hparent, if_pos hnext, if_neg hne]
    rfl
  · rw [children, node?_graft hparent, if_neg hnext]
    by_cases hp : handle = parent
    · subst hp
      obtain ⟨node, hnode⟩ := exists_node?_of_lt hparent
      rw [if_pos rfl, if_pos rfl, children, hnode]
      exact Array.toList_push
    · rw [if_neg hp, if_neg hp, List.append_nil, children]

/-- What a node says apart from its children is the same after an
insertion, and the new node says what it was given. -/
theorem bind_node?_graft {α : Type} (read : Node → Option α)
    (hread : ∀ node child, read (node.withChild child) = read node)
    (hparent : parent.index < outline.nodes.size) (handle : Handle) :
    ((outline.graft parent statement).node? handle).bind read
      = if handle = outline.next then read ⟨.entry parent statement, #[]⟩
        else (outline.node? handle).bind read := by
  rw [node?_graft hparent]
  by_cases hnext : handle = outline.next
  · rw [if_pos hnext, if_pos hnext]
    rfl
  · rw [if_neg hnext, if_neg hnext]
    by_cases hp : handle = parent
    · subst hp
      -- The parent has one child more, of which nothing is read.
      rw [if_pos rfl]
      cases outline.node? handle with
      | none => rfl
      | some node => exact hread node _
    · rw [if_neg hp]

/-- What a node stands for stays, and the new node is an entry under
`parent`. -/
theorem contentAt?_graft (hparent : parent.index < outline.nodes.size)
    (handle : Handle) :
    (outline.graft parent statement).contentAt? handle
      = if handle = outline.next then some (.entry parent statement)
        else outline.contentAt? handle := by
  rw [contentAt?, contentAt?, Option.map_eq_bind, Option.map_eq_bind]
  exact bind_node?_graft (some ∘ Node.content) (fun _ _ => rfl) hparent
    handle

/-- The node above a node stays, and the new node stands under
`parent`. -/
theorem parentAt?_graft (hparent : parent.index < outline.nodes.size)
    (handle : Handle) :
    (outline.graft parent statement).parentAt? handle
      = if handle = outline.next then some parent
        else outline.parentAt? handle :=
  bind_node?_graft Node.parent? (fun _ _ => rfl) hparent handle

/-- The statement of a node stays, and the new node has the one that was
given. -/
theorem statementAt?_graft (hparent : parent.index < outline.nodes.size)
    (handle : Handle) :
    (outline.graft parent statement).statementAt? handle
      = if handle = outline.next then some statement
        else outline.statementAt? handle :=
  bind_node?_graft Node.statement? (fun _ _ => rfl) hparent handle

/-- There is one handle more, and it comes last. -/
theorem handles_graft :
    (outline.graft parent statement).handles
      = outline.handles ++ [outline.next] := by
  rw [handles, size_nodes_graft, List.range_succ, List.map_append]
  rfl

end

/-! ### Edits -/

/-- Under a handle that names no node an edit is refused, and changes
nothing. -/
theorem apply_addUnder_of_le {outline : Outline} {parent : Handle}
    (statement : Statement) (h : outline.nodes.size ≤ parent.index) :
    outline.apply (.addUnder parent statement)
      = (.error ⟨parent⟩, outline) := by
  rw [apply, addUnder, node?_eq_none_iff.mpr h]

/-- Under a node an edit is an insertion, and it is answered with the
handle of the new node. -/
theorem apply_addUnder_of_lt {outline : Outline} {parent : Handle}
    (statement : Statement) (h : parent.index < outline.nodes.size) :
    outline.apply (.addUnder parent statement)
      = (.ok outline.next, outline.graft parent statement) := by
  obtain ⟨node, hnode⟩ := exists_node?_of_lt h
  rw [apply, addUnder, hnode]

end HotkeyScript.Outline
