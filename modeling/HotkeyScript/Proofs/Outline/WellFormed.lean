import HotkeyScript.Proofs.Outline.Graft
import Mathlib.Data.List.Nodup

/-!
# `HotkeyScript.Proofs.Outline.WellFormed`: an outline is a tree

Every edge of an outline is stored twice, in the list of children of its
upper node and as the parent of its lower node. `WellFormed` is the
invariant that keeps the two in step: the children of a node are the
handles whose parent it is, in the order of the handles. A parent comes
before its children, so there is no cycle.

* `WellFormed.graft`: an insertion under a node keeps the invariant.
  `WellFormed.apply` and `WellFormed.applyAll` carry it through edits
  and runs of edits.
* `WellFormed.isTree`: what the invariant says of the stored tree.
* `Inserted`: what an insertion does, node by node.
* `isTree_and_apply_after_edits`: after any edits, the refused ones among
  them, the outline is a tree with one statement for each edit that was
  not refused, and it answers the next edit as documented.
-/

set_option autoImplicit false

namespace HotkeyScript.Outline

/-- The invariant of the edits. -/
structure WellFormed (outline : Outline) : Prop where
  root : outline.contentAt? root = some .root
  entry : ∀ handle, handle ≠ Outline.root →
    handle.index < outline.nodes.size →
    ∃ parent statement,
      outline.contentAt? handle = some (.entry parent statement)
        ∧ parent.index < handle.index
  children : ∀ handle, outline.children handle
    = outline.handles.filter (outline.parentAt? · = some handle)

/-! ### Reading the content of a node -/

section
variable {outline : Outline} {handle : Handle}

/-- What stands for an entry has the parent and the statement of that
entry. -/
theorem reads_of_entry {parent : Handle} {statement : Statement}
    (h : outline.contentAt? handle = some (.entry parent statement)) :
    outline.parentAt? handle = some parent
      ∧ outline.statementAt? handle = some statement := by
  obtain ⟨node, hnode, hcontent⟩ := Option.map_eq_some_iff.mp h
  rw [parentAt?, statementAt?, hnode]
  simp [Node.parent?, Node.statement?, hcontent]

/-- The top of an outline has neither a parent nor a statement. -/
theorem reads_of_root
    (h : outline.contentAt? handle = some .root) :
    outline.parentAt? handle = none
      ∧ outline.statementAt? handle = none := by
  obtain ⟨node, hnode, hcontent⟩ := Option.map_eq_some_iff.mp h
  rw [parentAt?, statementAt?, hnode]
  simp [Node.parent?, Node.statement?, hcontent]

/-- Only a handle behind the last node stands for nothing. -/
theorem contentAt?_eq_none_iff :
    outline.contentAt? handle = none
      ↔ outline.nodes.size ≤ handle.index := by
  rw [contentAt?, Option.map_eq_none_iff, node?_eq_none_iff]

/-- No node stands above a handle that names none. -/
theorem parentAt?_eq_none_of_le
    (h : outline.nodes.size ≤ handle.index) :
    outline.parentAt? handle = none := by
  rw [parentAt?, node?_eq_none_iff.mpr h]
  rfl

end

/-! ### The invariant and one edit -/

/-- The outline of no statement is a tree of one node. -/
theorem wellFormed_empty : WellFormed ∅ where
  root := rfl
  entry handle hne hlt := by
    have hzero : handle.index = 0 := Nat.lt_one_iff.mp hlt
    exact absurd (congrArg Handle.mk hzero) hne
  children handle := by
    have hnil : (∅ : Outline).children handle = [] := by
      obtain ⟨i⟩ := handle
      cases i with
      | zero => rfl
      | succ i => exact children_eq_nil_of_le (Nat.le_add_left 1 i)
    rw [hnil]
    rfl

namespace WellFormed

variable {outline : Outline}

/-- There is a node, since there is a root. -/
theorem size_pos (h : outline.WellFormed) : 0 < outline.nodes.size := by
  have hsome := h.root
  by_cases hsize : outline.nodes.size ≤ Outline.root.index
  · rw [contentAt?_eq_none_iff.mpr hsize] at hsome
    cases hsome
  · exact Nat.lt_of_not_le hsize

/-- An insertion under a node adds one edge, at both of its ends. -/
theorem graft (h : outline.WellFormed) {parent : Handle}
    (statement : Statement) (hparent : parent.index < outline.nodes.size) :
    (outline.graft parent statement).WellFormed where
  root := by
    have hne : Outline.root ≠ outline.next := ne_next_of_lt h.size_pos
    rw [contentAt?_graft hparent, if_neg hne]
    exact h.root
  entry handle hne hlt := by
    rw [contentAt?_graft hparent]
    by_cases hnext : handle = outline.next
    · subst hnext
      exact ⟨parent, statement, if_pos rfl, hparent⟩
    · rw [if_neg hnext]
      exact h.entry handle hne (lt_of_lt_graft hlt hnext)
  children handle := by
    -- The old handles keep their parents, and the new one comes last.
    have hold : outline.handles.filter
          ((outline.graft parent statement).parentAt? · = some handle)
        = outline.handles.filter (outline.parentAt? · = some handle) := by
      apply List.filter_congr
      intro other hother
      have hne : other ≠ outline.next :=
        ne_next_of_lt (mem_handles.mp hother)
      rw [parentAt?_graft hparent, if_neg hne]
    rw [children_graft hparent, h.children, handles_graft,
      List.filter_append, hold]
    congr 1
    rw [List.filter_singleton, parentAt?_graft hparent, if_pos rfl]
    -- The new handle is a child of the one node that was asked for.
    by_cases hp : handle = parent
    · simp [hp]
    · simp [hp, Ne.symm hp]

/-- An edit that is not refused is an insertion under a node. `add` is one
under the root, which is always there. -/
theorem apply (h : outline.WellFormed) (edit : Edit) :
    (outline.apply edit).2.WellFormed := by
  cases edit with
  | add statement => exact h.graft statement h.size_pos
  | addUnder parent statement =>
    by_cases hparent : parent.index < outline.nodes.size
    · rw [apply_addUnder_of_lt statement hparent]
      exact h.graft statement hparent
    · rw [apply_addUnder_of_le statement (Nat.le_of_not_lt hparent)]
      exact h

/-- A run of edits keeps the invariant, the refused ones among them. -/
theorem applyAll (h : outline.WellFormed) (edits : List Edit) :
    (outline.applyAll edits).2.WellFormed := by
  induction edits generalizing outline with
  | nil => exact h
  | cons edit edits ih => exact ih (h.apply edit)

end WellFormed

/-! ### The tree that is stored -/

/-- An outline as a tree, read off its nodes. -/
structure IsTree (outline : Outline) : Prop where
  /-- There is a node, and the first one alone is the root. -/
  size_pos : 0 < outline.nodes.size
  isRoot_iff : ∀ handle node, outline.node? handle = some node →
    (node.isRoot = true ↔ handle = root)
  /-- The root has nothing above it and no statement. -/
  root_parent : outline.parentAt? root = none
  root_statement : outline.statementAt? root = none
  /-- Every other node has a statement and an earlier node above it. -/
  parent : ∀ handle, handle ≠ root → handle.index < outline.nodes.size →
    ∃ parent statement, outline.parentAt? handle = some parent
      ∧ outline.statementAt? handle = some statement
      ∧ parent.index < handle.index
  /-- It is the child of one node, once, and that node is its parent. -/
  count_children : ∀ handle, handle ≠ root →
    handle.index < outline.nodes.size →
    (outline.handles.flatMap outline.children).count handle = 1
  mem_children_iff : ∀ handle parent,
    handle ∈ outline.children parent ↔ outline.parentAt? handle = some parent
  /-- Children stand in the order of their handles, and are nodes. -/
  children_increasing : ∀ parent,
    (outline.children parent).Pairwise (·.index < ·.index)
  children_lt : ∀ parent handle, handle ∈ outline.children parent →
    handle.index < outline.nodes.size

/-- The handles stand in the order of their places. -/
theorem pairwise_handles (outline : Outline) :
    outline.handles.Pairwise (·.index < ·.index) := by
  rw [handles, List.pairwise_map]
  exact List.pairwise_lt_range

/-- In the order of places no handle stands twice. -/
theorem nodup_of_pairwise_index {handles : List Handle}
    (h : handles.Pairwise (·.index < ·.index)) : handles.Nodup :=
  h.imp fun hlt heq => Nat.ne_of_lt hlt (congrArg Handle.index heq)

namespace WellFormed

variable {outline : Outline}

/-- Nothing stands above the root. -/
theorem parentAt?_root (h : outline.WellFormed) :
    outline.parentAt? Outline.root = none :=
  (reads_of_root h.root).1

/-- The root says nothing. -/
theorem statementAt?_root (h : outline.WellFormed) :
    outline.statementAt? Outline.root = none :=
  (reads_of_root h.root).2

/-- Every node but the root says something and stands under an earlier
node. -/
theorem exists_parentAt? (h : outline.WellFormed) {handle : Handle}
    (hne : handle ≠ Outline.root) (hlt : handle.index < outline.nodes.size) :
    ∃ parent statement, outline.parentAt? handle = some parent
      ∧ outline.statementAt? handle = some statement
      ∧ parent.index < handle.index := by
  obtain ⟨parent, statement, hcontent, hindex⟩ := h.entry handle hne hlt
  obtain ⟨hparent, hstatement⟩ := reads_of_entry hcontent
  exact ⟨parent, statement, hparent, hstatement, hindex⟩

/-- The two ends of an edge agree: a node is in the list of children of
its parent, and in no other. -/
theorem mem_children_iff (h : outline.WellFormed) {handle parent : Handle} :
    handle ∈ outline.children parent
      ↔ outline.parentAt? handle = some parent := by
  rw [h.children, List.mem_filter, decide_eq_true_iff, mem_handles]
  constructor
  · exact And.right
  · intro hparent
    -- What has a parent is a node.
    refine ⟨Nat.lt_of_not_le fun hle => ?_, hparent⟩
    rw [parentAt?_eq_none_of_le hle] at hparent
    cases hparent

/-- Whatever is listed as a child names a node. -/
theorem lt_of_mem_children (h : outline.WellFormed) {handle parent : Handle}
    (hmem : handle ∈ outline.children parent) :
    handle.index < outline.nodes.size := by
  rw [h.children, List.mem_filter] at hmem
  exact mem_handles.mp hmem.1

/-- The root is nobody's child. -/
theorem ne_root_of_mem_children (h : outline.WellFormed)
    {handle parent : Handle} (hmem : handle ∈ outline.children parent) :
    handle ≠ Outline.root := by
  rintro rfl
  rw [h.mem_children_iff, h.parentAt?_root] at hmem
  cases hmem

/-- Children stand in the order in which they were added. -/
theorem children_increasing (h : outline.WellFormed) (parent : Handle) :
    (outline.children parent).Pairwise (·.index < ·.index) := by
  rw [h.children]
  exact outline.pairwise_handles.filter _

/-- No child is listed twice. -/
theorem nodup_children (h : outline.WellFormed) (parent : Handle) :
    (outline.children parent).Nodup :=
  nodup_of_pairwise_index (h.children_increasing parent)

/-- No node is a child twice, of one node or of two. -/
theorem nodup_flatMap_children (h : outline.WellFormed)
    {parents : List Handle} (hparents : parents.Nodup) :
    (parents.flatMap outline.children).Nodup := by
  rw [List.nodup_flatMap]
  refine ⟨fun parent _ => h.nodup_children parent, hparents.imp ?_⟩
  -- A node of two lists would have two parents.
  intro parent other hne handle hmem hother
  rw [h.mem_children_iff] at hmem hother
  rw [hmem] at hother
  exact hne (Option.some.inj hother)

/-- Every node but the root is listed as a child once, over all nodes. -/
theorem count_children (h : outline.WellFormed) {handle : Handle}
    (hne : handle ≠ Outline.root) (hlt : handle.index < outline.nodes.size) :
    (outline.handles.flatMap outline.children).count handle = 1 := by
  have hnodup : (outline.handles.flatMap outline.children).Nodup :=
    h.nodup_flatMap_children (nodup_of_pairwise_index outline.pairwise_handles)
  apply List.count_eq_one_of_mem hnodup
  -- The node is in the list of its own parent, which is a node.
  obtain ⟨parent, -, hparent, -, hindex⟩ := h.exists_parentAt? hne hlt
  rw [List.mem_flatMap]
  exact ⟨parent, mem_handles.mpr (Nat.lt_trans hindex hlt),
    h.mem_children_iff.mpr hparent⟩

/-- Only the first node is the top of the outline. -/
theorem isRoot_iff (h : outline.WellFormed) {handle : Handle} {node : Node}
    (hnode : outline.node? handle = some node) :
    node.isRoot = true ↔ handle = Outline.root := by
  have hcontent : outline.contentAt? handle = some node.content := by
    rw [contentAt?, hnode]
    rfl
  -- The content of a node says whether it is the root, and only the first
  -- node has that content.
  by_cases hroot : handle = Outline.root
  · rw [hroot, h.root] at hcontent
    simp [Node.isRoot, hroot, ← Option.some.inj hcontent]
  · have hlt := lt_of_node?_eq_some hnode
    obtain ⟨parent, statement, hentry, -⟩ := h.entry handle hroot hlt
    rw [hentry] at hcontent
    simp [Node.isRoot, hroot, ← Option.some.inj hcontent]

/-- What the invariant says is that an outline is a tree. -/
theorem isTree (h : outline.WellFormed) : outline.IsTree where
  size_pos := h.size_pos
  isRoot_iff _ _ hnode := h.isRoot_iff hnode
  root_parent := h.parentAt?_root
  root_statement := h.statementAt?_root
  parent _ hne hlt := h.exists_parentAt? hne hlt
  count_children _ hne hlt := h.count_children hne hlt
  mem_children_iff _ _ := h.mem_children_iff
  children_increasing := h.children_increasing
  children_lt _ _ hmem := h.lt_of_mem_children hmem

end WellFormed

/-! ### The answers -/

/-- What an insertion under `parent` does to the nodes. -/
structure Inserted (before after : Outline) (parent : Handle)
    (statement : Statement) : Prop where
  size : after.size = before.size + 1
  fresh : before.node? ⟨before.size + 1⟩ = none
  new : after.node? ⟨before.size + 1⟩ = some ⟨.entry parent statement, #[]⟩
  upper : ∃ content children,
    before.node? parent = some ⟨content, children⟩
      ∧ after.node? parent
        = some ⟨content, children.push ⟨before.size + 1⟩⟩
  other : ∀ handle, handle ≠ ⟨before.size + 1⟩ → handle ≠ parent →
    after.node? handle = before.node? handle

namespace WellFormed

variable {outline : Outline}

/-- There is one node more than there are statements, and that is the
root. -/
theorem size_nodes (h : outline.WellFormed) :
    outline.nodes.size = outline.size + 1 := by
  have hpos := h.size_pos
  show outline.nodes.size = outline.nodes.size - 1 + 1
  omega

/-- The next handle is one more than there are statements. -/
theorem next_eq (h : outline.WellFormed) :
    outline.next = ⟨outline.size + 1⟩ := by
  rw [next, h.size_nodes]

/-- An insertion under a node is as `Inserted` says. -/
theorem inserted_graft (h : outline.WellFormed) {parent : Handle}
    (statement : Statement) (hparent : parent.index ≤ outline.size) :
    Inserted outline (outline.graft parent statement) parent statement := by
  have hsize := h.size_nodes
  have hlt : parent.index < outline.nodes.size := by omega
  have hne : parent ≠ outline.next := ne_next_of_lt hlt
  have hnode (handle : Handle) :
      (outline.graft parent statement).node? handle = _ :=
    node?_graft hlt handle
  -- The new node has the next handle, so that `hnode` tells of each node
  -- of the outline that results.
  rw [h.next_eq] at hne hnode
  refine ⟨?_, ?_, ?_, ?_, ?_⟩
  · show (outline.graft parent statement).nodes.size - 1 = _
    rw [size_nodes_graft]
    omega
  · exact node?_eq_none_iff.mpr (Nat.le_of_eq hsize)
  · rw [hnode, if_pos rfl]
  · obtain ⟨node, hsome⟩ := exists_node?_of_lt hlt
    refine ⟨node.content, node.children, hsome, ?_⟩
    rw [hnode, if_neg hne, if_pos rfl, hsome]
    rfl
  · intro handle hnext hp
    rw [hnode, if_neg hnext, if_neg hp]

/-- An edit adds one statement, or is refused. -/
theorem size_apply (h : outline.WellFormed) (edit : Edit) :
    (outline.apply edit).2.size
      = outline.size + if (outline.apply edit).1.isOk then 1 else 0 := by
  have hsize := h.size_nodes
  cases edit with
  | add statement =>
    have hroot : Outline.root.index ≤ outline.size := Nat.zero_le _
    exact (h.inserted_graft statement hroot).size
  | addUnder parent statement =>
    by_cases hparent : parent.index ≤ outline.size
    · have hlt : parent.index < outline.nodes.size := by omega
      rw [apply_addUnder_of_lt statement hlt]
      exact (h.inserted_graft statement hparent).size
    · rw [apply_addUnder_of_le statement (by omega)]
      rfl

/-- The statements are counted by the edits that were not refused. -/
theorem size_applyAll (h : outline.WellFormed) (edits : List Edit) :
    (outline.applyAll edits).2.size
      = outline.size + (outline.applyAll edits).1.countP (·.isOk) := by
  induction edits generalizing outline with
  | nil => rfl
  | cons edit edits ih =>
    -- The first edit with its answer, and then the others with theirs.
    show ((outline.apply edit).2.applyAll edits).2.size
      = outline.size + List.countP (·.isOk)
        ((outline.apply edit).1 :: ((outline.apply edit).2.applyAll edits).1)
    rw [ih (h.apply edit), h.size_apply edit, List.countP_cons]
    omega

/-- An addition without a parent is one under the root. -/
theorem apply_add (h : outline.WellFormed) (statement : Statement) :
    outline.apply (.add statement)
      = outline.apply (.addUnder Outline.root statement) := by
  have hroot : Outline.root.index < outline.nodes.size := h.size_pos
  rw [apply_addUnder_of_lt statement hroot]
  rfl

/-- Beyond the last node an addition is refused. -/
theorem apply_addUnder_of_size_lt (h : outline.WellFormed) {parent : Handle}
    (statement : Statement) (hparent : outline.size < parent.index) :
    outline.apply (.addUnder parent statement)
      = (.error ⟨parent⟩, outline) := by
  apply apply_addUnder_of_le
  rw [h.size_nodes]
  exact hparent

/-- Under the root or any other node, an addition is answered with the
next handle. -/
theorem apply_addUnder_of_le_size (h : outline.WellFormed) {parent : Handle}
    (statement : Statement) (hparent : parent.index ≤ outline.size) :
    outline.apply (.addUnder parent statement)
      = (.ok ⟨outline.size + 1⟩, outline.graft parent statement) := by
  rw [← h.next_eq]
  apply apply_addUnder_of_lt
  rw [h.size_nodes]
  exact Nat.lt_succ_of_le hparent

end WellFormed

/-- What is true of an outline after any edits: it is a tree, its
statements are counted by the edits that were answered with a handle,
and the next edit is refused, changing nothing, or inserts one node. -/
theorem isTree_and_apply_after_edits (edits : List Edit) :
    let run := (∅ : Outline).applyAll edits
    let outline := run.2
    outline.IsTree
      ∧ outline.nodes.size = outline.size + 1
      ∧ outline.size = run.1.countP (·.isOk)
      ∧ (∀ statement, outline.apply (.add statement)
          = outline.apply (.addUnder root statement))
      ∧ ∀ parent statement,
        let after := outline.apply (.addUnder parent statement)
        ((∃ refusal, after.1 = .error refusal) ↔ outline.size < parent.index)
          ∧ (outline.size < parent.index →
              after.1 = .error ⟨parent⟩ ∧ after.2 = outline)
          ∧ (parent.index ≤ outline.size →
              after.1 = .ok ⟨outline.size + 1⟩
                ∧ Inserted outline after.2 parent statement) := by
  intro run outline
  have h : outline.WellFormed := wellFormed_empty.applyAll edits
  have hcount : outline.size = 0 + run.1.countP (·.isOk) :=
    wellFormed_empty.size_applyAll edits
  rw [Nat.zero_add] at hcount
  refine ⟨h.isTree, h.size_nodes, hcount, h.apply_add, ?_⟩
  intro parent statement after
  -- Whether the parent is a node decides the answer.
  by_cases hparent : parent.index ≤ outline.size
  · have hafter : after = _ := h.apply_addUnder_of_le_size statement hparent
    have hnot : ¬ outline.size < parent.index := Nat.not_lt_of_le hparent
    rw [hafter]
    refine ⟨⟨?_, fun hlt => absurd hlt hnot⟩, fun hlt => absurd hlt hnot,
      fun _ => ⟨rfl, h.inserted_graft statement hparent⟩⟩
    rintro ⟨refusal, herror⟩
    cases herror
  · have hlt : outline.size < parent.index := Nat.lt_of_not_le hparent
    have hafter : after = _ := h.apply_addUnder_of_size_lt statement hlt
    rw [hafter]
    exact ⟨⟨fun _ => hlt, fun _ => ⟨_, rfl⟩⟩, fun _ => ⟨rfl, rfl⟩,
      fun hle => absurd hle hparent⟩

end HotkeyScript.Outline
