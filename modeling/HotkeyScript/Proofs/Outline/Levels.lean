import HotkeyScript.Outline.Traversal
import HotkeyScript.Proofs.Outline.WellFormed

/-!
# `HotkeyScript.Proofs.Outline.Levels`: the levels of an outline

The nodes of an outline lie in levels. Level 0 is the root, and the next
level has the children of one level, those of its first node first. This
file relates the levels, which are read off the children, to the depth
of a node, which is read off the parents.

* `mem_level_iff`: a level has the nodes of one depth. A node has one
  depth, so no two levels share a node, and none is deeper than it has
  nodes before it, so there are no more levels than nodes.
* `levels_perm_handles`: the levels together have every node once.
* `pairwise_depth_levels`: their nodes stand in the order of depth.
* `levelsFrom_level`: `levelsFrom` lists the levels in a row.
-/

set_option autoImplicit false

namespace HotkeyScript.Outline

/-- The nodes of one level, from the left. -/
def level (outline : Outline) : Nat → List Handle
  | 0 => [root]
  | depth + 1 => (outline.level depth).flatMap outline.children

/-- The number of nodes above a node. -/
def depth (outline : Outline) (handle : Handle) : Nat :=
  match outline.parentAt? handle with
  | none => 0
  | some parent =>
    -- A parent that comes later is met in no tree. The test is there for
    -- the recursion to end without knowing so.
    if parent.index < handle.index then outline.depth parent + 1 else 0
termination_by handle.index

namespace WellFormed

variable {outline : Outline}

/-! ### The depth of a node -/

/-- The root has nothing above it. -/
theorem depth_root (h : outline.WellFormed) :
    outline.depth Outline.root = 0 := by
  rw [depth, h.parentAt?_root]

/-- A parent comes before its children, which is why every chain of
parents ends at the root. -/
theorem index_lt_of_mem_children (h : outline.WellFormed)
    {handle parent : Handle} (hmem : handle ∈ outline.children parent) :
    parent.index < handle.index := by
  have hne := h.ne_root_of_mem_children hmem
  have hlt := h.lt_of_mem_children hmem
  obtain ⟨above, -, habove, -, hindex⟩ := h.exists_parentAt? hne hlt
  rw [h.mem_children_iff.mp hmem] at habove
  rwa [Option.some.inj habove]

/-- A child is deeper than its parent by one. -/
theorem depth_of_mem_children (h : outline.WellFormed)
    {handle parent : Handle} (hmem : handle ∈ outline.children parent) :
    outline.depth handle = outline.depth parent + 1 := by
  rw [depth, h.mem_children_iff.mp hmem]
  exact if_pos (h.index_lt_of_mem_children hmem)

/-- Every node but the root is a child of an earlier node. -/
theorem exists_mem_children (h : outline.WellFormed) {handle : Handle}
    (hne : handle ≠ Outline.root)
    (hlt : handle.index < outline.nodes.size) :
    ∃ parent, parent.index < outline.nodes.size
      ∧ handle ∈ outline.children parent := by
  obtain ⟨parent, -, hparent, -, hindex⟩ := h.exists_parentAt? hne hlt
  exact ⟨parent, Nat.lt_trans hindex hlt, h.mem_children_iff.mpr hparent⟩

/-- The nodes above a node come before it. -/
theorem depth_le_index (h : outline.WellFormed) {handle : Handle}
    (hlt : handle.index < outline.nodes.size) :
    outline.depth handle ≤ handle.index := by
  -- The parent stands at any earlier place, so the induction is a strong
  -- one.
  induction hindex : handle.index using Nat.strongRecOn
    generalizing handle with
  | ind index ih =>
    subst hindex
    by_cases hroot : handle = Outline.root
    · rw [hroot, h.depth_root]
      exact Nat.zero_le _
    · -- The node above is less deep by one, and comes before.
      obtain ⟨parent, hparent, hmem⟩ := h.exists_mem_children hroot hlt
      have hbefore := h.index_lt_of_mem_children hmem
      have hdepth := ih parent.index hbefore hparent rfl
      rw [h.depth_of_mem_children hmem]
      omega

/-! ### The nodes of a level -/

/-- A level has the nodes of one depth, all of them. -/
theorem mem_level_iff (h : outline.WellFormed) {handle : Handle}
    {depth : Nat} :
    handle ∈ outline.level depth
      ↔ handle.index < outline.nodes.size
        ∧ outline.depth handle = depth := by
  induction depth generalizing handle with
  | zero =>
    rw [level, List.mem_singleton]
    constructor
    · rintro rfl
      exact ⟨h.size_pos, h.depth_root⟩
    · rintro ⟨hlt, hzero⟩
      by_contra hroot
      obtain ⟨parent, -, hmem⟩ := h.exists_mem_children hroot hlt
      rw [h.depth_of_mem_children hmem] at hzero
      cases hzero
  | succ depth ih =>
    -- A node of the next level is the child of one of this level.
    rw [level, List.mem_flatMap]
    constructor
    · rintro ⟨parent, hparent, hmem⟩
      refine ⟨h.lt_of_mem_children hmem, ?_⟩
      rw [h.depth_of_mem_children hmem, (ih.mp hparent).2]
    · rintro ⟨hlt, hdepth⟩
      have hroot : handle ≠ Outline.root := by
        rintro rfl
        rw [h.depth_root] at hdepth
        cases hdepth
      obtain ⟨parent, hparent, hmem⟩ := h.exists_mem_children hroot hlt
      rw [h.depth_of_mem_children hmem] at hdepth
      exact ⟨parent, ih.mpr ⟨hparent, Nat.succ.inj hdepth⟩, hmem⟩

/-- There are no more levels than nodes, so the walk through as many
levels leaves nothing out. -/
theorem level_eq_nil (h : outline.WellFormed) {depth : Nat}
    (hdepth : outline.nodes.size ≤ depth) : outline.level depth = [] := by
  rw [List.eq_nil_iff_forall_not_mem]
  intro handle hmem
  obtain ⟨hlt, rfl⟩ := h.mem_level_iff.mp hmem
  have hle := h.depth_le_index hlt
  omega

/-- No node stands in a level twice. -/
theorem nodup_level (h : outline.WellFormed) (depth : Nat) :
    (outline.level depth).Nodup := by
  induction depth with
  | zero => exact List.nodup_singleton Outline.root
  | succ depth ih => exact h.nodup_flatMap_children ih

/-! ### All levels -/

/-- No node stands in the levels twice. -/
theorem nodup_levels (h : outline.WellFormed) (count : Nat) :
    ((List.range count).flatMap outline.level).Nodup := by
  rw [List.nodup_flatMap]
  refine ⟨fun depth _ => h.nodup_level depth,
    List.nodup_range.imp ?_⟩
  -- A node of two levels would have two depths.
  intro depth other hne handle hmem hother
  exact hne ((h.mem_level_iff.mp hmem).2.symm.trans
    (h.mem_level_iff.mp hother).2)

/-- Every node lies in one level, and once. -/
theorem levels_perm_handles (h : outline.WellFormed) :
    ((List.range outline.nodes.size).flatMap outline.level).Perm
      outline.handles := by
  have hhandles : outline.handles.Nodup :=
    nodup_of_pairwise_index outline.pairwise_handles
  rw [List.perm_ext_iff_of_nodup (h.nodup_levels _) hhandles]
  intro handle
  simp only [List.mem_flatMap, List.mem_range, h.mem_level_iff, mem_handles]
  constructor
  · rintro ⟨depth, -, hlt, -⟩
    exact hlt
  · intro hlt
    exact ⟨outline.depth handle,
      Nat.lt_of_le_of_lt (h.depth_le_index hlt) hlt, hlt, rfl⟩

/-- The nodes of the levels in a row stand in the order of depth. -/
theorem pairwise_depth_levels (h : outline.WellFormed) (count : Nat) :
    ((List.range count).flatMap outline.level).Pairwise
      (outline.depth · ≤ outline.depth ·) := by
  rw [List.pairwise_flatMap]
  -- Within one level the depths are equal, and of two levels the first
  -- one is the upper.
  constructor
  · intro depth _
    apply List.pairwise_of_forall_mem_list
    intro handle hmem other hother
    exact Nat.le_of_eq ((h.mem_level_iff.mp hmem).2.trans
      (h.mem_level_iff.mp hother).2.symm)
  · refine List.pairwise_lt_range.imp ?_
    intro upper lower hlt handle hmem other hother
    rw [(h.mem_level_iff.mp hmem).2, (h.mem_level_iff.mp hother).2]
    exact Nat.le_of_lt hlt

end WellFormed

/-- Some levels in a row, from one level on. -/
theorem levelsFrom_level (outline : Outline) (count depth : Nat) :
    outline.levelsFrom count (outline.level depth)
      = (List.range' depth count).flatMap outline.level := by
  induction count generalizing depth with
  | zero => rfl
  | succ count ih =>
    rw [levelsFrom, List.range'_succ, List.flatMap_cons]
    exact congrArg _ (ih (depth + 1))

/-- The level order is all levels, the root's first. -/
theorem levelOrder_eq (outline : Outline) :
    outline.levelOrder
      = (List.range outline.nodes.size).flatMap outline.level := by
  rw [List.range_eq_range']
  exact outline.levelsFrom_level outline.nodes.size 0

end HotkeyScript.Outline
