import HotkeyScript.Proofs.Outline.Search

/-!
# `HotkeyScript.Proofs.Outline.Insertion`: one insertion in the listing

A new node is the last child of its parent. A walk goes level by level,
so the new node is visited behind the children of all nodes up to its
parent, and before the children of the nodes behind the parent. It has
no children, so nothing else moves.

* `level_graft_of_le`, `level_graft_succ`, `level_graft_of_lt`: the levels
  down to the parent, the next one, which has one node more, and those
  below.
* `Ahead`: the nodes that are visited before the new one, told by their
  depth and by the place of their parent in the walk.
* `ListedBetween` and `listedBetween_after_edits`: where the new statement
  is listed and what is found, after any edits.
-/

set_option autoImplicit false

namespace HotkeyScript.Outline

/-- Whether a node is visited before the next child of `parent`: it is
no deeper than `parent`, or it is deeper by one and its own parent is
visited no later than `parent`. -/
def Ahead (outline : Outline) (parent handle : Handle) : Prop :=
  outline.depth handle ≤ outline.depth parent
    ∨ outline.depth handle = outline.depth parent + 1
      ∧ ∃ above, outline.parentAt? handle = some above
        ∧ outline.order.idxOf above ≤ outline.order.idxOf parent

/-- The nodes that are visited before a place in the level behind
`depth`: those of all levels down to it, and the children of the first
nodes of that level. -/
def visitedBefore (outline : Outline) (depth : Nat) (left : List Handle) :
    List Handle :=
  (List.range (depth + 1)).flatMap outline.level
    ++ left.flatMap outline.children

/-- The nodes that are visited from there on: the children of the other
nodes of the level, and the levels below. -/
def visitedBehind (outline : Outline) (depth : Nat)
    (right : List Handle) : List Handle :=
  right.flatMap outline.children
    ++ (List.range' (depth + 2) outline.nodes.size).flatMap outline.level

/-- What one more child of `parent` does to the walk, to the listing and
to the search. It comes in between `before` and `behind`. -/
structure ListedBetween (outline after : Outline) (parent : Handle)
    (statement : Statement) (before behind : List Handle) : Prop where
  order : outline.order = before ++ behind
  order_after : after.order = before ++ outline.next :: behind
  statements : outline.statements
    = before.filterMap outline.statementAt?
      ++ behind.filterMap outline.statementAt?
  statements_after : after.statements
    = before.filterMap outline.statementAt?
      ++ statement :: behind.filterMap outline.statementAt?
  ahead : ∀ handle ∈ before, outline.Ahead parent handle
  not_ahead : ∀ handle ∈ behind, ¬ outline.Ahead parent handle
  contains : ∀ query, after.contains query
    = (outline.contains query || statement.agrees query)

section
variable {outline : Outline} {parent : Handle} {statement : Statement}

/-! ### Levels -/

/-- Only the parent has one child more, so handles without it among them
have the same children after the insertion. -/
theorem flatMap_children_graft (hparent : parent.index < outline.nodes.size)
    {handles : List Handle} (hnot : parent ∉ handles) :
    handles.flatMap (outline.graft parent statement).children
      = handles.flatMap outline.children := by
  apply List.flatMap_congr
  intro handle hmem
  have hne : handle ≠ parent := fun heq => hnot (heq ▸ hmem)
  rw [children_graft hparent, if_neg hne, List.append_nil]

namespace WellFormed

/-- The parent lies on no other level than its own. -/
theorem parent_not_mem_level (h : outline.WellFormed) {depth : Nat}
    (hdepth : depth ≠ outline.depth parent) :
    parent ∉ outline.level depth :=
  fun hmem => hdepth (h.mem_level_iff.mp hmem).2.symm

/-- Down to the level of the parent nothing changes. -/
theorem level_graft_of_le (h : outline.WellFormed)
    (hparent : parent.index < outline.nodes.size) {depth : Nat}
    (hdepth : depth ≤ outline.depth parent) :
    (outline.graft parent statement).level depth
      = outline.level depth := by
  induction depth with
  | zero => rfl
  | succ depth ih =>
    have hnot := h.parent_not_mem_level (Nat.ne_of_lt hdepth)
    rw [level, level, ih (Nat.le_of_succ_le hdepth),
      flatMap_children_graft hparent hnot]

section
variable {left right : List Handle}
  (hlevel : outline.level (outline.depth parent)
    = left ++ parent :: right)
include hlevel

/-- The next level, cut behind the children of the parent. -/
theorem level_succ_of_level_eq :
    outline.level (outline.depth parent + 1)
      = (left ++ [parent]).flatMap outline.children
        ++ right.flatMap outline.children := by
  rw [level, hlevel, ← List.flatMap_append, List.append_assoc,
    List.singleton_append]

/-- The new node comes behind the children of its parent. -/
theorem level_graft_succ (h : outline.WellFormed)
    (hparent : parent.index < outline.nodes.size) :
    (outline.graft parent statement).level (outline.depth parent + 1)
      = (left ++ [parent]).flatMap outline.children
        ++ outline.next :: right.flatMap outline.children := by
  -- The parent stands in its level once, so no other node of the level
  -- has got a child.
  have hnodup := h.nodup_level (outline.depth parent)
  rw [hlevel] at hnodup
  have hleft : parent ∉ left := fun hmem =>
    List.disjoint_of_nodup_append hnodup hmem List.mem_cons_self
  have hright : parent ∉ right :=
    (List.nodup_cons.mp hnodup.of_append_right).1
  rw [level, h.level_graft_of_le hparent (Nat.le_refl _), hlevel,
    List.flatMap_append, List.flatMap_append, List.flatMap_cons,
    List.flatMap_singleton, flatMap_children_graft hparent hleft,
    flatMap_children_graft hparent hright, children_graft hparent,
    if_pos rfl]
  simp

/-- The new node has no children, so the levels below are as they were. -/
theorem level_graft_of_lt (h : outline.WellFormed)
    (hparent : parent.index < outline.nodes.size) {depth : Nat}
    (hdepth : outline.depth parent + 1 < depth) :
    (outline.graft parent statement).level depth
      = outline.level depth := by
  -- By induction on the levels below. The first of them is that of the
  -- children of the level with the new node in it.
  induction hdepth with
  | refl =>
    have hold := h.parent_not_mem_level
      (Nat.succ_ne_self (outline.depth parent))
    have hnew : parent ≠ outline.next := ne_next_of_lt hparent
    have hnext : outline.children outline.next = [] :=
      children_eq_nil_of_le (Nat.le_refl _)
    rw [level_succ_of_level_eq hlevel] at hold
    have hnot : parent ∉ (left ++ [parent]).flatMap outline.children
        ++ outline.next :: right.flatMap outline.children := by
      rw [List.perm_middle.mem_iff, List.mem_cons, not_or]
      exact ⟨hnew, hold⟩
    rw [level, h.level_graft_succ hlevel hparent, level,
      level_succ_of_level_eq hlevel, flatMap_children_graft hparent hnot]
    simp only [List.flatMap_append, List.flatMap_cons, hnext,
      List.nil_append]
  | @step depth hdepth ih =>
    have hne : depth ≠ outline.depth parent :=
      Nat.ne_of_gt (Nat.lt_of_succ_lt hdepth)
    have hnot := h.parent_not_mem_level hne
    rw [level, level, ih, flatMap_children_graft hparent hnot]

end

/-! ### The walk -/

/-- The walk, cut at a level. Levels that are counted beyond the last one
have no nodes. -/
theorem order_eq_around (h : outline.WellFormed) {depth below : Nat}
    (hsize : outline.nodes.size ≤ depth + 2 + below) :
    outline.order
      = (List.range (depth + 1)).flatMap outline.level
        ++ (outline.level (depth + 1)
          ++ (List.range' (depth + 2) below).flatMap outline.level) := by
  -- Levels beyond the last one are empty, so any number of them may be
  -- counted.
  have hlevels : outline.order
      = (List.range (depth + 2 + below)).flatMap outline.level := by
    obtain ⟨more, hmore⟩ := Nat.exists_eq_add_of_le hsize
    rw [h.order_eq_levelOrder, levelOrder_eq, hmore, List.range_add,
      List.flatMap_append, List.self_eq_append_right,
      List.flatMap_eq_nil_iff]
    intro depth hmem
    obtain ⟨extra, -, rfl⟩ := List.mem_map.mp hmem
    exact h.level_eq_nil (Nat.le_add_right _ _)
  -- The levels above, the level behind `depth`, and those below it.
  have hrange : List.range (depth + 2 + below)
      = List.range (depth + 1)
        ++ (depth + 1) :: List.range' (depth + 2) below := by
    rw [List.range_eq_range', ← List.range'_append_1, List.range_eq_range',
      List.range'_concat]
    simp
  rw [hlevels, hrange, List.flatMap_append, List.flatMap_cons]

/-- In the levels from one depth on, nothing is less deep. -/
theorem le_depth_of_mem_levels (h : outline.WellFormed)
    {depth count : Nat} {handle : Handle}
    (hmem : handle ∈ (List.range' depth count).flatMap outline.level) :
    depth ≤ outline.depth handle := by
  obtain ⟨other, hother, hlevel⟩ := List.mem_flatMap.mp hmem
  rw [(h.mem_level_iff.mp hlevel).2]
  exact (List.mem_range'_1.mp hother).1

/-! ### The place of the new node -/

section
variable {left right : List Handle}
  (hlevel : outline.level (outline.depth parent)
    = left ++ parent :: right)
include hlevel

/-- The old walk, cut where the new node will come. -/
theorem order_eq_of_level_eq (h : outline.WellFormed) :
    outline.order
      = outline.visitedBefore (outline.depth parent) (left ++ [parent])
        ++ outline.visitedBehind (outline.depth parent) right := by
  rw [h.order_eq_around (Nat.le_add_left _ _),
    level_succ_of_level_eq hlevel, visitedBefore, visitedBehind,
    List.append_assoc, List.append_assoc]

/-- Above and below the new node, the levels are those of the old walk. -/
theorem order_graft (h : outline.WellFormed) (statement : Statement)
    (hparent : parent.index < outline.nodes.size) :
    (outline.graft parent statement).order
      = outline.visitedBefore (outline.depth parent) (left ++ [parent])
        ++ outline.next
          :: outline.visitedBehind (outline.depth parent) right := by
  -- Both outlines are cut with one count of levels, though one has a node
  -- more than the other.
  have hsize : (outline.graft parent statement).nodes.size
      ≤ outline.depth parent + 2 + outline.nodes.size := by
    rw [size_nodes_graft]
    omega
  have hupper : (List.range (outline.depth parent + 1)).flatMap
        (outline.graft parent statement).level
      = (List.range (outline.depth parent + 1)).flatMap outline.level := by
    apply List.flatMap_congr
    intro depth hdepth
    exact h.level_graft_of_le hparent
      (Nat.le_of_lt_succ (List.mem_range.mp hdepth))
  have hlower : (List.range' (outline.depth parent + 2)
        outline.nodes.size).flatMap (outline.graft parent statement).level
      = (List.range' (outline.depth parent + 2)
          outline.nodes.size).flatMap outline.level := by
    apply List.flatMap_congr
    intro depth hdepth
    exact h.level_graft_of_lt hlevel hparent
      (List.mem_range'_1.mp hdepth).1
  rw [(h.graft statement hparent).order_eq_around hsize, hupper, hlower,
    h.level_graft_succ hlevel hparent, visitedBefore, visitedBehind,
    List.append_assoc, List.append_assoc, List.cons_append]

/-- Two nodes of one level are visited as they stand there. -/
theorem idxOf_le_iff_of_mem_level (h : outline.WellFormed) {above : Handle}
    (habove : above ∈ outline.level (outline.depth parent)) :
    outline.order.idxOf above ≤ outline.order.idxOf parent
      ↔ above ∈ left ++ [parent] := by
  have hnodup := h.nodup_order
  rw [h.order_eq_around (Nat.le_add_left _ _), List.range_succ,
    List.flatMap_append, List.flatMap_singleton, hlevel, List.append_assoc,
    List.append_assoc, List.cons_append, ← List.append_assoc] at hnodup ⊢
  -- A node of this level lies in no level above it.
  have hupper : above
      ∉ (List.range (outline.depth parent)).flatMap outline.level := by
    rw [List.mem_flatMap]
    rintro ⟨depth, hdepth, hmem⟩
    have hlt := List.mem_range.mp hdepth
    rw [← (h.mem_level_iff.mp hmem).2, (h.mem_level_iff.mp habove).2] at hlt
    exact Nat.lt_irrefl _ hlt
  rw [List.idxOf_le_idxOf_iff hnodup, List.mem_append, List.mem_append,
    List.mem_singleton, or_iff_right hupper]

/-- A child of a node of that level is ahead if its parent is no later
in the level. -/
theorem ahead_iff_of_mem_children (h : outline.WellFormed)
    {above handle : Handle} (hmem : handle ∈ outline.children above)
    (habove : above ∈ outline.level (outline.depth parent)) :
    outline.Ahead parent handle ↔ above ∈ left ++ [parent] := by
  have hhandle := h.mem_children_iff.mp hmem
  have hdepth := h.depth_of_mem_children hmem
  rw [(h.mem_level_iff.mp habove).2] at hdepth
  rw [← h.idxOf_le_iff_of_mem_level hlevel habove, Ahead, hdepth]
  constructor
  · rintro (hle | ⟨-, other, hother, hidx⟩)
    · omega
    · obtain rfl := Option.some.inj (hhandle.symm.trans hother)
      exact hidx
  · exact fun hidx => .inr ⟨rfl, above, hhandle, hidx⟩

/-- All that is visited before the cut is ahead of the new node. -/
theorem ahead_of_mem_visitedBefore (h : outline.WellFormed)
    {handle : Handle}
    (hmem : handle ∈ outline.visitedBefore (outline.depth parent)
      (left ++ [parent])) : outline.Ahead parent handle := by
  cases List.mem_append.mp hmem with
  | inl hupper =>
    obtain ⟨depth, hdepth, hhandle⟩ := List.mem_flatMap.mp hupper
    left
    rw [(h.mem_level_iff.mp hhandle).2]
    exact Nat.le_of_lt_succ (List.mem_range.mp hdepth)
  | inr hchild =>
    obtain ⟨above, habove, hchild⟩ := List.mem_flatMap.mp hchild
    have hmem : above ∈ outline.level (outline.depth parent) := by
      rw [hlevel, List.append_cons]
      exact List.mem_append_left _ habove
    exact (h.ahead_iff_of_mem_children hlevel hchild hmem).mpr habove

/-- Nothing that is visited behind the cut is ahead of it. -/
theorem not_ahead_of_mem_visitedBehind (h : outline.WellFormed)
    {handle : Handle}
    (hmem : handle ∈ outline.visitedBehind (outline.depth parent) right) :
    ¬ outline.Ahead parent handle := by
  intro hahead
  cases List.mem_append.mp hmem with
  | inl hchild =>
    obtain ⟨above, habove, hchild⟩ := List.mem_flatMap.mp hchild
    have hmem : above ∈ outline.level (outline.depth parent) := by
      rw [hlevel]
      exact List.mem_append_right _ (List.mem_cons_of_mem _ habove)
    -- The parent would stand on both sides of the cut.
    have hleft := (h.ahead_iff_of_mem_children hlevel hchild hmem).mp hahead
    have hnodup := h.nodup_level (outline.depth parent)
    rw [hlevel, List.append_cons] at hnodup
    exact List.disjoint_of_nodup_append hnodup hleft habove
  | inr hlower =>
    have hlt := h.le_depth_of_mem_levels hlower
    obtain hahead | ⟨hahead, -⟩ := hahead <;> omega

/-- An insertion is listed at the cut, with all that was listed before and
behind in its old order. -/
theorem listedBetween_graft (h : outline.WellFormed) (statement : Statement)
    (hparent : parent.index < outline.nodes.size) :
    ListedBetween outline (outline.graft parent statement) parent statement
      (outline.visitedBefore (outline.depth parent) (left ++ [parent]))
      (outline.visitedBehind (outline.depth parent) right) where
  order := h.order_eq_of_level_eq hlevel
  order_after := h.order_graft hlevel statement hparent
  statements := by
    rw [Outline.statements, h.order_eq_of_level_eq hlevel,
      List.filterMap_append]
  statements_after := by
    -- The old nodes, on both sides of the new one, say what they said.
    have hlt : ∀ handle ∈ outline.order,
        handle.index < outline.nodes.size := fun _ => h.lt_of_mem_order
    rw [h.order_eq_of_level_eq hlevel, List.forall_mem_append] at hlt
    rw [Outline.statements, h.order_graft hlevel statement hparent,
      List.filterMap_append,
      List.filterMap_cons_some (statementAt?_graft_next hparent),
      filterMap_statementAt?_graft hparent hlt.1,
      filterMap_statementAt?_graft hparent hlt.2]
  ahead _ := h.ahead_of_mem_visitedBefore hlevel
  not_ahead _ := h.not_ahead_of_mem_visitedBehind hlevel
  contains query := by
    rw [(h.graft statement hparent).contains_eq_any_entries,
      entries_graft hparent, List.any_append, List.any_cons, List.any_nil,
      Bool.or_false, h.contains_eq_any_entries]

end

end WellFormed

end

/-! ### After any edits -/

/-- **One insertion in the listing.** A statement that is added under a
node is listed at one place, behind the nodes that are ahead of it. Under
the root that is the place behind the children of the root. -/
theorem listedBetween_after_edits (edits : List Edit)
    (statement : Statement) :
    let outline := ((∅ : Outline).applyAll edits).2
    (∀ parent node, outline.node? parent = some node →
        ∃ after before behind,
          outline.addUnder parent statement = .ok after
            ∧ ListedBetween outline after parent statement before behind)
      ∧ ∃ behind,
        ListedBetween outline (outline.add statement) root statement
            (root :: outline.children root) behind
          ∧ ∀ handle ∈ behind, 1 < outline.depth handle := by
  intro outline
  have h : outline.WellFormed := wellFormed_empty.applyAll edits
  constructor
  · intro parent node hnode
    have hparent := lt_of_node?_eq_some hnode
    have hmem : parent ∈ outline.level (outline.depth parent) :=
      h.mem_level_iff.mpr ⟨hparent, rfl⟩
    obtain ⟨left, right, hlevel⟩ := List.append_of_mem hmem
    refine ⟨_, _, _, ?_, h.listedBetween_graft hlevel statement hparent⟩
    rw [addUnder, hnode]
  -- The root is alone on its level.
  · have hlevel : outline.level (outline.depth root)
        = [] ++ root :: [] := by
      rw [h.depth_root]
      rfl
    have hbetween := h.listedBetween_graft hlevel statement h.size_pos
    have hbefore : outline.visitedBefore (outline.depth root)
        ([] ++ [root]) = root :: outline.children root := by
      simp [visitedBefore, h.depth_root, level]
    rw [hbefore] at hbetween
    refine ⟨_, hbetween, fun handle hmem => ?_⟩
    rw [visitedBehind, h.depth_root, List.flatMap_nil, List.nil_append]
      at hmem
    exact h.le_depth_of_mem_levels hmem

/-- A statement under the first of two others is listed behind both. -/
theorem listedBetween_after_two :
    let first : Statement := .comment ⟨";1"⟩
    let outline := ((∅ : Outline).applyAll [.add first, .add first]).2
    outline.node? ⟨1⟩ = some ⟨.entry root first, #[]⟩
      ∧ ∃ after before behind,
        outline.addUnder ⟨1⟩ first = .ok after
          ∧ ListedBetween outline after ⟨1⟩ first before behind := by
  intro first outline
  exact ⟨rfl, (listedBetween_after_edits _ first).1 ⟨1⟩ _ rfl⟩

end HotkeyScript.Outline
