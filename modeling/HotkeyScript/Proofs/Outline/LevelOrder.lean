import HotkeyScript.Proofs.Outline.Entries
import HotkeyScript.Proofs.Outline.Flat
import HotkeyScript.Proofs.Outline.Levels

/-!
# `HotkeyScript.Proofs.Outline.LevelOrder`: the walk goes level by level

The queue of the walk holds the rest of one level and then the children
of the nodes of that level that have been visited. So a walk that starts
with a level in its queue visits that level, and then has the next one
in its queue.

* `walkFrom_append`: a walk visits what is in its queue, and the
  children of all that come behind.
* `walkFrom_levelsFrom`: a walk through some levels, one after the other.
* `Visits`: the walk without a bound on the number of its visits, as a
  relation that holds only if the walk ends. `visits_iff_eq_order`: it
  ends, and has then visited what the bounded walk visits.
* `ListsByLevel` and `listsByLevel_after_edits`: what is listed, and in
  which order, after any edits.
-/

set_option autoImplicit false

namespace HotkeyScript.Outline

/-- Where the walk from a queue ends, with no bound on its visits: it
visits these nodes. -/
inductive Visits (outline : Outline) :
    List Handle → Queue Handle → List Handle → Prop where
  | done {seen : List Handle} {queue : Queue Handle}
      (hpop : queue.pop? = none) : Visits outline seen queue []
  | visit {seen handles : List Handle} {queue rest : Queue Handle}
      {handle : Handle} (hpop : queue.pop? = some (handle, rest))
      (hrest : Visits outline (outline.unseen seen handle ++ seen)
        (rest.pushAll (outline.unseen seen handle)) handles) :
      Visits outline seen queue (handle :: handles)

section
variable {outline : Outline}

/-! ### Level by level -/

/-- A walk first visits what is in its queue. Meanwhile the children of
all these join behind. -/
theorem walkFrom_append (outline : Outline) (fuel : Nat)
    (level queue : List Handle) :
    outline.walkFrom (level.length + fuel) (level ++ queue)
      = level ++ outline.walkFrom fuel
          (queue ++ level.flatMap outline.children) := by
  induction level generalizing queue with
  | nil => simp
  | cons handle level ih =>
    -- One visit less, and one handle less in front of the queue.
    have hlength : (handle :: level).length + fuel
        = level.length + fuel + 1 := by
      rw [List.length_cons]
      omega
    rw [hlength, List.cons_append, walkFrom, List.append_assoc, ih,
      List.append_assoc, List.flatMap_cons, List.cons_append]

/-- Behind one level the walk has the next one in its queue. -/
theorem walkFrom_level (outline : Outline) (fuel depth : Nat) :
    outline.walkFrom ((outline.level depth).length + fuel)
        (outline.level depth)
      = outline.level depth
        ++ outline.walkFrom fuel (outline.level (depth + 1)) := by
  have hwalk := outline.walkFrom_append fuel (outline.level depth) []
  rwa [List.append_nil, List.nil_append] at hwalk

/-- A walk through some levels, one after the other. -/
theorem walkFrom_levelsFrom (outline : Outline) (fuel count depth : Nat) :
    outline.walkFrom
        ((outline.levelsFrom count (outline.level depth)).length + fuel)
        (outline.level depth)
      = outline.levelsFrom count (outline.level depth)
        ++ outline.walkFrom fuel (outline.level (depth + count)) := by
  induction count generalizing depth with
  | zero =>
    show outline.walkFrom (0 + fuel) _ = _
    rw [Nat.zero_add]
    rfl
  | succ count ih =>
    have hlevels : outline.levelsFrom (count + 1) (outline.level depth)
        = outline.level depth
          ++ outline.levelsFrom count (outline.level (depth + 1)) := rfl
    have hdepth : depth + (count + 1) = depth + 1 + count := by omega
    rw [hlevels, List.length_append, Nat.add_assoc, outline.walkFrom_level,
      ih (depth + 1), List.append_assoc, hdepth]

namespace WellFormed

/-- The levels have every node once, so the order by levels is as long as
there are nodes. -/
theorem length_levelOrder (h : outline.WellFormed) :
    outline.levelOrder.length = outline.nodes.size := by
  rw [levelOrder_eq, h.levels_perm_handles.length_eq, handles,
    List.length_map, List.length_range]

/-- Visits beyond one for each node find the queue empty. -/
theorem walkFrom_root (h : outline.WellFormed) (fuel : Nat) :
    outline.walkFrom (outline.nodes.size + fuel) [Outline.root]
      = outline.levelOrder := by
  have hwalk := outline.walkFrom_levelsFrom fuel outline.nodes.size 0
  have hnil : outline.walkFrom fuel [] = [] := by cases fuel <;> rfl
  rw [Nat.zero_add, h.level_eq_nil (Nat.le_refl _), hnil,
    List.append_nil] at hwalk
  rw [← h.length_levelOrder]
  exact hwalk

/-- The walk goes level by level. -/
theorem order_eq_levelOrder (h : outline.WellFormed) :
    outline.order = outline.levelOrder := by
  rw [order_eq_walkFrom h]
  exact h.walkFrom_root 0

/-- The walk visits every node once. -/
theorem order_perm_handles (h : outline.WellFormed) :
    outline.order.Perm outline.handles := by
  rw [h.order_eq_levelOrder, levelOrder_eq]
  exact h.levels_perm_handles

/-- No node is visited twice, since none stands in the levels twice. -/
theorem nodup_order (h : outline.WellFormed) : outline.order.Nodup := by
  rw [h.order_eq_levelOrder, levelOrder_eq]
  exact h.nodup_levels _

/-- Whatever is visited is a node. -/
theorem lt_of_mem_order (h : outline.WellFormed) {handle : Handle}
    (hmem : handle ∈ outline.order) :
    handle.index < outline.nodes.size :=
  mem_handles.mp (h.order_perm_handles.subset hmem)

end WellFormed

/-! ### The walk ends -/

/-- A walk ends in one way only, since each state has one next state. -/
theorem Visits.unique {seen : List Handle} {queue : Queue Handle}
    {handles other : List Handle} (h : Visits outline seen queue handles)
    (hother : Visits outline seen queue other) : handles = other := by
  -- The queue decides which rule applies, and what has been visited
  -- decides how it goes on.
  induction h generalizing other with
  | done hpop =>
    cases hother with
    | done => rfl
    | visit hpop' => cases hpop.symm.trans hpop'
  | visit hpop _ ih =>
    cases hother with
    | done hpop' => cases hpop.symm.trans hpop'
    | visit hpop' hrest =>
      cases hpop.symm.trans hpop'
      rw [ih hrest]

/-- A bounded walk that makes fewer visits than it may has ended. -/
theorem visits_visit (outline : Outline) (fuel : Nat)
    (seen : List Handle) (queue : Queue Handle)
    (hlength : (outline.visit fuel seen queue).length < fuel) :
    Visits outline seen queue (outline.visit fuel seen queue) := by
  induction fuel generalizing seen queue with
  | zero => exact absurd hlength (Nat.not_lt_zero _)
  | succ fuel ih =>
    rw [visit] at hlength ⊢
    -- With fuel left, it ended because the queue was empty.
    cases hpop : queue.pop? with
    | none => exact .done hpop
    | some popped =>
      obtain ⟨handle, rest⟩ := popped
      simp only [hpop, List.length_cons] at hlength ⊢
      exact .visit hpop (ih _ _ (Nat.lt_of_succ_lt_succ hlength))

/-- The walk without a bound ends, after the visits of the bounded one. -/
theorem visits_iff_eq_order (h : outline.WellFormed)
    (handles : List Handle) :
    Visits outline [root] (.single root) handles
      ↔ handles = outline.order := by
  -- One visit more than there are nodes is one too many.
  have hvisit : outline.visit (outline.nodes.size + 1) [root]
      (.single root) = outline.order := by
    rw [visit_eq_walkFrom h _ _ _ (frontier_root h), Queue.toList_single,
      h.walkFrom_root 1, h.order_eq_levelOrder]
  have hends : Visits outline [root] (.single root) outline.order := by
    rw [← hvisit]
    apply visits_visit
    rw [hvisit, h.order_eq_levelOrder, h.length_levelOrder]
    exact Nat.lt_succ_self _
  constructor
  · exact fun hvisits => hvisits.unique hends
  · rintro rfl
    exact hends

/-! ### The statements -/

namespace WellFormed

/-- The listing has the statements of all nodes, in another order. -/
theorem statements_perm_entries (h : outline.WellFormed) :
    outline.statements.Perm outline.entries :=
  h.order_perm_handles.filterMap outline.statementAt?

/-- The walk begins at the root, as there is a bound of one visit at
least. -/
theorem exists_order_eq_cons (h : outline.WellFormed) :
    ∃ below, outline.order = Outline.root :: below := by
  rw [order_eq_walkFrom h, h.size_nodes]
  exact ⟨_, rfl⟩

/-- Every node but the root has one statement to list. -/
theorem map_some_filterMap_statementAt? (h : outline.WellFormed)
    {handles : List Handle}
    (hhandles : ∀ handle ∈ handles,
      handle ≠ Outline.root ∧ handle.index < outline.nodes.size) :
    (handles.filterMap outline.statementAt?).map some
      = handles.map outline.statementAt? := by
  induction handles with
  | nil => rfl
  | cons handle handles ih =>
    obtain ⟨hne, hlt⟩ := hhandles handle List.mem_cons_self
    obtain ⟨-, statement, -, hstatement, -⟩ := h.exists_parentAt? hne hlt
    rw [List.filterMap_cons_some hstatement, List.map_cons, List.map_cons,
      hstatement, ih fun other hmem =>
        hhandles other (List.mem_cons_of_mem _ hmem)]

/-- The statements are those of the nodes behind the root, one by one. -/
theorem map_some_statements (h : outline.WellFormed) :
    outline.statements.map some
      = outline.order.tail.map outline.statementAt? := by
  obtain ⟨below, horder⟩ := h.exists_order_eq_cons
  have hnodup := h.nodup_order
  rw [horder, List.nodup_cons] at hnodup
  rw [statements, horder, List.tail_cons,
    List.filterMap_cons_none h.statementAt?_root]
  apply h.map_some_filterMap_statementAt?
  intro handle hmem
  -- The root has been visited, and no node is visited twice.
  refine ⟨fun heq => hnodup.1 (heq ▸ hmem), h.lt_of_mem_order ?_⟩
  rw [horder]
  exact List.mem_cons_of_mem _ hmem

/-- There are as many in the listing as the outline counts. -/
theorem length_statements (h : outline.WellFormed) :
    outline.statements.length = outline.size := by
  have hlength := congrArg List.length h.map_some_statements
  rw [List.length_map, List.length_map, List.length_tail,
    h.order_perm_handles.length_eq, handles, List.length_map,
    List.length_range] at hlength
  exact hlength

end WellFormed

end

/-! ### The listing -/

/-- The walk of an outline and the list of its statements. -/
structure ListsByLevel (outline : Outline) : Prop where
  /-- The walk ends, after one visit to every node. -/
  visits : ∀ handles, Visits outline [root] (.single root) handles
    ↔ handles = outline.order
  perm_handles : outline.order.Perm outline.handles
  /-- It visits one level after the other, until there are no more. -/
  order : outline.order
    = (List.range outline.nodes.size).flatMap outline.level
  level_eq_nil : ∀ depth, outline.nodes.size ≤ depth →
    outline.level depth = []
  /-- The statements are those of the nodes behind the root. -/
  order_head : outline.order.head? = some root
  statements : outline.statements.map some
    = outline.order.tail.map outline.statementAt?
  length : outline.statements.length = outline.size
  /-- No node comes before one that has fewer nodes above it. -/
  pairwise_depth : outline.order.Pairwise
    (outline.depth · ≤ outline.depth ·)
  depth_root : outline.depth root = 0
  depth_child : ∀ handle parent, handle ∈ outline.children parent →
    outline.depth handle = outline.depth parent + 1

/-- Every well-formed outline is listed by its levels. -/
theorem WellFormed.listsByLevel {outline : Outline}
    (h : outline.WellFormed) : outline.ListsByLevel where
  visits := visits_iff_eq_order h
  perm_handles := h.order_perm_handles
  order := h.order_eq_levelOrder.trans outline.levelOrder_eq
  level_eq_nil _ hdepth := h.level_eq_nil hdepth
  order_head := by
    obtain ⟨below, horder⟩ := h.exists_order_eq_cons
    rw [horder, List.head?_cons]
  statements := h.map_some_statements
  length := h.length_statements
  pairwise_depth := by
    rw [h.order_eq_levelOrder, levelOrder_eq]
    exact h.pairwise_depth_levels _
  depth_root := h.depth_root
  depth_child _ _ hmem := h.depth_of_mem_children hmem

/-- Additions under the root only, as edits, are the steps in which a text
is read. -/
theorem applyAll_map_add (outline : Outline) (statements : List Statement) :
    (outline.applyAll (statements.map .add)).2
      = statements.foldl add outline := by
  induction statements generalizing outline with
  | nil => rfl
  | cons statement statements ih => exact ih (outline.add statement)

/-- **The listing after any edits** goes level by level and has the
statement of every edit that was not refused. Additions under the root
are listed in the order in which they were made. -/
theorem listsByLevel_after_edits (edits : List Edit) :
    let outline := ((∅ : Outline).applyAll edits).2
    outline.ListsByLevel
      ∧ outline.statements.Perm ((∅ : Outline).added edits)
      ∧ ∀ statements : List Statement, edits = statements.map .add →
        outline.statements = statements := by
  intro outline
  have h : outline.WellFormed := wellFormed_empty.applyAll edits
  refine ⟨h.listsByLevel, ?_, ?_⟩
  · rw [← entries_of_edits]
    exact h.statements_perm_entries
  · rintro statements rfl
    have hadd : outline = statements.foldl add ∅ :=
      applyAll_map_add ∅ statements
    rw [hadd, flat_empty.statements_foldl_add]
    rfl

end HotkeyScript.Outline
