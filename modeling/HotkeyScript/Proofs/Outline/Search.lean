import HotkeyScript.Proofs.Outline.LevelOrder
import HotkeyScript.Proofs.Statement.Agreement

/-!
# `HotkeyScript.Proofs.Outline.Search`: searching an outline

A search is a walk that stops at the first statement that agrees with
the query. It would also stop, with nothing found, at a handle that
names no node, and so miss all that is behind. In a tree there is no
such handle in the queue.

* `search_eq_any_visit`: a search answers whether some node of the walk
  agrees. `contains_eq_any_entries` and its likes say so of the nodes in
  other orders.
* `Searches`: a search without a bound on its visits, with the three
  ways in which it can end. `searches_iff`: it ends in one of two.
* `FindsAdded` and `findsAdded_after_edits`: what is found after any
  edits.
-/

set_option autoImplicit false

namespace HotkeyScript.Outline

/-- How a search ends. -/
inductive Ending where
  | found
  | exhausted
  /-- A handle in the queue names no node. -/
  | unknownNode
  deriving DecidableEq, Repr

/-- What ends a search at a handle that leaves the queue. Most handles
end none. -/
def endsAt? (outline : Outline) (query : Statement) (handle : Handle) :
    Option Ending :=
  match outline.node? handle with
  | none => some .unknownNode
  | some node =>
    if node.statement?.any (·.agrees query) then some .found else none

/-- How the search from a queue ends, with no bound on its visits. -/
inductive Searches (outline : Outline) (query : Statement) :
    List Handle → Queue Handle → Ending → Prop where
  | exhausted {seen : List Handle} {queue : Queue Handle}
      (hpop : queue.pop? = none) :
      Searches outline query seen queue .exhausted
  | stop {seen : List Handle} {queue rest : Queue Handle}
      {handle : Handle} {ending : Ending}
      (hpop : queue.pop? = some (handle, rest))
      (hends : outline.endsAt? query handle = some ending) :
      Searches outline query seen queue ending
  | visit {seen : List Handle} {queue rest : Queue Handle}
      {handle : Handle} {ending : Ending}
      (hpop : queue.pop? = some (handle, rest))
      (hends : outline.endsAt? query handle = none)
      (hrest : Searches outline query
        (outline.unseen seen handle ++ seen)
        (rest.pushAll (outline.unseen seen handle)) ending) :
      Searches outline query seen queue ending

/-- Whether the statement of a node agrees with a query. -/
def agreesAt (outline : Outline) (query : Statement) (handle : Handle) :
    Bool :=
  (outline.statementAt? handle).any (·.agrees query)

section
variable {outline : Outline} {query : Statement}

/-! ### A search and its walk -/

/-- Whether a node agrees is told by its statement. -/
theorem agreesAt_of_node? {handle : Handle} {node : Node}
    (hnode : outline.node? handle = some node) :
    outline.agreesAt query handle
      = node.statement?.any (·.agrees query) := by
  rw [agreesAt, statementAt?, hnode]
  rfl

/-- A handle that names a node ends a search only by agreeing. -/
theorem endsAt?_of_node? {handle : Handle} {node : Node}
    (hnode : outline.node? handle = some node) :
    outline.endsAt? query handle
      = if outline.agreesAt query handle then some .found else none := by
  rw [agreesAt_of_node? hnode, endsAt?, hnode]

/-- Only children join the queue. -/
theorem mem_children_of_mem_unseen {seen : List Handle}
    {handle child : Handle} (hmem : child ∈ outline.unseen seen handle) :
    child ∈ outline.children handle := by
  rw [unseen, List.mem_eraseDups, List.mem_filter] at hmem
  exact hmem.1

/-- At the start the queue has the root, which is a node. -/
theorem lt_of_mem_single_root (h : outline.WellFormed) :
    ∀ handle ∈ (Queue.single root).toList,
      handle.index < outline.nodes.size := by
  intro handle hmem
  rw [Queue.toList_single, List.mem_singleton] at hmem
  rw [hmem]
  exact h.size_pos

namespace WellFormed

/-- Only nodes join the queue. -/
theorem lt_of_mem_pushAll (h : outline.WellFormed) {seen : List Handle}
    {queue rest : Queue Handle} {handle : Handle}
    (hpop : queue.pop? = some (handle, rest))
    (hqueue : ∀ other ∈ queue.toList, other.index < outline.nodes.size) :
    ∀ other ∈ (rest.pushAll (outline.unseen seen handle)).toList,
      other.index < outline.nodes.size := by
  intro other hmem
  rw [Queue.toList_pushAll, List.mem_append] at hmem
  cases hmem with
  | inl hrest =>
    apply hqueue
    rw [Queue.toList_of_pop?_eq_some hpop]
    exact List.mem_cons_of_mem _ hrest
  | inr hchild =>
    exact h.lt_of_mem_children (mem_children_of_mem_unseen hchild)

/-- Whatever leaves a queue of nodes names a node. -/
theorem exists_node?_of_pop? {queue rest : Queue Handle} {handle : Handle}
    (hpop : queue.pop? = some (handle, rest))
    (hqueue : ∀ other ∈ queue.toList, other.index < outline.nodes.size) :
    ∃ node, outline.node? handle = some node := by
  apply exists_node?_of_lt
  apply hqueue
  rw [Queue.toList_of_pop?_eq_some hpop]
  exact List.mem_cons_self

/-- A search goes through the nodes of the walk and answers whether one of
them agrees. -/
theorem search_eq_any_visit (h : outline.WellFormed) (fuel : Nat)
    (seen : List Handle) (queue : Queue Handle)
    (hqueue : ∀ other ∈ queue.toList, other.index < outline.nodes.size) :
    outline.search query fuel seen queue
      = (outline.visit fuel seen queue).any (outline.agreesAt query) := by
  induction fuel generalizing seen queue with
  | zero => rfl
  | succ fuel ih =>
    rw [search, visit]
    cases hpop : queue.pop? with
    | none => rfl
    | some popped =>
      obtain ⟨handle, rest⟩ := popped
      -- A handle that leaves the queue names a node, so the branch that
      -- gives up is not taken.
      obtain ⟨node, hnode⟩ := exists_node?_of_pop? hpop hqueue
      simp only [hnode, List.any_cons, agreesAt_of_node? hnode]
      rw [ih _ _ (h.lt_of_mem_pushAll hpop hqueue)]
      -- A node that agrees ends the search, while the walk would go on.
      cases node.statement?.any (·.agrees query) <;> rfl

/-- The answer of an outline in terms of its walk. -/
theorem contains_eq_any_order (h : outline.WellFormed) :
    outline.contains query = outline.order.any (outline.agreesAt query) :=
  h.search_eq_any_visit _ _ _ (lt_of_mem_single_root h)

end WellFormed

/-! ### Other orders -/

/-- To ask some statements is to ask the nodes that say them. -/
theorem any_filterMap_statementAt? (outline : Outline) (query : Statement)
    (handles : List Handle) :
    (handles.filterMap outline.statementAt?).any (·.agrees query)
      = handles.any (outline.agreesAt query) := by
  rw [List.any_filterMap]
  rfl

namespace WellFormed

/-- A scan of the listing finds the same, since the listing has the
statements of the walk. -/
theorem contains_eq_any_statements (h : outline.WellFormed) :
    outline.contains query = outline.statements.any (·.agrees query) := by
  rw [h.contains_eq_any_order, statements, any_filterMap_statementAt?]

/-- A scan of the statements in the order in which they were added finds
the same as well. -/
theorem contains_eq_any_entries (h : outline.WellFormed) :
    outline.contains query = outline.entries.any (·.agrees query) := by
  rw [h.contains_eq_any_statements, h.statements_perm_entries.any_eq]

/-- A scan of the nodes as they are stored finds the same. -/
theorem contains_eq_any_nodes (h : outline.WellFormed) :
    outline.contains query
      = outline.nodes.any fun node =>
          node.statement?.any (·.agrees query) := by
  rw [h.contains_eq_any_entries, entries, any_filterMap_statementAt?,
    Bool.eq_iff_iff, List.any_eq_true, Array.any_eq_true]
  -- A handle among those of the outline and a place in its array are the
  -- same number.
  constructor
  · rintro ⟨handle, hmem, hagrees⟩
    have hlt := mem_handles.mp hmem
    have hnode : outline.node? handle = some outline.nodes[handle.index] :=
      Array.getElem?_eq_getElem hlt
    exact ⟨handle.index, hlt, (agreesAt_of_node? hnode).symm.trans hagrees⟩
  · rintro ⟨i, hlt, hagrees⟩
    have hnode : outline.node? ⟨i⟩ = some outline.nodes[i] :=
      Array.getElem?_eq_getElem hlt
    exact ⟨⟨i⟩, mem_handles.mpr hlt,
      (agreesAt_of_node? hnode).trans hagrees⟩

/-- What is found once is found after any further edits. -/
theorem contains_applyAll (h : outline.WellFormed) (edits : List Edit)
    (hcontains : outline.contains query = true) :
    (outline.applyAll edits).2.contains query = true := by
  rw [h.contains_eq_any_entries] at hcontains
  rw [(h.applyAll edits).contains_eq_any_entries, h.entries_applyAll,
    List.any_append, hcontains, Bool.true_or]

/-- Queries that say the same are answered alike. -/
theorem contains_congr (h : outline.WellFormed) {other : Statement}
    (hsame : Statement.SaysSame query other) :
    outline.contains query = outline.contains other := by
  rw [h.contains_eq_any_entries, h.contains_eq_any_entries]
  exact congrArg outline.entries.any
    (funext fun statement => Statement.agrees_congr_right hsame statement)

end WellFormed

/-! ### How a search ends -/

/-- A search ends in one way only. -/
theorem Searches.unique {seen : List Handle} {queue : Queue Handle}
    {ending other : Ending} (h : Searches outline query seen queue ending)
    (hother : Searches outline query seen queue other) :
    ending = other := by
  -- At each state one of the three rules applies: by what leaves the
  -- queue, and by whether that ends the search.
  induction h with
  | exhausted hpop =>
    cases hother with
    | exhausted => rfl
    | stop hpop' | visit hpop' => cases hpop.symm.trans hpop'
  | stop hpop hends =>
    cases hother with
    | exhausted hpop' => cases hpop.symm.trans hpop'
    | stop hpop' hends' =>
      cases hpop.symm.trans hpop'
      exact Option.some.inj (hends.symm.trans hends')
    | visit hpop' hends' =>
      cases hpop.symm.trans hpop'
      cases hends.symm.trans hends'
  | visit hpop hends _ ih =>
    cases hother with
    | exhausted hpop' => cases hpop.symm.trans hpop'
    | stop hpop' hends' =>
      cases hpop.symm.trans hpop'
      cases hends.symm.trans hends'
    | visit hpop' _ hrest =>
      cases hpop.symm.trans hpop'
      exact ih hrest

/-- A walk that ends is a search that ends, at a node that agrees or with
all nodes visited. -/
theorem searches_of_visits (h : outline.WellFormed)
    {seen handles : List Handle} {queue : Queue Handle}
    (hvisits : Visits outline seen queue handles)
    (hqueue : ∀ other ∈ queue.toList, other.index < outline.nodes.size) :
    Searches outline query seen queue
      (if handles.any (outline.agreesAt query) then .found
        else .exhausted) := by
  induction hvisits with
  | done hpop => exact .exhausted hpop
  | visit hpop _ ih =>
    have hrest := ih (h.lt_of_mem_pushAll hpop hqueue)
    obtain ⟨node, hnode⟩ := WellFormed.exists_node?_of_pop? hpop hqueue
    have hends : outline.endsAt? query _ = _ := endsAt?_of_node? hnode
    rw [List.any_cons]
    -- A node that agrees ends the search here. Any other one is passed.
    cases hagrees : outline.agreesAt query _ with
    | true =>
      rw [hagrees] at hends
      exact .stop hpop hends
    | false =>
      rw [hagrees] at hends
      exact .visit hpop hends hrest

/-- The search from the root ends, and its ending is the answer. -/
theorem searches_iff (h : outline.WellFormed) (ending : Ending) :
    Searches outline query [root] (.single root) ending
      ↔ ending
        = if outline.contains query then .found else .exhausted := by
  have hvisits := (visits_iff_eq_order h outline.order).mpr rfl
  have hends : Searches outline query [root] (.single root) _ :=
    searches_of_visits h hvisits (lt_of_mem_single_root h)
  rw [← h.contains_eq_any_order] at hends
  constructor
  · exact fun hsearches => hsearches.unique hends
  · rintro rfl
    exact hends

end

/-! ### What is found -/

/-- The answers of an outline that has been given these statements. -/
structure FindsAdded (outline : Outline) (statements : List Statement) :
    Prop where
  contains_iff : ∀ query, outline.contains query = true
    ↔ ∃ statement ∈ statements, statement.SaysSame query
  /-- A scan of the nodes and one of the listing find the same. -/
  scan : ∀ query, outline.contains query
    = outline.nodes.any fun node => node.statement?.any (·.agrees query)
  listing : ∀ query,
    outline.contains query = outline.statements.any (·.agrees query)
  congr : ∀ query other, Statement.SaysSame query other →
    outline.contains query = outline.contains other
  /-- What is found stays to be found. -/
  later : ∀ query edits, outline.contains query = true →
    (outline.applyAll edits).2.contains query = true
  /-- The search ends, and never at a handle that names no node. -/
  ends : ∀ query ending,
    Searches outline query [root] (.single root) ending
      ↔ ending = if outline.contains query then .found else .exhausted

/-- **The search after any edits** finds a query exactly when a statement
that says the same has been added by an edit that was not refused. -/
theorem findsAdded_after_edits (edits : List Edit) :
    (∀ a b : Statement, a.agrees b = true ↔ a.SaysSame b)
      ∧ Equivalence Statement.SaysSame
      ∧ ((∅ : Outline).applyAll edits).2.FindsAdded
          ((∅ : Outline).added edits) := by
  have h : ((∅ : Outline).applyAll edits).2.WellFormed :=
    wellFormed_empty.applyAll edits
  refine ⟨fun _ _ => Statement.agrees_iff_saysSame,
    Statement.equivalence_saysSame, ?_⟩
  constructor
  · intro query
    rw [h.contains_eq_any_entries, entries_of_edits, List.any_eq_true]
    simp only [Statement.agrees_iff_saysSame]
  · exact fun _ => h.contains_eq_any_nodes
  · exact fun _ => h.contains_eq_any_statements
  · exact fun _ _ hsame => h.contains_congr hsame
  · exact fun _ more hcontains => h.contains_applyAll more hcontains
  · exact fun _ ending => searches_iff h ending

end HotkeyScript.Outline
