import HotkeyScript.Outline.Traversal
import HotkeyScript.Proofs.Lists
import HotkeyScript.Proofs.Outline.WellFormed

/-!
# `HotkeyScript.Proofs.Outline.Walk`: walking a tree

The breadth-first walk notes every node that joins its queue, so that no
node joins twice. In a tree there is nothing to note: a node has one
parent, and it joins when that parent leaves. `Frontier` is the
invariant of the walk that says so, and `order_eq_walkFrom` removes the
list of noted nodes from the walk.

* `walkFrom`: the walk with a queue only.
* `Frontier.step`: one visit. All the children join the queue.
* `visit_eq_walkFrom`, `order_eq_walkFrom`: the two walks agree on a
  well-formed outline.
-/

set_option autoImplicit false

namespace HotkeyScript.Outline

/-- Walks on from the nodes in the queue, for `fuel` visits at most, and
takes no note of the nodes that have been in the queue. -/
def walkFrom (outline : Outline) : Nat → List Handle → List Handle
  | 0, _ => []
  | _ + 1, [] => []
  | fuel + 1, handle :: queue =>
    handle :: outline.walkFrom fuel (queue ++ outline.children handle)

/-- The state of a walk through a tree. The parent of a node that has
been seen has been seen too, and has left the queue. -/
structure Frontier (outline : Outline) (seen queue : List Handle) :
    Prop where
  nodup : queue.Nodup
  seen_of_mem : ∀ handle ∈ queue, handle ∈ seen
  parent : ∀ handle ∈ seen, ∀ parent,
    outline.parentAt? handle = some parent → parent ∈ seen ∧ parent ∉ queue

section
variable {outline : Outline}

/-- At the start the root has been seen, and has nothing above it. -/
theorem frontier_root (h : outline.WellFormed) :
    Frontier outline [root] [root] where
  nodup := List.nodup_singleton root
  seen_of_mem _ hmem := hmem
  parent handle hmem parent hparent := by
    rw [List.mem_singleton.mp hmem, h.parentAt?_root] at hparent
    cases hparent

namespace Frontier

variable {seen queue : List Handle} {handle : Handle}

/-- The children of a node that is visited have not been seen. Otherwise
the node would have left the queue before. -/
theorem not_mem_seen (h : outline.WellFormed)
    (hfrontier : Frontier outline seen (handle :: queue)) {child : Handle}
    (hchild : child ∈ outline.children handle) : child ∉ seen := by
  intro hmem
  have hparent := h.mem_children_iff.mp hchild
  have hleft := (hfrontier.parent child hmem handle hparent).2
  exact hleft List.mem_cons_self

/-- No child has been seen before its parent is visited. -/
theorem unseen_eq (h : outline.WellFormed)
    (hfrontier : Frontier outline seen (handle :: queue)) :
    outline.unseen seen handle = outline.children handle := by
  have hfilter : (outline.children handle).filter
      (fun child => !seen.contains child) = outline.children handle := by
    rw [List.filter_eq_self]
    intro child hchild
    have hnot := hfrontier.not_mem_seen h hchild
    simp [hnot]
  rw [unseen, hfilter, List.eraseDups_eq_self (h.nodup_children handle)]

/-- One visit: the node leaves the queue and its children join it. -/
theorem step (h : outline.WellFormed)
    (hfrontier : Frontier outline seen (handle :: queue)) :
    Frontier outline (outline.children handle ++ seen)
      (queue ++ outline.children handle) where
  nodup := by
    rw [List.nodup_append]
    refine ⟨hfrontier.nodup.of_cons, h.nodup_children handle, ?_⟩
    -- What was in the queue has been seen, and the children have not.
    rintro other hother child hchild rfl
    have hseen := hfrontier.seen_of_mem other (List.mem_cons_of_mem _ hother)
    exact hfrontier.not_mem_seen h hchild hseen
  seen_of_mem other hother := by
    rw [List.mem_append] at hother ⊢
    cases hother with
    | inl hqueue =>
      right
      exact hfrontier.seen_of_mem other (List.mem_cons_of_mem _ hqueue)
    | inr hchild => exact Or.inl hchild
  parent other hother parent hparent := by
    -- The node above a seen node is seen, so it is none of the children.
    have hseen : parent ∈ seen ∧ parent ∉ queue := by
      cases List.mem_append.mp hother with
      | inl hchild =>
        have hhandle := h.mem_children_iff.mp hchild
        obtain rfl : handle = parent :=
          Option.some.inj (hhandle.symm.trans hparent)
        exact ⟨hfrontier.seen_of_mem handle List.mem_cons_self,
          (List.nodup_cons.mp hfrontier.nodup).1⟩
      | inr hold =>
        obtain ⟨hmem, hleft⟩ := hfrontier.parent other hold parent hparent
        exact ⟨hmem, fun hqueue => hleft (List.mem_cons_of_mem _ hqueue)⟩
    obtain ⟨hmem, hqueue⟩ := hseen
    refine ⟨List.mem_append_right _ hmem, ?_⟩
    rw [List.mem_append]
    rintro (hold | hchild)
    · exact hqueue hold
    · exact hfrontier.not_mem_seen h hchild hmem

end Frontier

/-- The walk that takes notes goes as the walk without them, from any
state that `Frontier` allows. -/
theorem visit_eq_walkFrom (h : outline.WellFormed) (fuel : Nat)
    (seen : List Handle) (queue : Queue Handle)
    (hfrontier : Frontier outline seen queue.toList) :
    outline.visit fuel seen queue = outline.walkFrom fuel queue.toList := by
  induction fuel generalizing seen queue with
  | zero => rfl
  | succ fuel ih =>
    rw [visit]
    cases hpop : queue.pop? with
    | none =>
      rw [(Queue.pop?_eq_none_iff queue).mp hpop]
      rfl
    | some popped =>
      obtain ⟨handle, rest⟩ := popped
      rw [Queue.toList_of_pop?_eq_some hpop] at hfrontier ⊢
      have hstep := hfrontier.step h
      rw [← Queue.toList_pushAll] at hstep
      simp only [hfrontier.unseen_eq h]
      rw [ih _ _ hstep, Queue.toList_pushAll, walkFrom]

/-- The order of an outline is that of the walk without notes. -/
theorem order_eq_walkFrom (h : outline.WellFormed) :
    outline.order = outline.walkFrom outline.nodes.size [root] :=
  visit_eq_walkFrom h _ _ _ (frontier_root h)

end

end HotkeyScript.Outline
