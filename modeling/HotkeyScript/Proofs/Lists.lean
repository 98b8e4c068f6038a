import Mathlib.Data.List.Forall2
import Mathlib.Data.List.Nodup

/-!
# `HotkeyScript.Proofs.Lists`: lists of anything

Facts about lists that have nothing to do with scripts, and that the
library does not have.

* `forall₂_modify`, `forall₂_eraseIdx`, `forall₂_toList_getElem?`: two
  lists that are related member by member are so after the same change to
  both. `forall₂_splitOnP` is the same for the parts into which they fall.
* `length_splitOnP`, `eq_false_of_mem_splitOnP`, `splitOn_concat`: the
  parts of a list that is split.
* `eraseDups_eq_self`, `idxOf_le_idxOf_iff`: lists without repetitions.
-/

set_option autoImplicit false

namespace List

/-! ### Lists that are related member by member -/

section
variable {α β : Type} {R : α → β → Prop} {left : List α}
  {right : List β}

/-- Two related members may be changed, if what becomes of them is
related. The members before and behind are not touched. -/
theorem forall₂_modify (h : Forall₂ R left right) (place : Nat)
    {change : α → α} {change' : β → β}
    (hchange : ∀ a b, R a b → R (change a) (change' b)) :
    Forall₂ R (left.modify place change) (right.modify place change') := by
  induction h generalizing place with
  | nil => simp
  | cons hhead htail ih =>
    cases place with
    | zero => exact .cons (hchange _ _ hhead) htail
    | succ place => exact .cons hhead (ih place)

/-- Without the members at one place the others are still related. -/
theorem forall₂_eraseIdx (h : Forall₂ R left right) (place : Nat) :
    Forall₂ R (left.eraseIdx place) (right.eraseIdx place) := by
  induction h generalizing place with
  | nil => exact .nil
  | cons hhead htail ih =>
    cases place with
    | zero => exact htail
    | succ place => exact .cons hhead (ih place)

/-- The members at one place are related, or there are none in both
lists. -/
theorem forall₂_toList_getElem? (h : Forall₂ R left right) (place : Nat) :
    Forall₂ R left[place]?.toList right[place]?.toList := by
  induction h generalizing place with
  | nil => exact .nil
  | cons hhead htail ih =>
    cases place with
    | zero => exact .cons hhead .nil
    | succ place => exact ih place

/-- Two related lists that are split at related members fall into related
parts. -/
theorem forall₂_splitOnP {p : α → Bool} {q : β → Bool}
    (h : Forall₂ R left right) (hpq : ∀ a b, R a b → (p a ↔ q b)) :
    Forall₂ (Forall₂ R) (left.splitOnP p) (right.splitOnP q) := by
  induction h with
  | nil => exact .cons .nil .nil
  | @cons a b left right hhead htail ih =>
    rw [splitOnP_cons_eq_if_modifyHead, splitOnP_cons_eq_if_modifyHead]
    by_cases ha : p a = true
    · -- Both lists are split here, so a new part begins in each.
      rw [if_pos ha, if_pos ((hpq a b hhead).mp ha)]
      exact .cons .nil ih
    · -- Both members join the first of the parts behind them.
      rw [if_neg ha, if_neg (mt (hpq a b hhead).mpr ha)]
      generalize left.splitOnP p = parts at ih ⊢
      generalize right.splitOnP q = parts' at ih ⊢
      cases ih with
      | nil => exact .nil
      | cons hpart hparts => exact .cons (.cons hhead hpart) hparts

end

/-! ### The parts of a list -/

section
variable {α : Type}

/-- A list falls into one part more than it has members to split it. -/
theorem length_splitOnP (p : α → Bool) (list : List α) :
    (list.splitOnP p).length = list.countP p + 1 := by
  induction list with
  | nil => rfl
  | cons a list ih =>
    rw [splitOnP_cons_eq_if_modifyHead]
    by_cases ha : p a = true
    · rw [if_pos ha, length_cons, ih, countP_cons_of_pos ha]
    · rw [if_neg ha, length_modifyHead, ih, countP_cons_of_neg ha]

/-- What splits a list is in none of its parts. -/
theorem eq_false_of_mem_splitOnP {p : α → Bool} {list part : List α}
    (h : part ∈ list.splitOnP p) : ∀ a ∈ part, p a = false := by
  induction list generalizing part with
  | nil =>
    obtain rfl : part = [] := by simpa using h
    simp
  | cons b list ih =>
    rw [splitOnP_cons_eq_if_modifyHead] at h
    -- A member that splits begins a new part. Any other one joins the
    -- first part behind it.
    by_cases hb : p b = true
    · rw [if_pos hb, mem_cons] at h
      rcases h with rfl | hlater
      · simp
      · exact ih hlater
    · obtain ⟨first, parts, hparts⟩ :=
        exists_cons_of_ne_nil (splitOnP_ne_nil p list)
      rw [if_neg hb, hparts, modifyHead_cons, mem_cons] at h
      rw [hparts] at ih
      rcases h with rfl | hlater
      · -- The first part of the rest, with `b` in front.
        rw [forall_mem_cons]
        exact ⟨by simpa using hb, ih mem_cons_self⟩
      · exact ih (mem_cons_of_mem _ hlater)

/-- A member at the end that does not split the list belongs to the last
part. -/
theorem splitOn_concat [DecidableEq α] {a mark : α} (ha : a ≠ mark)
    (list : List α) :
    ∃ parts part, list.splitOn mark = parts ++ [part]
      ∧ (list ++ [a]).splitOn mark = parts ++ [part ++ [a]] := by
  induction list with
  | nil =>
    refine ⟨[], [], rfl, ?_⟩
    simp [splitOn_cons_eq_if_modifyHead, ha]
  | cons b list ih =>
    obtain ⟨parts, part, hlist, hconcat⟩ := ih
    rw [cons_append, splitOn_cons_eq_if_modifyHead,
      splitOn_cons_eq_if_modifyHead, hlist, hconcat]
    by_cases hb : (b == mark) = true
    · exact ⟨[] :: parts, part, by simp [hb], by simp [hb]⟩
    · -- `b` joins the first part, which may be the last one as well.
      cases parts with
      | nil => exact ⟨[], b :: part, by simp [hb], by simp [hb]⟩
      | cons first parts =>
        exact ⟨(b :: first) :: parts, part, by simp [hb], by simp [hb]⟩

end

/-! ### Lists without repetitions -/

section
variable {α : Type} [DecidableEq α]

/-- Nothing is lost where nothing stands twice. -/
theorem eraseDups_eq_self {list : List α} (h : list.Nodup) :
    list.eraseDups = list := by
  induction list with
  | nil => rfl
  | cons a list ih =>
    obtain ⟨hmem, hnodup⟩ := nodup_cons.mp h
    -- Erasing takes out the later copies of the first member, and there
    -- are none.
    have hfilter : list.filter (fun b => !b == a) = list := by
      rw [filter_eq_self]
      intro b hb
      have hne : b ≠ a := fun heq => hmem (heq ▸ hb)
      simp [hne]
    rw [eraseDups_cons, hfilter, ih hnodup]

/-- What comes no later than a member is that member or stands before
it. -/
theorem idxOf_le_idxOf_iff {before behind : List α} {a b : α}
    (h : (before ++ a :: behind).Nodup) :
    (before ++ a :: behind).idxOf b ≤ (before ++ a :: behind).idxOf a
      ↔ b ∈ before ∨ b = a := by
  have hnot : a ∉ before := fun hmem =>
    disjoint_of_nodup_append h hmem mem_cons_self
  rw [idxOf_append_of_notMem hnot, idxOf_cons_self]
  -- A member before `a` has a lower index, and one behind has a higher.
  by_cases hb : b ∈ before
  · have hlt := idxOf_lt_length_of_mem hb
    rw [idxOf_append_of_mem hb]
    simp only [hb, true_or, iff_true]
    omega
  · rw [idxOf_append_of_notMem hb]
    by_cases heq : b = a
    · simp [heq]
    · rw [idxOf_cons_ne _ (Ne.symm heq)]
      simp only [hb, heq, or_self, iff_false]
      omega

end

end List
