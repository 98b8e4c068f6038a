import HotkeyScript.Proofs.Outline.WellFormed

/-!
# `HotkeyScript.Proofs.Outline.Entries`: what has been added

The nodes of an outline stand in the order in which they were added,
however they are nested. So the statements of its nodes, in the order of
their handles, are those of the edits that were not refused.

* `entries`: the statements in the order of the handles.
* `entries_graft`: an insertion adds one at the end, under whatever node.
* `entries_applyAll`: after a run of edits. `entries_of_edits` is a run
  from the beginning.
-/

set_option autoImplicit false

namespace HotkeyScript.Outline

/-- The statements of all nodes, the oldest first. -/
def entries (outline : Outline) : List Statement :=
  outline.handles.filterMap outline.statementAt?

/-- The statement that an edit would add. -/
def Edit.statement : Edit → Statement
  | .add statement => statement
  | .addUnder _ statement => statement

/-- The statements that some edits add to an outline: those of the edits
that are answered with a handle. -/
def added (outline : Outline) (edits : List Edit) : List Statement :=
  ((edits.zip (outline.applyAll edits).1).filter (·.2.isOk)).map
    (·.1.statement)

section
variable {outline : Outline} {parent : Handle} {statement : Statement}
  (hparent : parent.index < outline.nodes.size)
include hparent

/-- The old nodes say what they said, in the order in which they are
asked. -/
theorem filterMap_statementAt?_graft {handles : List Handle}
    (hhandles : ∀ handle ∈ handles, handle.index < outline.nodes.size) :
    handles.filterMap (outline.graft parent statement).statementAt?
      = handles.filterMap outline.statementAt? := by
  apply List.filterMap_congr
  intro handle hmem
  have hne : handle ≠ outline.next := ne_next_of_lt (hhandles handle hmem)
  rw [statementAt?_graft hparent, if_neg hne]

/-- The new node says what was added with it. -/
theorem statementAt?_graft_next :
    (outline.graft parent statement).statementAt? outline.next
      = some statement := by
  rw [statementAt?_graft hparent, if_pos rfl]

/-- An insertion adds a statement at the end, however deep in the tree. -/
theorem entries_graft :
    (outline.graft parent statement).entries
      = outline.entries ++ [statement] := by
  have hlt : ∀ handle ∈ outline.handles,
      handle.index < outline.nodes.size := fun _ hmem => mem_handles.mp hmem
  rw [entries, handles_graft, List.filterMap_append,
    filterMap_statementAt?_graft hparent hlt,
    List.filterMap_cons_some (statementAt?_graft_next hparent),
    List.filterMap_nil, entries]

end

/-- What some edits add begins with what the first of them adds. -/
theorem added_cons (outline : Outline) (edit : Edit) (edits : List Edit) :
    outline.added (edit :: edits)
      = (if (outline.apply edit).1.isOk then [edit.statement] else [])
        ++ (outline.apply edit).2.added edits := by
  show (List.filter _ ((edit, (outline.apply edit).1) :: _)).map _ = _
  rw [List.filter_cons]
  split <;> rfl

namespace WellFormed

variable {outline : Outline}

/-- An edit adds its statement, or nothing if it is refused. -/
theorem entries_apply (h : outline.WellFormed) (edit : Edit) :
    (outline.apply edit).2.entries
      = outline.entries
        ++ if (outline.apply edit).1.isOk then [edit.statement] else [] := by
  cases edit with
  | add statement => exact entries_graft h.size_pos
  | addUnder parent statement =>
    by_cases hparent : parent.index < outline.nodes.size
    · rw [apply_addUnder_of_lt statement hparent]
      exact entries_graft hparent
    · rw [apply_addUnder_of_le statement (Nat.le_of_not_lt hparent)]
      exact (List.append_nil _).symm

/-- A run of edits adds its statements in their order. -/
theorem entries_applyAll (h : outline.WellFormed) (edits : List Edit) :
    (outline.applyAll edits).2.entries
      = outline.entries ++ outline.added edits := by
  induction edits generalizing outline with
  | nil => exact (List.append_nil _).symm
  | cons edit edits ih =>
    show ((outline.apply edit).2.applyAll edits).2.entries = _
    rw [ih (h.apply edit), h.entries_apply edit, added_cons,
      List.append_assoc]

end WellFormed

/-- The statements of an outline are those of the edits that made it. -/
theorem entries_of_edits (edits : List Edit) :
    ((∅ : Outline).applyAll edits).2.entries
      = (∅ : Outline).added edits :=
  wellFormed_empty.entries_applyAll edits

end HotkeyScript.Outline
