import HotkeyScript.Proofs.Reading.Session
import HotkeyScript.Proofs.Statement.Recognition

/-!
# `HotkeyScript.Proofs.Reading.Reread`: reading what was kept

An outline keeps the texts of its statements. Each of them is a line that
says the same statement again, so the texts of an outline, a line for
each, are a script that has nothing else in it.

* `Reader.Quotes`: a statement is one of the lines of some texts, and its
  text says it again. `Holds.quotes` proves it of every statement of a
  reader.
* `Outline.rewritten`: the texts of the statements as a script.
* `Outline.Rereads`: what is read from that script. `rereads_of_quotes`
  needs nothing but that each text says its statement.
* `Session.quotes_and_rereads_run`: both for any reader, whatever the
  caller does, and for any text.
-/

set_option autoImplicit false

namespace HotkeyScript

namespace Reader

/-- A statement stands in a line of some texts, and its own text is a
line that says the same. -/
structure Quotes (texts : List String) (statement : Statement) : Prop where
  reread : Statement.ofLine? statement.text = some statement
  unbroken : Text.Unbroken statement.text
  source : ∃ text ∈ texts, ∃ line ∈ Text.lines text,
    Statement.ofLine? line = some statement
      ∧ statement.StandsIn line

/-- Every statement of a reader quotes one of the texts that it has
read. -/
theorem Holds.quotes {texts : List String} {outline : Outline}
    (h : Holds texts outline) {statement : Statement}
    (hmem : statement ∈ outline.statements) : Quotes texts statement := by
  rw [h.statements, List.mem_flatMap] at hmem
  obtain ⟨text, htext, hmem⟩ := hmem
  obtain ⟨line, hline, hsaid⟩ := List.mem_filterMap.mp hmem
  have hunbroken := Text.unbroken_of_mem_lines hline
  exact
    { reread := Statement.ofLine?_text hsaid
      unbroken := Statement.unbroken_text hsaid hunbroken
      source := ⟨text, htext, line, hline, hsaid,
        Statement.standsIn_of_ofLine? hsaid⟩ }

end Reader

namespace Outline

/-- The texts of all statements, a line for each. -/
def rewritten (outline : Outline) : String :=
  "\n".intercalate (outline.statements.map Statement.text)

/-- What is read from the texts of the statements: the statements and
nothing else. -/
structure Rereads (outline : Outline) : Prop where
  statements : ((∅ : Outline).read outline.rewritten).1.statements
    = outline.statements
  isComplete : ((∅ : Outline).read outline.rewritten).2.isComplete = true
  isAccepted : ((∅ : Outline).read outline.rewritten).2.isAccepted = true
  isRecognized : outline.statements ≠ [] →
    ∀ line ∈ ((∅ : Outline).read outline.rewritten).2.lines,
      line.isRecognized = true

section
variable {outline : Outline}
  (hreread : ∀ statement ∈ outline.statements,
    Statement.ofLine? statement.text = some statement)
  (hunbroken : ∀ statement ∈ outline.statements,
    Text.Unbroken statement.text)
include hunbroken

/-- The script that is written from an outline has a line for each
statement. -/
theorem lines_rewritten (hne : outline.statements ≠ []) :
    Text.lines outline.rewritten
      = outline.statements.map Statement.text := by
  apply Text.lines_intercalate
  · simpa using hne
  · intro line hline
    obtain ⟨statement, hmem, rfl⟩ := List.mem_map.mp hline
    exact hunbroken statement hmem

include hreread

/-- The rewritten script says the statements of the outline again, in
their order. -/
theorem ofText_rewritten :
    Statement.ofText outline.rewritten = outline.statements := by
  by_cases hne : outline.statements = []
  · -- The script is empty, and its one line says nothing.
    rw [rewritten, hne]
    decide
  · rw [Statement.ofText, lines_rewritten hunbroken hne,
      List.filterMap_map]
    have hsome : ∀ statement ∈ outline.statements,
        (Statement.ofLine? ∘ Statement.text) statement = some statement :=
      hreread
    rw [List.filterMap_congr hsome, List.filterMap_some]

/-- Every line of the script says a statement. -/
theorem isRecognized_rewritten (hne : outline.statements ≠ [])
    (line : Report.Line)
    (hline : line ∈ ((∅ : Outline).read outline.rewritten).2.lines) :
    line.isRecognized = true := by
  rw [read_eq, List.mem_toArray, lines_rewritten hunbroken hne,
    List.mem_mapIdx] at hline
  -- The line at a place is the text of the statement at that place.
  obtain ⟨place, hplace, rfl⟩ := hline
  rw [Report.isRecognized_lineAt, List.getElem_map,
    hreread _ (List.getElem_mem _)]
  rfl

/-- From statements that their own texts say, the outline is read
again. -/
theorem rereads_of_quotes : outline.Rereads where
  statements := by
    rw [flat_empty.statements_read, ofText_rewritten hreread hunbroken]
    rfl
  isComplete := by
    -- Without statements the script is one empty line, which is blank.
    by_cases hne : outline.statements = []
    · rw [rewritten, hne]
      decide
    · rw [Report.isComplete_eq_all, Array.all_eq_true']
      intro line hline
      rw [isRecognized_rewritten hreread hunbroken hne line hline,
        Bool.or_true]
  isAccepted := by
    rw [Report.isAccepted_iff, recognized_read,
      ofText_rewritten hreread hunbroken, ← Array.all_toList]
    by_cases hne : outline.statements = []
    · rw [rewritten, hne]
      decide
    · exact .inl (List.length_pos_iff.mpr hne)
  isRecognized := isRecognized_rewritten hreread hunbroken

end

/-- What a node of a flat outline says is listed. -/
theorem Flat.mem_statements {outline : Outline} (h : outline.Flat)
    {handle : Handle} {statement : Statement}
    (hat : outline.statementAt? handle = some statement) :
    statement ∈ outline.statements := by
  obtain ⟨node, hnode, -⟩ := Option.bind_eq_some_iff.mp hat
  have hhandle := mem_handles.mpr (lt_of_node?_eq_some hnode)
  rw [h.statements_eq]
  exact List.mem_filterMap.mpr ⟨handle, hhandle, hat⟩

end Outline

namespace Reader

variable {texts : List String} {outline : Outline}

/-- What a reader has can be read again from its own texts. -/
theorem Holds.rereads (h : Holds texts outline) : outline.Rereads :=
  Outline.rereads_of_quotes
    (fun _ hmem => (h.quotes hmem).reread)
    (fun _ hmem => (h.quotes hmem).unbroken)

end Reader

/-- Every statement of every reader quotes the texts that were read into
it, and what a reader has can be read again from its own texts. So can
what is read from any text. -/
theorem Session.quotes_and_rereads_run :
    (∀ actions : List Action,
      Related
        (fun texts outline =>
          (∀ handle statement,
            outline.statementAt? handle = some statement →
              Reader.Quotes texts statement)
            ∧ outline.Rereads)
        (run Reader.texts actions) (run Outline.reader actions))
      ∧ ∀ text : String, ((∅ : Outline).read text).1.Rereads := by
  constructor
  · intro actions
    have hrun := related_run Reader.simulates_texts_outline actions
    -- What a reader holds is enough for both.
    have hholds {texts : List String} {outline : Outline}
        (h : Reader.Holds texts outline) :
        (∀ handle statement,
          outline.statementAt? handle = some statement →
            Reader.Quotes texts statement) ∧ outline.Rereads :=
      ⟨fun _ _ hat => h.quotes (h.flat.mem_statements hat), h.rereads⟩
    exact ⟨hrun.readers.imp fun _ _ h => hholds h,
      hrun.finished.imp fun _ _ h => hholds h⟩
  · intro text
    exact (Reader.holds_empty.read text).rereads

end HotkeyScript
