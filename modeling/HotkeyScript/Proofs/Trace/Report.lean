import HotkeyScript.Proofs.Declaration.Image
import HotkeyScript.Proofs.Reading.Lines
import HotkeyScript.Proofs.Script.Load
import HotkeyScript.Trace

/-!
# `HotkeyScript.Proofs.Trace.Report`: a trace and its report

The trace of a text goes through the lines by itself, and so does the
report. Both tell the same: of each line in turn its outcome, which is
the entry of the line in the report, and at the end the two counts. What
the trace has and the report has not is the reason why a line is refused,
where one of its halves is to blame.

* `Declaration.RefusedHalf`: the half that is to blame. A line has one
  exactly when `Hotkey.ofLine` ends with the refusal of a half.
* `ofDeclaration_of_refusedHalf`, `ofDeclaration_eq_nil`: the reason that
  is told of a line.
* `TellsLine`, `TellsText`, `TellsLoad`: what is told of a line, of a text
  and of a script file. `exists_tellsLine` is the step from line to line,
  and `exists_tellsLines` the induction over the lines.
* `tellsText_and_tellsLoad`: what every trace tells.
-/

set_option autoImplicit false

namespace HotkeyScript

namespace Declaration

/-- The half for which a line is refused, without the blank characters of
the line: the first one that is no text of a combo. -/
inductive RefusedHalf (line : String) (cause : ScanError) :
    List Char → Prop where
  /-- The key part is one half. -/
  | single {half : List Char} (hkey : HasKeyPart line half)
      (hhalves : halves half = 1)
      (hscan : Half.scan half = .error cause) :
      RefusedHalf line cause half
  /-- The half before the only joiner. -/
  | left {left right : List Char}
      (hkey : HasKeyPart line (left ++ joiner :: right))
      (hhalves : halves (left ++ joiner :: right) = 2)
      (hleft : Half.scan left = .error cause) :
      RefusedHalf line cause left
  /-- The half behind it, when nothing is wrong with the other. -/
  | right {left right : List Char} {first : Combo}
      (hkey : HasKeyPart line (left ++ joiner :: right))
      (hhalves : halves (left ++ joiner :: right) = 2)
      (hleft : Half.scan left = .ok first)
      (hright : Half.scan right = .error cause) :
      RefusedHalf line cause right

/-- The scan refuses something only where there is something. -/
theorem ne_nil_of_scan_eq_error {half : List Char} {cause : ScanError}
    (h : Half.scan half = .error cause) : half ≠ [] := by
  rintro rfl
  cases h

/-- A line is refused for a half exactly if one of its halves is to
blame. -/
theorem ofLine_eq_half_iff {line : String} {cause : ScanError} :
    Hotkey.ofLine line = .error (.half cause)
      ↔ ∃ half, RefusedHalf line cause half := by
  constructor
  · intro h
    obtain ⟨verdict, hgrammar⟩ := exists_grammar line
    obtain rfl : verdict = .error (.half cause) :=
      (ofLine_eq_of_grammar hgrammar).symm.trans h
    -- Three rules of the grammar end with the refusal of a half, one for
    -- each half that there can be.
    cases hgrammar with
    | leftHalf hkey hhalves hleft => exact ⟨_, .left hkey hhalves hleft⟩
    | rightHalf hkey hhalves hleft hright =>
      exact ⟨_, .right hkey hhalves hleft hright⟩
    | half hkey hne hhalves hscan => exact ⟨_, .single hkey hhalves hscan⟩
  · rintro ⟨half, h⟩
    apply ofLine_eq_of_grammar
    cases h with
    | single hkey hhalves hscan =>
      exact .half hkey (ne_nil_of_scan_eq_error hscan) hhalves hscan
    | left hkey hhalves hleft => exact .leftHalf hkey hhalves hleft
    | right hkey hhalves hleft hright =>
      exact .rightHalf hkey hhalves hleft hright

end Declaration

namespace Trace

open Declaration (RefusedHalf)

/-! ### The reason why a line is refused -/

section
variable {line : String}

/-- The half that is to blame is told of, and no other. -/
theorem ofDeclaration_of_refusedHalf {half : List Char}
    {cause : ScanError} (h : RefusedHalf line cause half) :
    ofDeclaration line.toList = [.ofRefused ⟨half, cause⟩] := by
  cases h with
  | single hkey hhalves hscan =>
    have hne := Declaration.ne_nil_of_scan_eq_error hscan
    rw [ofDeclaration, hkey.ofLine_single hne hhalves]
    simp only [Declaration.read_of_first_error hscan, ofReading]
  | left hkey hhalves hleft =>
    rw [ofDeclaration, hkey.ofLine_chord hhalves]
    simp only [Declaration.read_of_first_error hleft, ofReading]
  | right hkey hhalves hleft hright =>
    rw [ofDeclaration, hkey.ofLine_chord hhalves]
    simp only [Declaration.read_chord_of_error hleft hright, ofReading]

/-- A line that is read, or refused for another reason than a half, has
no reason told of it. -/
theorem ofDeclaration_eq_nil
    (h : ∀ cause, Hotkey.ofLine line ≠ .error (.half cause)) :
    ofDeclaration line.toList = [] := by
  rw [ofDeclaration]
  cases hhalves : Declaration.Halves.ofLine line.toList with
  | error cause => rfl
  | ok halves =>
    -- The refusal of a half would be that of the line.
    have hline := Declaration.ofLine_eq_map_read line
    rw [Declaration.read_of_ok hhalves] at hline
    cases hread : halves.read with
    | ok combos => simp only [hread, ofReading]
    | error refused =>
      rw [hread] at hline
      exact absurd hline (h refused.cause)

end

/-! ### What is told of a line -/

/-- An event has this level and these words. -/
structure Event.Says (event : Event) (level : Level) (message : String) :
    Prop where
  level_eq : event.level = level
  message_eq : event.message = message

/-- What is told of a half that is refused. -/
inductive TellsRefusal (half : List Char) : ScanError → Event → Prop where
  | danglingSide {side : Char} {offset : Nat} {event : Event}
      (heq : event = .danglingSide (String.ofList half) offset)
      (hwords : event.Says .trace "dangling directional modifier") :
      TellsRefusal half (.danglingSide side offset) event
  | secondKey {first second : Char} {offset : Nat} {event : Event}
      (heq : event = .secondKey (String.ofList half) offset)
      (hwords : event.Says .trace "more than one key in hotkey half") :
      TellsRefusal half (.secondKey first second offset) event

/-- What is told of every line, from its entry in the report. -/
inductive TellsOutcome (entry : Report.Line) : Event → Prop where
  | recognized {event : Event} (h : entry.isRecognized = true)
      (heq : event = .recognized entry.number entry.verdict entry.text)
      (hwords : event.Says .debug "recognized") : TellsOutcome entry event
  | unrecognized {event : Event} (h : entry.isRecognized = false)
      (heq : event = .unrecognized entry.number entry.text)
      (hwords : event.Says .trace "no recognizer matched") :
      TellsOutcome entry event

/-- What is told of a line: a reason, if there is one, and then the
outcome. -/
structure TellsLine (entry : Report.Line) (reason? : Option Event)
    (outcome : Event) : Prop where
  tellsOutcome : TellsOutcome entry outcome
  /-- A reason is told of a line without a comment that is refused for
  one of its halves, and of no other line. -/
  isSome_reason_iff : reason?.isSome = true
    ↔ Comment.marker ∉ entry.text.toList
      ∧ ∃ cause, Hotkey.ofLine entry.text = .error (.half cause)
  /-- It is what is wrong with this half. -/
  reason : ∀ event ∈ reason?, ∃ half cause,
    Hotkey.ofLine entry.text = .error (.half cause)
      ∧ RefusedHalf entry.text cause half
      ∧ TellsRefusal half cause event
  quiet : entry.isRecognized = false →
    ∀ event ∈ reason?.toList ++ [outcome], event.level = .trace

/-- The refusal of a half tells what is wrong with it. -/
theorem tellsRefusal_ofRefused (half : List Char) (cause : ScanError) :
    TellsRefusal half cause (.ofRefused ⟨half, cause⟩) := by
  cases cause with
  | danglingSide side offset => exact .danglingSide rfl ⟨rfl, rfl⟩
  | secondKey first second offset => exact .secondKey rfl ⟨rfl, rfl⟩

/-- A reason is told at the lowest level. -/
theorem TellsRefusal.level_eq {half : List Char} {cause : ScanError}
    {event : Event} (h : TellsRefusal half cause event) :
    event.level = .trace := by
  cases h with
  | danglingSide _ hwords => exact hwords.level_eq
  | secondKey _ hwords => exact hwords.level_eq

/-- The outcome of a line that is not recognized is told at the lowest
level. -/
theorem TellsOutcome.level_eq {entry : Report.Line} {event : Event}
    (h : TellsOutcome entry event) (hentry : entry.isRecognized = false) :
    event.level = .trace := by
  cases h with
  | recognized htrue => rw [hentry] at htrue; cases htrue
  | unrecognized _ _ hwords => exact hwords.level_eq

/-- A reason and an outcome are what is told of a line if each of them is
right by itself. -/
theorem TellsLine.of_outcome {entry : Report.Line}
    {reason? : Option Event} {outcome : Event}
    (houtcome : TellsOutcome entry outcome)
    (hsome : reason?.isSome = true
      ↔ Comment.marker ∉ entry.text.toList
        ∧ ∃ cause, Hotkey.ofLine entry.text = .error (.half cause))
    (hreason : ∀ event ∈ reason?, ∃ half cause,
      RefusedHalf entry.text cause half
        ∧ TellsRefusal half cause event) :
    TellsLine entry reason? outcome where
  tellsOutcome := houtcome
  isSome_reason_iff := hsome
  reason event hevent := by
    obtain ⟨half, cause, hhalf, htells⟩ := hreason event hevent
    exact ⟨half, cause, Declaration.ofLine_eq_half_iff.mpr ⟨half, hhalf⟩,
      hhalf, htells⟩
  quiet hentry event hevent := by
    cases List.mem_append.mp hevent with
    | inl hmem =>
      obtain ⟨half, cause, -, htells⟩ :=
        hreason event (Option.mem_toList.mp hmem)
      exact htells.level_eq
    | inr hmem =>
      obtain rfl := List.mem_singleton.mp hmem
      exact houtcome.level_eq hentry

/-- What is told of a declaration is one reason or none. -/
theorem exists_reason (line : String) :
    ∃ reason? : Option Event, ofDeclaration line.toList = reason?.toList
      ∧ (reason?.isSome = true
        ↔ ∃ cause, Hotkey.ofLine line = .error (.half cause))
      ∧ ∀ event ∈ reason?, ∃ half cause,
        RefusedHalf line cause half ∧ TellsRefusal half cause event := by
  by_cases h : ∃ cause, Hotkey.ofLine line = .error (.half cause)
  · obtain ⟨cause, hline⟩ := h
    obtain ⟨half, hhalf⟩ := Declaration.ofLine_eq_half_iff.mp hline
    refine ⟨some (.ofRefused ⟨half, cause⟩),
      ofDeclaration_of_refusedHalf hhalf, ⟨fun _ => ⟨cause, hline⟩,
      fun _ => rfl⟩, ?_⟩
    intro event hevent
    obtain rfl := Option.some.inj hevent
    exact ⟨half, cause, hhalf, tellsRefusal_ofRefused half cause⟩
  -- For every other verdict there is no reason.
  · refine ⟨none, ofDeclaration_eq_nil fun cause hline => h ⟨cause, hline⟩,
      ?_, by simp⟩
    simpa using h

section
variable (place : Nat) {line : String}

/-- The outcome of a line that says something is told with the verdict on
it. -/
theorem tellsOutcome_of_some {statement : Statement}
    (h : Statement.ofLine? line = some statement) :
    TellsOutcome (Report.lineAt place line)
      (.recognized (place + 1) (.ofStatement? (some statement)) line) := by
  refine .recognized ?_ ?_ ⟨rfl, rfl⟩
  · rw [Report.isRecognized_lineAt, h]
    rfl
  · rw [Report.lineAt, h]

/-- The outcome of a line that says nothing is that no recognizer
matched. -/
theorem tellsOutcome_of_none (h : Statement.ofLine? line = none) :
    TellsOutcome (Report.lineAt place line)
      (.unrecognized (place + 1) line) := by
  refine .unrecognized ?_ rfl ⟨rfl, rfl⟩
  rw [Report.isRecognized_lineAt, h]
  rfl

end

/-- A line that says something is refused for no half: it is a comment, or
a hotkey is read from it. -/
theorem not_refused_of_some {line : String} {statement : Statement}
    (h : Statement.ofLine? line = some statement) :
    ¬ (Comment.marker ∉ line.toList
      ∧ ∃ cause, Hotkey.ofLine line = .error (.half cause)) := by
  rintro ⟨hmarker, cause, hline⟩
  rw [← Comment.ofLine?_eq_none_iff] at hmarker
  rw [Statement.ofLine?, hmarker, Hotkey.ofLine?, hline] at h
  cases h

/-- What the trace has of a line is what is told of its entry. -/
theorem exists_tellsLine (place : Nat) (line : String) :
    ∃ reason? outcome, TellsLine (Report.lineAt place line) reason? outcome
      ∧ ofLine (place + 1) line = reason?.toList ++ [outcome] := by
  cases hstatement : Statement.ofLine? line with
  | some statement =>
    refine ⟨none, _, .of_outcome (tellsOutcome_of_some place hstatement) ?_
      (by simp), ?_⟩
    · exact iff_of_false (by simp) (not_refused_of_some hstatement)
    · rw [ofLine, hstatement]
      rfl
  | none =>
    -- Only a line without a comment can be said to be no statement.
    have hcomment : Comment.ofLine? line = none := by
      rw [Statement.ofLine?] at hstatement
      cases hcomment : Comment.ofLine? line with
      | none => rfl
      | some comment => simp [hcomment] at hstatement
    have hmarker := Comment.ofLine?_eq_none_iff.mp hcomment
    obtain ⟨reason?, hreason, hsome, htells⟩ := exists_reason line
    refine ⟨reason?, _, .of_outcome (tellsOutcome_of_none place hstatement)
      ?_ htells, ?_⟩
    · rw [hsome]
      exact (and_iff_right hmarker).symm
    · rw [ofLine, hstatement, hreason]

/-! ### What is told of a text -/

/-- What is told of the lines, one after the other. -/
def told (lines : List (Option Event × Event)) : List Event :=
  lines.flatMap fun line => line.1.toList ++ [line.2]

/-- What is told of each line, from its entry. -/
abbrev TellsLines (entries : List Report.Line)
    (lines : List (Option Event × Event)) : Prop :=
  List.Forall₂ (fun entry line => TellsLine entry line.1 line.2) entries
    lines

/-- What is told of a text: of each line in turn, and then of the end. -/
inductive TellsText (text : String) (report : Report) :
    List Event → Prop where
  | finished {lines : List (Option Event × Event)} {last : Event}
      (hnumbers : (report.lines.toList.map fun entry =>
        (entry.text, entry.number)) = (Text.lines text).zipIdx 1)
      (hlines : TellsLines report.lines.toList lines)
      (hlast : last = .finished report.lines.size report.recognized)
      (hwords : last.Says .debug "parse finished") :
      TellsText text report (told lines ++ [last])

/-- What the trace has of some lines in a row is what is told of their
entries. The trace counts lines from one and the report places from zero,
so that both numbers grow along the list. -/
theorem exists_tellsLines (place : Nat) (texts : List String) :
    ∃ lines, TellsLines
        ((texts.zipIdx place).map fun (text, place) =>
          Report.lineAt place text) lines
      ∧ ((texts.zipIdx (place + 1)).flatMap fun (text, number) =>
          ofLine number text) = told lines := by
  induction texts generalizing place with
  | nil => exact ⟨[], .nil, rfl⟩
  | cons text texts ih =>
    obtain ⟨reason?, outcome, hline, hevents⟩ := exists_tellsLine place text
    obtain ⟨lines, hlines, hrest⟩ := ih (place + 1)
    refine ⟨(reason?, outcome) :: lines, .cons hline hlines, ?_⟩
    rw [List.zipIdx_cons, List.flatMap_cons, hrest]
    show ofLine (place + 1) text ++ told lines = _
    rw [hevents]
    rfl

/-- One event of a line is that of a recognized line, if the line is
recognized, and else none. -/
theorem TellsLine.countP_isRecognized {entry : Report.Line}
    {reason? : Option Event} {outcome : Event}
    (h : TellsLine entry reason? outcome) :
    (reason?.toList ++ [outcome]).countP (·.isRecognized)
      = if entry.isRecognized then 1 else 0 := by
  have hreason : reason?.toList.countP (·.isRecognized) = 0 := by
    rw [List.countP_eq_zero]
    intro event hevent
    obtain ⟨half, cause, -, -, htells⟩ :=
      h.reason event (Option.mem_toList.mp hevent)
    cases htells with
    | danglingSide heq => simp [heq, Event.isRecognized]
    | secondKey heq => simp [heq, Event.isRecognized]
  rw [List.countP_append, hreason, Nat.zero_add, List.countP_singleton]
  cases h.tellsOutcome with
  | recognized htrue heq => rw [heq, htrue]; rfl
  | unrecognized hfalse heq => rw [heq, hfalse]; rfl

/-- As many lines are told to be recognized as have a recognized entry. -/
theorem countP_told {entries : List Report.Line}
    {lines : List (Option Event × Event)} (h : TellsLines entries lines) :
    (told lines).countP (·.isRecognized)
      = entries.countP (·.isRecognized) := by
  induction h with
  | nil => rfl
  | @cons entry line entries lines hline _ ih =>
    -- An entry counts for one if it is recognized, and so do the events
    -- of its line.
    have hhead := hline.countP_isRecognized
    rw [told] at ih ⊢
    rw [List.flatMap_cons, List.countP_append, hhead, ih, List.countP_cons,
      Nat.add_comm]

/-- The trace of a text tells what there is to be told of its report. -/
theorem tellsText_ofText (text : String) :
    TellsText text ((∅ : Outline).read text).2 (ofText text) := by
  obtain ⟨lines, hlines, hevents⟩ := exists_tellsLines 0 (Text.lines text)
  rw [← Outline.toList_lines_read ∅] at hlines
  have hnumbers := Outline.numbered_lines_read ∅ text
  have hsize := (Outline.size_lines_read ∅ text).symm
  -- The trace counts its own events at the end, and the report its
  -- entries.
  have hrecognized :=
    (countP_told hlines).trans Array.countP_toList
  rw [ofText]
  simp only [hevents, hsize]
  rw [hrecognized]
  exact .finished hnumbers hlines rfl ⟨rfl, rfl⟩

/-! ### What is told of a load -/

/-- What is told of loading the script at a path: what is told of its
text, and then that it is loaded. Nothing is told of a load that fails. -/
inductive TellsLoad (read : String → Except ReadFailure ByteArray)
    (home : String) (path : ByteArray) : List Event → Prop where
  | loaded {script : Script} {text : String} {last : Event}
      (hload : Script.load read home path = .ok script)
      (hpath : Expands home path script.path)
      (hsource : Source.load read home path = .ok ⟨script.path, text⟩)
      (htext : TellsText text script.report (ofText text))
      (hlast : last = .loaded script.path script.report.lines.size
        script.report.recognized)
      (hwords : last.Says .info "loaded script") :
      TellsLoad read home path (ofText text ++ [last])
  | failed {fault : LoadError}
      (hload : Script.load read home path = .error fault) :
      TellsLoad read home path []

/-- The trace of a load tells what there is to be told of the load. -/
theorem tellsLoad_ofLoad (read : String → Except ReadFailure ByteArray)
    (home : String) (path : ByteArray) :
    TellsLoad read home path (ofLoad read home path) := by
  rw [ofLoad]
  cases hsource : Source.load read home path with
  | error fault =>
    exact .failed (by rw [Script.load, hsource]; rfl)
  | ok source =>
    have hload : Script.load read home path = .ok (.ofSource source) := by
      rw [Script.load, hsource]
      rfl
    have hloads := loads_load read home path
    rw [hload] at hloads
    exact .loaded hload hloads.expands hsource (tellsText_ofText source.text) rfl
      ⟨rfl, rfl⟩

/-- **The trace tells what the report says**, of every text and of every
script file. -/
theorem tellsText_and_tellsLoad :
    (∀ text, TellsText text ((∅ : Outline).read text).2 (ofText text))
      ∧ ∀ read home path,
        TellsLoad read home path (ofLoad read home path) :=
  ⟨tellsText_ofText, tellsLoad_ofLoad⟩

end Trace

end HotkeyScript
