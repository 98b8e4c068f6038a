import HotkeyScript.Proofs.Declaration.Alike
import HotkeyScript.Proofs.Declaration.Image
import HotkeyScript.Proofs.Outline.Search
import HotkeyScript.Proofs.Reading.Session

/-!
# `HotkeyScript.Proofs.Reading.Alike`: lines that say the same

Two lines that are alike, their blank characters and the case of their
letters apart, are the same kind of line. If they declare hotkeys, these
have one trigger. So whoever has read the one line finds the hotkey of
the other.

* `Statement.ofLine?_alike`: what two lines of a script say. Both or none
  of them hold the comment marker, which has no case.
* `ReadAlike` and `readAlike_of_alike`: the statements, the declarations
  and the searches.
-/

set_option autoImplicit false

namespace HotkeyScript

/-! ### The comment marker -/

/-- A mark stands in both of two texts that differ in case, or in
neither. -/
theorem mem_mark_iff {text other : List Char} {mark : Char}
    (hmark : mark ∈ Modifier.symbols ++ [':', '&', ';'])
    (h : List.Forall₂ Text.SameLetter text other) :
    mark ∈ text ↔ mark ∈ other := by
  induction h with
  | nil => rfl
  | cons hletter _ ih =>
    rw [List.mem_cons, List.mem_cons, ih, @eq_comm _ mark,
      @eq_comm _ mark, eq_mark_iff hletter hmark]

/-- The marker of comments is neither blank nor a letter, so it stands in
both lines or in neither. -/
theorem comment_marker_mem_iff {line other : List Char}
    (h : Text.Alike line other) :
    Comment.marker ∈ line ↔ Comment.marker ∈ other := by
  have hsqueeze (text : List Char) :
      Comment.marker ∈ Text.squeeze text ↔ Comment.marker ∈ text := by
    have hblank : Text.isBlank Comment.marker = false := by decide
    simp [Text.squeeze, hblank]
  rw [← hsqueeze line, ← hsqueeze other]
  exact mem_mark_iff (by decide) h

/-! ### Statements -/

/-- Nothing twice, two comments, or two hotkeys that are alike. -/
inductive Statement.SameKind :
    Option Statement → Option Statement → Prop where
  | none : SameKind none none
  | comment (a b : Comment) : SameKind (some (comment a)) (some (comment b))
  | hotkey {a b : Hotkey} (h : Hotkey.Alike a b) :
      SameKind (some (hotkey a)) (some (hotkey b))

section
variable {line other : String}

/-- Two lines that are alike say the same kind of thing, or nothing. -/
theorem Statement.ofLine?_alike
    (h : Text.Alike line.toList other.toList) :
    SameKind (ofLine? line) (ofLine? other) := by
  have hmarker := comment_marker_mem_iff h
  rw [← not_iff_not, ← Comment.ofLine?_eq_none_iff,
    ← Comment.ofLine?_eq_none_iff] at hmarker
  have hdeclaration := Declaration.ofLine_alike h
  rw [ofLine?, ofLine?, Hotkey.ofLine?, Hotkey.ofLine?]
  -- Both lines hold a comment or neither does, and their declarations
  -- have one outcome.
  generalize Comment.ofLine? line = comment at hmarker ⊢
  generalize Comment.ofLine? other = comment' at hmarker ⊢
  generalize Hotkey.ofLine line = reading at hdeclaration ⊢
  generalize Hotkey.ofLine other = reading' at hdeclaration ⊢
  cases comment with
  | some a =>
    cases comment' with
    | some b => exact .comment a b
    | none => cases hmarker.mpr rfl
  | none =>
    obtain rfl := hmarker.mp rfl
    cases hdeclaration with
    | ok hhotkey => exact .hotkey hhotkey
    | error _ => exact .none

/-- The hotkey of a line that was read agrees with the one of a line that
is alike. -/
theorem Reader.Holds.contains_of_alike {texts : List String}
    {outline : Outline} (hholds : Reader.Holds texts outline)
    (h : Text.Alike line.toList other.toList) {text : String}
    (htext : text ∈ texts) (hline : line ∈ Text.lines text)
    {hotkey : Hotkey}
    (hother : Statement.ofLine? other = some (.hotkey hotkey)) :
    outline.contains (.hotkey hotkey) = true := by
  have hkind := Statement.ofLine?_alike h
  rw [hother] at hkind
  cases hread : Statement.ofLine? line with
  | none =>
    rw [hread] at hkind
    cases hkind
  | some statement =>
    rw [hread] at hkind
    cases hkind with
    | @hotkey found _ hhotkey =>
      -- The hotkey that was read is one of the statements that are
      -- searched.
      have hmem : Statement.hotkey found ∈ Statement.ofText text :=
        List.mem_filterMap.mpr ⟨line, hline, hread⟩
      rw [hholds.flat.toWellFormed.contains_eq_any_statements,
        hholds.statements, List.any_eq_true]
      exact ⟨_, List.mem_flatMap.mpr ⟨text, htext, hmem⟩,
        hhotkey.sameTrigger⟩

end

/-! ### Reading -/

/-- What is the same of two lines. -/
structure ReadAlike (line other : String) : Prop where
  statement : Statement.SameKind (Statement.ofLine? line)
    (Statement.ofLine? other)
  declaration : SameOutcome DeclarationError.Alike Hotkey.Alike
    (Hotkey.ofLine line) (Hotkey.ofLine other)
  /-- What is found in a text with the one line is found by the other. -/
  contains : ∀ text, line ∈ Text.lines text →
    ∀ hotkey, Statement.ofLine? other = some (.hotkey hotkey) →
      ((∅ : Outline).read text).1.contains (.hotkey hotkey) = true
  /-- All readers of a session find it, whatever else they read. -/
  session : ∀ actions, Session.Related
    (fun texts outline => ∀ text ∈ texts, line ∈ Text.lines text →
      ∀ hotkey, Statement.ofLine? other = some (.hotkey hotkey) →
        outline.contains (.hotkey hotkey) = true)
    (Session.run Reader.texts actions) (Session.run Outline.reader actions)

/-- **Reading is blind to blank characters and to case.** -/
theorem readAlike_of_alike (line other : String)
    (h : Text.Alike line.toList other.toList) : ReadAlike line other where
  statement := Statement.ofLine?_alike h
  declaration := Declaration.ofLine_alike h
  contains text hline _ hother :=
    (Reader.holds_empty.read text).contains_of_alike h (by simp) hline
      hother
  session actions := by
    -- Each reader holds the outline of its texts, whatever the actions.
    have hrun := Session.related_run Reader.simulates_texts_outline actions
    have hcontains {texts : List String} {outline : Outline}
        (hholds : Reader.Holds texts outline) :
        ∀ text ∈ texts, line ∈ Text.lines text →
          ∀ hotkey, Statement.ofLine? other = some (.hotkey hotkey) →
            outline.contains (.hotkey hotkey) = true :=
      fun _ htext hline _ hother =>
        hholds.contains_of_alike h htext hline hother
    exact ⟨hrun.readers.imp fun _ _ hholds => hcontains hholds,
      hrun.finished.imp fun _ _ hholds => hcontains hholds⟩

/-- The signs of Kelvin and of Ohm are alike with letters, though not of
their length. -/
theorem readAlike_kelvin :
    Text.Alike "<^k & ω::x".toList " < ^\u212A&\u2126: :X".toList
      ∧ ReadAlike "<^k & ω::x" " < ^\u212A&\u2126: :X" := by
  have h : Text.Alike "<^k & ω::x".toList
      " < ^\u212A&\u2126: :X".toList := by
    unfold Text.Alike Text.SameLetter
    decide +kernel
  exact ⟨h, readAlike_of_alike _ _ h⟩

end HotkeyScript
