import HotkeyScript.Proofs.Declaration.Marker
import HotkeyScript.Proofs.Text.Trim

/-!
# `HotkeyScript.Proofs.Declaration.Grammar`: the verdict on a line

`Hotkey.ofLine` reads a line by a chain of tests, each of which may end
it. `Grammar line verdict` gives the verdict without an order of tests,
one rule for each way to end, in terms of the line without its blank
characters, of its last marker and of the number of joiners before
it. The halves are left to `Half.scan`.

* `HasKeyPart.ofLine_eq` and the lemmas around it: the tests up to the
  halves of the line. `read_of_ok`: what is left to do with the halves.
* `ofLine_eq_of_grammar`: what the grammar allows is the verdict of the
  chain. Each rule has to pass the tests before its own: a line with a
  marker is not blank, and a last marker determines its key part.
* `exists_grammar`: the grammar allows some verdict on every line, and
  hence exactly that of the chain.
* `ofLine_eq_iff_grammar`: both together, with the cut on which the
  grammar rests. It exists on every line with a marker, there is one
  only, and it stands between two characters.
-/

set_option autoImplicit false

namespace HotkeyScript

namespace Declaration

/-- The number of halves that the joiners of a key part set off. -/
def halves (keyPart : List Char) : Nat := keyPart.count joiner + 1

/-- Before the last marker of a line, its blank characters apart, stands
this key part. -/
def HasKeyPart (line : String) (keyPart : List Char) : Prop :=
  ∃ body, Cut (Text.squeeze line.toList) keyPart body

/-- The verdict on a line. -/
inductive Grammar (line : String) :
    Except DeclarationError Hotkey → Prop where
  /-- Nothing is left without the blank characters. -/
  | blank (hblank : Text.squeeze line.toList = []) :
      Grammar line (.error .blank)
  /-- Something is left, but no marker. -/
  | missingMarker (hblank : Text.squeeze line.toList ≠ [])
      (hmarker : ¬ marker.toList <:+: Text.squeeze line.toList) :
      Grammar line (.error .missingMarker)
  /-- The last marker stands at the start. -/
  | emptyKeyPart (hkey : HasKeyPart line []) :
      Grammar line (.error .emptyKeyPart)
  /-- There are two joiners or more, whatever stands between them. -/
  | tooManyHalves {keyPart : List Char} (hkey : HasKeyPart line keyPart)
      (hhalves : 3 ≤ halves keyPart) :
      Grammar line (.error (.tooManyHalves (halves keyPart)))
  /-- The half before the only joiner is refused. -/
  | leftHalf {left right : List Char} {cause : ScanError}
      (hkey : HasKeyPart line (left ++ joiner :: right))
      (hhalves : halves (left ++ joiner :: right) = 2)
      (hleft : Half.scan left = .error cause) :
      Grammar line (.error (.half cause))
  /-- The half behind it is refused, and the one before it is not. -/
  | rightHalf {left right : List Char} {first : Combo} {cause : ScanError}
      (hkey : HasKeyPart line (left ++ joiner :: right))
      (hhalves : halves (left ++ joiner :: right) = 2)
      (hleft : Half.scan left = .ok first)
      (hright : Half.scan right = .error cause) :
      Grammar line (.error (.half cause))
  /-- Both halves spell combos. -/
  | chord {left right : List Char} {first second : Combo}
      (hkey : HasKeyPart line (left ++ joiner :: right))
      (hhalves : halves (left ++ joiner :: right) = 2)
      (hleft : Half.scan left = .ok first)
      (hright : Half.scan right = .ok second) :
      Grammar line (.ok ⟨line, first, some second⟩)
  /-- There is no joiner, and the key part is refused. -/
  | half {keyPart : List Char} {cause : ScanError}
      (hkey : HasKeyPart line keyPart) (hne : keyPart ≠ [])
      (hhalves : halves keyPart = 1)
      (hscan : Half.scan keyPart = .error cause) :
      Grammar line (.error (.half cause))
  /-- There is no joiner, and the key part spells a combo. -/
  | single {keyPart : List Char} {combo : Combo}
      (hkey : HasKeyPart line keyPart) (hne : keyPart ≠ [])
      (hhalves : halves keyPart = 1)
      (hscan : Half.scan keyPart = .ok combo) :
      Grammar line (.ok ⟨line, combo, none⟩)

/-! ### The halves of a key part -/

/-- A key part falls into as many parts as its joiners set off. -/
theorem length_splitOn_joiner (keyPart : List Char) :
    (keyPart.splitOn joiner).length = halves keyPart := by
  rw [List.splitOn_eq_splitOnP, List.length_splitOnP, halves,
    List.count_eq_countP]

/-- Without a joiner there is nothing to split. -/
theorem splitOn_joiner_of_halves_eq_one {keyPart : List Char}
    (h : halves keyPart = 1) : keyPart.splitOn joiner = [keyPart] := by
  have hmem : joiner ∉ keyPart := by
    rw [← List.count_eq_zero]
    unfold halves at h
    omega
  exact List.splitOn_eq_singleton hmem

/-- At the only joiner, the key part falls into what stands before and
what stands behind. -/
theorem splitOn_joiner_of_halves_eq_two {left right : List Char}
    (h : halves (left ++ joiner :: right) = 2) :
    (left ++ joiner :: right).splitOn joiner = [left, right] := by
  have hcount : left.count joiner = 0 ∧ right.count joiner = 0 := by
    unfold halves at h
    rw [List.count_append, List.count_cons_self] at h
    omega
  have hleft := List.count_eq_zero.mp hcount.1
  have hright := List.count_eq_zero.mp hcount.2
  rw [List.splitOn_append_cons_self_of_not_mem hleft,
    List.splitOn_eq_singleton hright]

/-- A key part without a joiner is one half. -/
theorem ofKeyPart_of_halves_eq_one {keyPart : List Char}
    (h : halves keyPart = 1) :
    Halves.ofKeyPart keyPart = .ok ⟨keyPart, none⟩ := by
  rw [Halves.ofKeyPart, splitOn_joiner_of_halves_eq_one h]

/-- A key part with one joiner is what stands before it and behind. -/
theorem ofKeyPart_of_halves_eq_two {left right : List Char}
    (h : halves (left ++ joiner :: right) = 2) :
    Halves.ofKeyPart (left ++ joiner :: right)
      = .ok ⟨left, some right⟩ := by
  rw [Halves.ofKeyPart, splitOn_joiner_of_halves_eq_two h]

/-- A key part with more joiners is refused before any half is read. -/
theorem ofKeyPart_of_three_le_halves {keyPart : List Char}
    (h : 3 ≤ halves keyPart) :
    Halves.ofKeyPart keyPart
      = .error (.tooManyHalves (halves keyPart)) := by
  have hlength := length_splitOn_joiner keyPart
  rw [Halves.ofKeyPart]
  split
  -- A split into one part or two has fewer joiners.
  · next hsplit =>
      rw [hsplit, List.length_singleton] at hlength
      omega
  · next hsplit =>
      rw [hsplit, List.length_cons, List.length_singleton] at hlength
      omega
  · rw [hlength]

/-- A key part of two halves has a joiner somewhere. -/
theorem exists_append_of_halves_eq_two {keyPart : List Char}
    (h : halves keyPart = 2) :
    ∃ left right, keyPart = left ++ joiner :: right := by
  have hmem : joiner ∈ keyPart := by
    rw [← List.count_pos_iff]
    unfold halves at h
    omega
  exact List.append_of_mem hmem

/-! ### The chain of tests -/

/-- The first test trims the line where the others squeeze it. Both
agree on which lines are blank. -/
theorem trim_isEmpty_iff (line : List Char) :
    (Text.trim line).isEmpty = true ↔ Text.squeeze line = [] := by
  rw [List.isEmpty_iff, Text.trim_eq_nil_iff, Text.squeeze_eq_nil_iff]

/-- A blank line is refused by the first test. -/
theorem ofLine_of_squeeze_eq_nil {line : List Char}
    (h : Text.squeeze line = []) : Halves.ofLine line = .error .blank := by
  rw [Halves.ofLine, if_pos ((trim_isEmpty_iff line).mpr h)]

/-- A line with something on it but no marker is refused by the second. -/
theorem ofLine_of_no_marker {line : List Char}
    (h : Text.squeeze line ≠ [])
    (hmarker : ¬ marker.toList <:+: Text.squeeze line) :
    Halves.ofLine line = .error .missingMarker := by
  rw [Halves.ofLine, if_neg (mt (trim_isEmpty_iff line).mp h),
    (keyPart?_eq_none_iff _).mpr hmarker]

namespace HasKeyPart

variable {line : String} {keyPart : List Char}

/-- A line with a marker is not blank. -/
theorem squeeze_ne_nil (h : HasKeyPart line keyPart) :
    Text.squeeze line.toList ≠ [] := by
  obtain ⟨body, hcut⟩ := h
  rw [hcut.eq_append, toList_marker]
  simp

/-- The search for the last marker finds the key part. -/
theorem keyPart?_eq (h : HasKeyPart line keyPart) :
    keyPart? (Text.squeeze line.toList) = some keyPart :=
  (keyPart?_eq_some_iff _ keyPart).mpr h

/-- With nothing before the marker the line is refused by the third test. -/
theorem ofLine_nil (h : HasKeyPart line []) :
    Halves.ofLine line.toList = .error .emptyKeyPart := by
  rw [Halves.ofLine, if_neg (mt (trim_isEmpty_iff _).mp h.squeeze_ne_nil),
    h.keyPart?_eq]

/-- A key part that passes the three tests is divided into its halves. -/
theorem ofLine_eq (h : HasKeyPart line keyPart) (hne : keyPart ≠ []) :
    Halves.ofLine line.toList = Halves.ofKeyPart keyPart := by
  rw [Halves.ofLine, if_neg (mt (trim_isEmpty_iff _).mp h.squeeze_ne_nil),
    h.keyPart?_eq]
  cases keyPart with
  | nil => exact absurd rfl hne
  | cons c keyPart => rfl

/-- The line of a single half passes all tests, and its key part is the
half. -/
theorem ofLine_single (h : HasKeyPart line keyPart) (hne : keyPart ≠ [])
    (hhalves : halves keyPart = 1) :
    Halves.ofLine line.toList = .ok ⟨keyPart, none⟩ := by
  rw [h.ofLine_eq hne, ofKeyPart_of_halves_eq_one hhalves]

/-- The line of a chord passes all tests, and its halves are what stands
before the joiner and behind it. -/
theorem ofLine_chord {left right : List Char}
    (h : HasKeyPart line (left ++ joiner :: right))
    (hhalves : halves (left ++ joiner :: right) = 2) :
    Halves.ofLine line.toList = .ok ⟨left, some right⟩ := by
  rw [h.ofLine_eq (by simp), ofKeyPart_of_halves_eq_two hhalves]

/-- The line of more halves than a chord has. They are too many to be
none, so that the third test is passed. -/
theorem ofLine_tooManyHalves (h : HasKeyPart line keyPart)
    (hhalves : 3 ≤ halves keyPart) :
    Halves.ofLine line.toList
      = .error (.tooManyHalves (halves keyPart)) := by
  have hne : keyPart ≠ [] := by
    rintro rfl
    exact absurd hhalves (by decide)
  rw [h.ofLine_eq hne, ofKeyPart_of_three_le_halves hhalves]

end HasKeyPart

/-! ### Reading the halves -/

/-- A line without halves is refused as it is. -/
theorem read_of_error {line : List Char} {cause : DeclarationError}
    (h : Halves.ofLine line = .error cause) : read line = .error cause := by
  rw [read, h]
  rfl

/-- Of the halves of a line only the combos and the causes are kept. -/
theorem read_of_ok {line : List Char} {halves : Halves}
    (h : Halves.ofLine line = .ok halves) :
    read line
      = halves.read.mapError fun refused => .half refused.cause := by
  rw [read, h]
  rfl

section
variable {half left right : List Char} {combo first second : Combo}
  {cause : ScanError} {second? : Option (List Char)}

/-- A half that spells a combo is read as it. -/
theorem readHalf_of_ok (h : Half.scan half = .ok combo) :
    readHalf half = .ok combo := by
  rw [readHalf, h]
  rfl

/-- A half that spells none is refused together with its cause. -/
theorem readHalf_of_error (h : Half.scan half = .error cause) :
    readHalf half = .error ⟨half, cause⟩ := by
  rw [readHalf, h]
  rfl

/-- The only half is read alone, and there is no second combo. -/
theorem read_single_of_ok (h : Half.scan half = .ok combo) :
    Halves.read ⟨half, none⟩ = .ok (combo, none) := by
  rw [Halves.read, readHalf_of_ok h]
  rfl

/-- If the first half is refused, nothing else is read. -/
theorem read_of_first_error (h : Half.scan half = .error cause) :
    Halves.read ⟨half, second?⟩ = .error ⟨half, cause⟩ := by
  rw [Halves.read, readHalf_of_error h]
  rfl

/-- If the first half is read, so is the second. -/
theorem read_chord_of_ok (hleft : Half.scan left = .ok first)
    (hright : Half.scan right = .ok second) :
    Halves.read ⟨left, some right⟩ = .ok (first, some second) := by
  rw [Halves.read, readHalf_of_ok hleft]
  simp only [Option.mapM_some, readHalf_of_ok hright]
  rfl

/-- The second half is to blame if the first one is not. -/
theorem read_chord_of_error (hleft : Half.scan left = .ok first)
    (hright : Half.scan right = .error cause) :
    Halves.read ⟨left, some right⟩ = .error ⟨right, cause⟩ := by
  rw [Halves.read, readHalf_of_ok hleft]
  simp only [Option.mapM_some, readHalf_of_error hright]
  rfl

end

/-! ### The verdict -/

/-- The hotkey of a line is the combos that it declares, with the line
as it stands. -/
theorem ofLine_eq_map_read (line : String) :
    Hotkey.ofLine line
      = (read line.toList).map fun combos =>
          ⟨line, combos.1, combos.2⟩ := by
  unfold Hotkey.ofLine
  cases read line.toList <;> rfl

/-- What the grammar allows is the verdict of the chain of tests. -/
theorem ofLine_eq_of_grammar {line : String}
    {verdict : Except DeclarationError Hotkey}
    (h : Grammar line verdict) : Hotkey.ofLine line = verdict := by
  rw [ofLine_eq_map_read]
  cases h with
  -- Four rules end before a half is read, the others with what is read.
  | blank hblank =>
      rw [read_of_error (ofLine_of_squeeze_eq_nil hblank)]
      rfl
  | missingMarker hblank hmarker =>
      rw [read_of_error (ofLine_of_no_marker hblank hmarker)]
      rfl
  | emptyKeyPart hkey =>
      rw [read_of_error hkey.ofLine_nil]
      rfl
  | tooManyHalves hkey hhalves =>
      rw [read_of_error (hkey.ofLine_tooManyHalves hhalves)]
      rfl
  | leftHalf hkey hhalves hleft =>
      rw [read_of_ok (hkey.ofLine_chord hhalves), read_of_first_error hleft]
      rfl
  | rightHalf hkey hhalves hleft hright =>
      rw [read_of_ok (hkey.ofLine_chord hhalves),
        read_chord_of_error hleft hright]
      rfl
  | chord hkey hhalves hleft hright =>
      rw [read_of_ok (hkey.ofLine_chord hhalves),
        read_chord_of_ok hleft hright]
      rfl
  | half hkey hne hhalves hscan =>
      rw [read_of_ok (hkey.ofLine_single hne hhalves),
        read_of_first_error hscan]
      rfl
  | single hkey hne hhalves hscan =>
      rw [read_of_ok (hkey.ofLine_single hne hhalves),
        read_single_of_ok hscan]
      rfl

/-- Some rule applies to every line. With `ofLine_eq_of_grammar` this
makes the grammar exact. -/
theorem exists_grammar (line : String) :
    ∃ verdict, Grammar line verdict := by
  -- The tests in the order of the chain. Each rule has what the tests
  -- before it have left open.
  by_cases hblank : Text.squeeze line.toList = []
  · exact ⟨_, .blank hblank⟩
  by_cases hmarker : marker.toList <:+: Text.squeeze line.toList
  case neg => exact ⟨_, .missingMarker hblank hmarker⟩
  obtain ⟨keyPart, hkey⟩ := Cut.exists_of_infix hmarker
  by_cases hne : keyPart = []
  · subst hne
    exact ⟨_, .emptyKeyPart hkey⟩
  have hpos : 1 ≤ halves keyPart := Nat.le_add_left ..
  rcases Nat.lt_trichotomy (halves keyPart) 2 with hone | htwo | hthree
  · have hhalves : halves keyPart = 1 := by omega
    cases hscan : Half.scan keyPart with
    | error cause => exact ⟨_, .half hkey hne hhalves hscan⟩
    | ok combo => exact ⟨_, .single hkey hne hhalves hscan⟩
  · obtain ⟨left, right, rfl⟩ := exists_append_of_halves_eq_two htwo
    cases hleft : Half.scan left with
    | error cause => exact ⟨_, .leftHalf hkey htwo hleft⟩
    | ok first =>
        cases hright : Half.scan right with
        | error cause => exact ⟨_, .rightHalf hkey htwo hleft hright⟩
        | ok second => exact ⟨_, .chord hkey htwo hleft hright⟩
  · exact ⟨_, .tooManyHalves hkey hthree⟩

/-- **The verdict on a line** is the one that the grammar allows. The
cut at the last marker, on which the grammar rests, exists on a line
with a marker, is the only one, and falls between two characters. -/
theorem ofLine_eq_iff_grammar (line : String) :
    (∀ verdict, Hotkey.ofLine line = verdict ↔ Grammar line verdict)
      ∧ (marker.toList <:+: Text.squeeze line.toList →
        ∃ keyPart body, Cut (Text.squeeze line.toList) keyPart body
          ∧ ∀ keyPart' body', Cut (Text.squeeze line.toList) keyPart' body'
            → keyPart' = keyPart ∧ body' = body)
      ∧ ∀ keyPart,
        keyPart? (Text.squeeze line.toList) = some keyPart →
          (String.ofList keyPart).rawEndPos.IsValid
            (String.ofList (Text.squeeze line.toList)) := by
  refine ⟨fun verdict => ⟨?_, ofLine_eq_of_grammar⟩, ?_, ?_⟩
  -- Some verdict is allowed, and it is that of the chain.
  · rintro rfl
    obtain ⟨verdict, h⟩ := exists_grammar line
    rwa [ofLine_eq_of_grammar h]
  · intro hmarker
    obtain ⟨keyPart, body, hcut⟩ := Cut.exists_of_infix hmarker
    exact ⟨keyPart, body, hcut, fun _ _ hcut' => hcut'.unique hcut⟩
  · intro keyPart hfound
    obtain ⟨body, hcut⟩ := (keyPart?_eq_some_iff ..).mp hfound
    exact hcut.isValid_offset

end Declaration

end HotkeyScript
