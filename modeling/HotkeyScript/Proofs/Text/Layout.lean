import HotkeyScript.Proofs.Text.Lines

/-!
# `HotkeyScript.Proofs.Text.Layout`: lines laid out as a text

Lines can be laid out as a text in many ways, since any number of breaks,
of either kind, may stand between two of them. A pair of a carriage
return and a line feed is two breaks, so a text has more lines than were
laid out. The others are empty.

* `Layout`: lines with breaks between them.
* `Layout.lines_text`: the lines of such a text. `filterMap_lines_text`
  is what remains without the empty ones.
* `Layout.getElem?_lines_text`, `Layout.place_or_eq_empty`: a line stands
  where the number of the breaks before it says, and an empty one
  everywhere else.
* `Layout.ofText`: the lines of a text with its own breaks.
  `text_ofText` says that this is the text again.
-/

set_option autoImplicit false

namespace HotkeyScript.Text

/-- A way to lay out lines as a text: breaks, at least one, after each
line but the last. -/
structure Layout (lines : List String) where
  /-- The lines that are ended, each with the breaks after it. -/
  ended : List (String × String)
  /-- The last line. -/
  last : String
  lines_eq : ended.map (·.1) ++ [last] = lines
  unbroken : ∀ line ∈ lines, Unbroken line
  breaks_ne : ∀ piece ∈ ended, piece.2 ≠ ""
  isBreak : ∀ piece ∈ ended, ∀ c ∈ piece.2.toList, isBreak c = true

namespace Layout

/-- Some lines with the breaks after them. -/
def textOf (ended : List (String × String)) : String :=
  String.join (ended.map fun piece => piece.1 ++ piece.2)

section
variable {lines : List String} (layout : Layout lines)

/-- The lines with their breaks. -/
def text : String := textOf layout.ended ++ layout.last

/-- What stands before the line at a place, the first place being 0. -/
def before (place : Nat) : String := textOf (layout.ended.take place)

end

/-- The lines that a line with breaks after it makes: itself, and an
empty one for each further break. -/
def block (piece : String × String) : List String :=
  piece.1 :: List.replicate (piece.2.length - 1) ""

/-- The text of some ended lines is the first of them with its breaks, and
then the text of the others. -/
theorem textOf_cons (piece : String × String)
    (ended : List (String × String)) :
    textOf (piece :: ended) = piece.1 ++ piece.2 ++ textOf ended := by
  rw [textOf, List.map_cons, String.join_cons]
  rfl

/-- Each break at the start of a text ends an empty line. -/
theorem lines_breaks_append {cs : List Char}
    (hcs : ∀ c ∈ cs, Text.isBreak c = true) (after : String) :
    Text.lines (String.ofList cs ++ after)
      = List.replicate cs.length "" ++ Text.lines after := by
  induction cs with
  | nil => simp
  | cons c cs ih =>
    rw [List.forall_mem_cons] at hcs
    have htext : String.ofList (c :: cs) ++ after
        = "" ++ String.singleton c ++ (String.ofList cs ++ after) := by
      rw [← String.toList_inj]
      simp
    rw [htext, lines_append_break "" _ hcs.1, ih hcs.2]
    rfl

/-- Breaks in a row have empty lines between them. -/
theorem lines_append_breaks_append {separator : String}
    (hne : separator ≠ "")
    (hbreaks : ∀ c ∈ separator.toList, Text.isBreak c = true)
    (before after : String) :
    Text.lines (before ++ separator ++ after)
      = Text.lines before
        ++ List.replicate (separator.length - 1) "" ++ Text.lines after := by
  obtain ⟨cs, rfl⟩ : ∃ cs, separator = String.ofList cs :=
    ⟨separator.toList, String.ofList_toList.symm⟩
  rw [String.toList_ofList] at hbreaks
  cases cs with
  | nil => exact absurd rfl hne
  | cons c cs =>
    rw [List.forall_mem_cons] at hbreaks
    have htext : before ++ String.ofList (c :: cs) ++ after
        = before ++ String.singleton c ++ (String.ofList cs ++ after) := by
      rw [← String.toList_inj]
      simp
    rw [htext, lines_append_break before _ hbreaks.1,
      lines_breaks_append hbreaks.2]
    simp

/-- A text that begins with ended lines has, for each of them, the line
and the empty ones between its breaks. -/
theorem lines_textOf_append {ended : List (String × String)}
    (hline : ∀ piece ∈ ended, Unbroken piece.1)
    (hne : ∀ piece ∈ ended, piece.2 ≠ "")
    (hbreaks : ∀ piece ∈ ended, ∀ c ∈ piece.2.toList,
      Text.isBreak c = true) (after : String) :
    Text.lines (textOf ended ++ after)
      = ended.flatMap block ++ Text.lines after := by
  -- Line by line: each one is cut off with its breaks.
  induction ended with
  | nil => simp [textOf]
  | cons piece ended ih =>
    rw [List.forall_mem_cons] at hline hne hbreaks
    rw [textOf_cons, String.append_assoc,
      lines_append_breaks_append hne.1 hbreaks.1, ih hline.2 hne.2 hbreaks.2,
      lines_of_unbroken hline.1, List.flatMap_cons, block]
    simp

section
variable {lines : List String} (layout : Layout lines)

/-- An ended line has no break in it. -/
theorem unbroken_fst {piece : String × String}
    (h : piece ∈ layout.ended) : Unbroken piece.1 := by
  have hmem : piece.1 ∈ layout.ended.map (·.1) ++ [layout.last] :=
    List.mem_append_left _ (List.mem_map_of_mem h)
  rw [layout.lines_eq] at hmem
  exact layout.unbroken _ hmem

/-- The last line has no break in it either. -/
theorem unbroken_last : Unbroken layout.last := by
  have hmem : layout.last ∈ layout.ended.map (·.1) ++ [layout.last] :=
    List.mem_append_right _ List.mem_cons_self
  rw [layout.lines_eq] at hmem
  exact layout.unbroken _ hmem

/-- The lines of the text: those that were laid out, and the empty ones
between breaks. -/
theorem lines_text :
    Text.lines layout.text
      = layout.ended.flatMap block ++ [layout.last] := by
  rw [text, lines_textOf_append (fun _ => layout.unbroken_fst)
    layout.breaks_ne layout.isBreak, lines_of_unbroken layout.unbroken_last]

/-- Where breaks stand in a row does not matter to what leaves out the
empty lines between them. -/
theorem filterMap_lines_text {α : Type} {f : String → Option α}
    (hf : f "" = none) :
    (Text.lines layout.text).filterMap f = lines.filterMap f := by
  -- Of a block only its first line can give anything.
  have hblock (piece : String × String) :
      (block piece).filterMap f = [piece.1].filterMap f := by
    rw [block, List.filterMap_cons, List.filterMap_replicate_of_none hf]
    rfl
  have hended : (layout.ended.flatMap block).filterMap f
      = (layout.ended.map (·.1)).filterMap f := by
    induction layout.ended with
    | nil => rfl
    | cons piece ended ih =>
      rw [List.flatMap_cons, List.filterMap_append, ih, hblock,
        ← List.filterMap_append]
      rfl
  rw [lines_text, List.filterMap_append, hended, ← List.filterMap_append,
    layout.lines_eq]

/-! ### Where the lines stand -/

/-- As many lines stand before a line as there are breaks. -/
theorem length_flatMap_take (place : Nat) :
    ((layout.ended.take place).flatMap block).length
      = (breaks (layout.before place)).length := by
  have hmem {piece : String × String}
      (h : piece ∈ layout.ended.take place) : piece ∈ layout.ended :=
    List.mem_of_mem_take h
  have hlines : Text.lines (layout.before place ++ "")
      = (layout.ended.take place).flatMap block ++ Text.lines "" :=
    lines_textOf_append (fun _ h => layout.unbroken_fst (hmem h))
      (fun _ h => layout.breaks_ne _ (hmem h))
      (fun _ h => layout.isBreak _ (hmem h)) ""
  rw [String.append_empty] at hlines
  have hlength := length_lines (layout.before place)
  rw [hlines, lines_of_unbroken (by simp [Unbroken]),
    List.length_append] at hlength
  exact Nat.succ.inj hlength

/-- All lines but the last are ended. -/
theorem length_eq : lines.length = layout.ended.length + 1 := by
  have h := congrArg List.length layout.lines_eq
  simpa using h.symm

/-- The line at a place comes after the breaks that stand before it. -/
theorem getElem?_lines_text {place : Nat} (h : place < lines.length) :
    (Text.lines layout.text)[(breaks (layout.before place)).length]?
      = some lines[place] := by
  have hle : place ≤ layout.ended.length := by
    have := layout.length_eq
    omega
  -- A block begins with its own line.
  have hhead (ended : List (String × String)) :
      (ended.flatMap block ++ [layout.last]).head?
        = (ended.map (·.1) ++ [layout.last]).head? := by
    cases ended <;> rfl
  -- What is left behind the first lines are the other lines.
  have hdrop := calc
    (layout.ended.drop place).map (·.1) ++ [layout.last]
    _ = (layout.ended.map (·.1) ++ [layout.last]).drop place := by
      rw [List.drop_append_of_le_length (by simpa using hle), List.map_drop]
    _ = lines.drop place := by rw [layout.lines_eq]
  have hsplit : layout.ended.flatMap block
      = (layout.ended.take place).flatMap block
        ++ (layout.ended.drop place).flatMap block := by
    rw [← List.flatMap_append, List.take_append_drop]
  rw [lines_text, hsplit, List.append_assoc, ← length_flatMap_take,
    List.getElem?_append_right (Nat.le_refl _), Nat.sub_self,
    ← List.head?_eq_getElem?, hhead, hdrop, List.head?_drop,
    List.getElem?_eq_getElem h]

/-- What is no first line of a block is empty. -/
theorem eq_length_or_eq_empty {ended : List (String × String)}
    {last line : String} {k : Nat}
    (h : (ended.flatMap block ++ [last])[k]? = some line) :
    (∃ place ≤ ended.length, k = ((ended.take place).flatMap block).length)
      ∨ line = "" := by
  induction ended generalizing k with
  | nil =>
    obtain ⟨hk, -⟩ := List.getElem?_eq_some_iff.mp h
    exact .inl ⟨0, Nat.le_refl _, Nat.lt_one_iff.mp hk⟩
  | cons piece ended ih =>
    rw [List.flatMap_cons, List.append_assoc] at h
    -- The place lies in the first block, where only the beginning counts,
    -- or behind it.
    by_cases hk : k < (block piece).length
    · rw [List.getElem?_append_left hk] at h
      cases k with
      | zero => exact .inl ⟨0, Nat.zero_le _, rfl⟩
      | succ k =>
        rw [block, List.getElem?_cons_succ] at h
        exact .inr (List.eq_of_mem_replicate (List.mem_of_getElem? h))
    · rw [List.getElem?_append_right (Nat.le_of_not_lt hk)] at h
      refine (ih h).imp_left ?_
      rintro ⟨place, hplace, heq⟩
      refine ⟨place + 1, Nat.succ_le_succ hplace, ?_⟩
      rw [List.take_succ_cons, List.flatMap_cons, List.length_append, ← heq]
      omega

/-- Every line of the text is one that was laid out, at the place that the
breaks before it give, or it is empty. -/
theorem place_or_eq_empty {line : String} {k : Nat}
    (h : (Text.lines layout.text)[k]? = some line) :
    (∃ place < lines.length, k = (breaks (layout.before place)).length)
      ∨ line = "" := by
  rw [lines_text] at h
  refine (eq_length_or_eq_empty h).imp_left ?_
  rintro ⟨place, hplace, heq⟩
  refine ⟨place, ?_, heq.trans (layout.length_flatMap_take place)⟩
  rw [layout.length_eq]
  exact Nat.lt_succ_of_le hplace

end

/-! ### The breaks of a text -/

/-- The lines of a text with the breaks of the text between them. -/
def ofText (text : String) : Layout (Text.lines text) where
  ended := (Text.lines text).dropLast.zip
    ((breaks text).map String.singleton)
  last := (Text.lines text).getLast (lines_ne_nil text)
  lines_eq := by
    rw [List.map_fst_zip (by simp [length_lines]),
      List.dropLast_concat_getLast]
  unbroken _ h := unbroken_of_mem_lines h
  breaks_ne piece h := by
    obtain ⟨c, -, hc⟩ := List.mem_map.mp (List.of_mem_zip h).2
    simp [← hc, ← String.toList_inj]
  isBreak piece h c hc := by
    obtain ⟨d, hd, hpiece⟩ := List.mem_map.mp (List.of_mem_zip h).2
    rw [← hpiece, String.toList_singleton, List.mem_singleton] at hc
    exact hc ▸ (List.mem_filter.mp hd).2

/-- The text of lines with one break each, character by character. -/
theorem toList_textOf_zip (lines : List String) (breaks : List Char) :
    (textOf (lines.zip (breaks.map String.singleton))).toList
      = (List.zipWith (· ++ ·) (lines.map String.toList)
          (breaks.map ([·]))).flatten := by
  induction lines generalizing breaks with
  | nil => rfl
  | cons line lines ih =>
    cases breaks with
    | nil => rfl
    | cons c breaks => simp [textOf_cons, ih]

/-- No character of a text is lost. -/
theorem text_ofText (text : String) : (ofText text).text = text := by
  have hspec := List.splitOnP_spec (p := Text.isBreak) text.toList
  have hpieces : (Text.lines text).map String.toList
      = text.toList.splitOnP Text.isBreak := by
    simp [Text.lines, Function.comp_def]
  have hlength : ((Text.lines text).dropLast.map String.toList).length
      = ((breaks text).map ([·])).length := by
    simp [length_lines]
  -- Splitting puts nothing aside: each part with the character that ended
  -- it gives the text again.
  rw [← hpieces, ← List.dropLast_concat_getLast (lines_ne_nil text),
    List.map_append, ← breaks, List.zipWith_append hlength,
    List.flatten_append] at hspec
  rw [← String.toList_inj, Layout.text, String.toList_append, ofText,
    toList_textOf_zip, ← hspec]
  simp

end Layout

end HotkeyScript.Text
