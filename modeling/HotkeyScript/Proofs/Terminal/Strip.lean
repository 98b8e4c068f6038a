import HotkeyScript.Terminal

/-!
# `HotkeyScript.Proofs.Terminal.Strip`: what is left without the sequences

`strip` reads a text once and holds back what may yet become a sequence.
`Strips` is the same pass without anything held: a sequence is passed
over, and a character with which none begins is kept.

A text that is cut in two may have a sequence across the cut, so the parts
cannot always be stripped by themselves. They can if the second begins with
a character that goes on with no sequence. Such a character is the escape,
and so a style may be put around a text, or on again inside it, without
a change to what is left.

* `strips_iff`: `strip` is that pass.
* `stripFrom_append`: a cut before a character that goes on with no
  sequence.
* `strip_paint`: a text in a style, whatever sequences it holds itself.
* `Row`: pieces of output that can be stripped one by one.
  `Row.strip_render` says what is left of them, with colour or without.
-/

set_option autoImplicit false

namespace HotkeyScript.Terminal

/-! ### One pass -/

/-- The escape, its bracket, parameters and the letter that ends them. -/
def IsSequence (text : List Char) : Prop :=
  ∃ parameters, (∀ c ∈ parameters, isParameter c = true)
    ∧ text = escape :: '[' :: (parameters ++ ['m'])

/-- One pass from left to right over a text, and what it leaves. -/
inductive Strips : List Char → List Char → Prop where
  | nil : Strips [] []
  /-- A sequence is passed over. -/
  | sequence {sequence rest shown : List Char}
      (h : IsSequence sequence) (hrest : Strips rest shown) :
      Strips (sequence ++ rest) shown
  /-- A character is kept if no sequence begins with it. -/
  | keep {c : Char} {rest shown : List Char}
      (h : ∀ sequence, IsSequence sequence → ¬ sequence <+: c :: rest)
      (hrest : Strips rest shown) :
      Strips (c :: rest) (c :: shown)

/-! ### What is held back -/

/-- A character that may stand in a sequence behind its escape. -/
def goesOn (c : Char) : Bool := c == '[' || isParameter c || c == 'm'

/-- The beginning of a sequence as it is held, the latest first. -/
inductive IsHeld : List Char → Prop where
  | opened : IsHeld [escape]
  | parameters {parameters : List Char}
      (h : ∀ c ∈ parameters, isParameter c = true) :
      IsHeld (parameters ++ ['[', escape])

/-- A character that is no escape is kept when nothing is held. -/
theorem strip_cons_of_ne {c : Char} (h : c ≠ escape) (rest : List Char) :
    strip (c :: rest) = c :: strip rest := by
  rw [strip, stripFrom, if_neg h, strip]

/-- Behind the bracket, a parameter is held, the letter ends the sequence,
and anything else shows that there is none. -/
theorem stripFrom_cons_of_two_le {held : List Char} (h : 2 ≤ held.length)
    (c : Char) (rest : List Char) :
    stripFrom held (c :: rest)
      = if isParameter c then stripFrom (c :: held) rest
        else if c = 'm' then strip rest
        else held.reverse ++ strip (c :: rest) := by
  match held with
  | d :: e :: held =>
    rw [stripFrom, strip, strip, stripFrom]
    · split
      · rfl
      · split
        · rfl
        · split <;> rfl
    · simp
    · simp

/-- A character that goes on with no sequence lets go what is held. -/
theorem stripFrom_cons_of_not_goesOn {c : Char} (h : goesOn c = false)
    (held rest : List Char) :
    stripFrom held (c :: rest) = held.reverse ++ strip (c :: rest) := by
  simp only [goesOn, Bool.or_eq_false_iff, beq_eq_false_iff_ne] at h
  obtain ⟨⟨hbracket, hparameter⟩, hletter⟩ := h
  match held with
  | [] => rfl
  | [e] =>
    rw [stripFrom, if_neg hbracket, strip, stripFrom]
    split <;> rfl
  | d :: e :: held =>
    rw [stripFrom_cons_of_two_le (by simp), if_neg (by simp [hparameter]),
      if_neg hletter]

/-- A text may be cut before such a character. -/
theorem stripFrom_append {back : List Char}
    (h : ∀ c, back.head? = some c → goesOn c = false)
    (held front : List Char) :
    stripFrom held (front ++ back) = stripFrom held front ++ strip back := by
  induction front generalizing held with
  | nil =>
    cases back with
    | nil => simp [stripFrom, strip]
    | cons c back =>
      rw [List.nil_append, stripFrom_cons_of_not_goesOn (h c rfl)]
      rfl
  | cons c front ih =>
    -- Nothing, an escape, or an escape and its bracket are held, as in
    -- `stripFrom`.
    match held with
    | [] =>
      simp only [List.cons_append, stripFrom, ih]
      split <;> rfl
    | [e] =>
      simp only [List.cons_append, stripFrom, ih]
      split
      · rfl
      · split <;> rfl
    | d :: e :: held =>
      simp only [List.cons_append, stripFrom, ih]
      split
      · rfl
      · split
        · rfl
        · split <;> simp

/-- Parameters are held when a bracket is. -/
theorem stripFrom_parameters {parameters : List Char}
    (h : ∀ c ∈ parameters, isParameter c = true) {held : List Char}
    (hheld : 2 ≤ held.length) (rest : List Char) :
    stripFrom held (parameters ++ rest)
      = stripFrom (parameters.reverse ++ held) rest := by
  induction parameters generalizing held with
  | nil => rfl
  | cons c parameters ih =>
    rw [List.forall_mem_cons] at h
    have hlonger : 2 ≤ (c :: held).length := Nat.le_succ_of_le hheld
    rw [List.cons_append, stripFrom_cons_of_two_le hheld, if_pos h.1,
      ih h.2 hlonger, List.reverse_cons, List.append_assoc]
    rfl

/-! ### `strip` is the pass -/

/-- A sequence is passed over. -/
theorem strip_sequence_append {sequence : List Char}
    (h : IsSequence sequence) (rest : List Char) :
    strip (sequence ++ rest) = strip rest := by
  obtain ⟨parameters, hparameters, rfl⟩ := h
  show stripFrom ['[', escape] ((parameters ++ ['m']) ++ rest) = strip rest
  rw [List.append_assoc, stripFrom_parameters hparameters (by simp),
    List.singleton_append, stripFrom_cons_of_two_le (by simp)]
  rfl

/-- What is held is let go if it becomes no sequence. -/
theorem stripFrom_held {held rest : List Char} (hheld : IsHeld held)
    (h : ∀ sequence, IsSequence sequence →
      ¬ sequence <+: held.reverse ++ rest) :
    stripFrom held rest = held.reverse ++ strip rest := by
  induction rest generalizing held with
  | nil => cases hheld <;> simp [stripFrom, strip]
  | cons c rest ih =>
    -- A character that stands in no sequence ends what is held. One that
    -- does is held as well, or ends the sequence.
    cases hgoes : goesOn c with
    | false => exact stripFrom_cons_of_not_goesOn hgoes held rest
    | true =>
      have hescape : c ≠ escape := by
        rintro rfl
        exact absurd hgoes (by decide)
      -- Behind the escape only a bracket goes on, and behind the bracket
      -- only parameters and the letter.
      cases hheld with
      | opened =>
        rw [stripFrom, if_neg hescape, strip_cons_of_ne hescape]
        split
        · next hbracket =>
          subst hbracket
          exact ih (@IsHeld.parameters [] nofun) h
        · rfl
      | @parameters parameters hparameters =>
        rw [stripFrom_cons_of_two_le (by simp)]
        split
        · next hparameter =>
          have hall : ∀ d ∈ c :: parameters, isParameter d = true :=
            List.forall_mem_cons.mpr ⟨hparameter, hparameters⟩
          rw [← List.cons_append, ih (.parameters hall) (by simpa using h),
            strip_cons_of_ne hescape]
          simp
        · split
          · next hletter =>
            subst hletter
            -- With the letter, what is held would be a sequence.
            refine absurd ?_ (h _ ⟨parameters.reverse, by simpa, rfl⟩)
            exact ⟨rest, by simp⟩
          · rfl

/-- A character is kept if no sequence begins with it, even if it is an
escape. -/
theorem strip_cons {c : Char} {rest : List Char}
    (h : ∀ sequence, IsSequence sequence → ¬ sequence <+: c :: rest) :
    strip (c :: rest) = c :: strip rest := by
  by_cases hescape : c = escape
  · subst hescape
    exact stripFrom_held .opened h
  · exact strip_cons_of_ne hescape rest

/-- What `strip` leaves is left by the pass. The pass moves on by a whole
sequence at times, so that this goes by the length of the text. -/
theorem strips_strip (text : List Char) : Strips text (strip text) := by
  match text with
  | [] => exact .nil
  | c :: rest =>
    by_cases h : ∃ sequence, IsSequence sequence ∧ sequence <+: c :: rest
    · obtain ⟨sequence, hsequence, back, hback⟩ := h
      have hshorter : back.length < (c :: rest).length := by
        obtain ⟨parameters, -, rfl⟩ := hsequence
        rw [← hback]
        simp only [List.length_append, List.length_cons]
        omega
      rw [← hback, strip_sequence_append hsequence]
      exact .sequence hsequence (strips_strip back)
    -- Otherwise no sequence begins here, so the character is kept.
    · have hnone : ∀ sequence, IsSequence sequence →
          ¬ sequence <+: c :: rest :=
        fun sequence hsequence hfix => h ⟨sequence, hsequence, hfix⟩
      rw [strip_cons hnone]
      exact .keep hnone (strips_strip rest)
termination_by text.length
decreasing_by
  · exact hshorter
  · exact Nat.lt_succ_self rest.length

/-- The pass leaves one text only, and `strip` finds it. -/
theorem strips_iff {text shown : List Char} :
    Strips text shown ↔ strip text = shown := by
  constructor
  · intro h
    induction h with
    | nil => rfl
    | sequence h _ ih => rw [strip_sequence_append h, ih]
    | keep h _ ih => rw [strip_cons h, ih]
  · rintro rfl
    exact strips_strip text

/-! ### A text in a style -/

/-- A text is stripped in two parts if the second begins with a character
that goes on with no sequence. -/
theorem strip_append {back : List Char}
    (h : ∀ c, back.head? = some c → goesOn c = false)
    (front : List Char) :
    strip (front ++ back) = strip front ++ strip back :=
  stripFrom_append h [] front

/-- What puts a style on is a sequence, since the codes of styles are
digits. -/
theorem isSequence_opening (style : Style) :
    IsSequence style.opening := by
  -- There are finitely many styles, and each has its codes.
  have hall : ([';'].intercalate style.codes).all isParameter = true := by
    obtain ⟨bold, dimmed, colour⟩ := style
    cases bold <;> cases dimmed <;>
      obtain _ | _ | _ | _ | _ | _ := colour <;> rfl
  exact ⟨_, List.all_eq_true.mp hall, rfl⟩

/-- What takes all styles off is a sequence. -/
theorem isSequence_reset : IsSequence reset :=
  ⟨['0'], List.all_eq_true.mp rfl, rfl⟩

/-- A sequence begins with the escape, which goes on with no other, so it
is passed over whatever stands before it. -/
theorem stripFrom_append_sequence_append {sequence : List Char}
    (h : IsSequence sequence) (held front rest : List Char) :
    stripFrom held (front ++ (sequence ++ rest))
      = stripFrom held front ++ strip rest := by
  have hhead : ∀ c, (sequence ++ rest).head? = some c →
      goesOn c = false := by
    obtain ⟨parameters, -, rfl⟩ := h
    rintro c hc
    cases hc
    rfl
  rw [stripFrom_append hhead, strip_sequence_append h]

/-- Putting a style on again changes nothing that is left. -/
theorem stripFrom_reopen {opening : List Char} (h : IsSequence opening)
    (held text : List Char) :
    stripFrom held (reopen opening text) = stripFrom held text := by
  induction text using reopen.induct generalizing held with
  -- The sequence that takes all styles off is in both texts, and the
  -- style that is put on again is passed over behind it.
  | case1 rest ih =>
    have hopened := stripFrom_append_sequence_append isSequence_reset held []
      (opening ++ reopen opening rest)
    have hplain :=
      stripFrom_append_sequence_append isSequence_reset held [] rest
    rw [strip_sequence_append h, strip, ih, ← strip, ← hplain] at hopened
    rwa [← List.append_assoc] at hopened
  | case2 c rest hreset ih =>
    rw [reopen.eq_2 opening c rest hreset]
    match held with
    | [] => simp only [stripFrom, ih]
    | [e] => simp only [stripFrom, ih]
    | d :: e :: held => simp only [stripFrom, ih]
  | case3 => rfl

/-- A style around a text changes nothing that is left. -/
theorem strip_paint (style : Style) (text : List Char) :
    strip (style.paint text) = strip text := by
  have hend := stripFrom_append_sequence_append isSequence_reset []
    (reopen style.opening text) []
  rw [List.append_nil, stripFrom_reopen (isSequence_opening style)] at hend
  rw [Style.paint, List.append_assoc,
    strip_sequence_append (isSequence_opening style), strip, hend]
  exact List.append_nil _

/-- A piece in a style leaves what its text leaves, with colour or
without. -/
theorem strip_render_styled (colour : Bool) (style : Style)
    (text : String) :
    strip ((Span.styled style text).render colour) = strip text.toList := by
  cases colour with
  | false => rfl
  | true => exact strip_paint style text.toList

/-! ### Pieces in a row -/

/-- A character that stands in no sequence. -/
def isOutside (c : Char) : Bool := !goesOn c && c != escape

/-- The text begins with such a character. -/
def BeginsOutside (text : String) : Prop :=
  ∃ c, text.toList.head? = some c ∧ isOutside c = true

/-- The text ends with such a character. -/
def EndsOutside (text : String) : Prop :=
  ∃ c, text.toList.getLast? = some c ∧ isOutside c = true

/-- A character outside all sequences goes on with none and begins
none. -/
theorem of_isOutside {c : Char} (h : isOutside c = true) :
    goesOn c = false ∧ c ≠ escape := by
  simpa [isOutside] using h

section
variable {text : String}

/-- How a text begins does not depend on what follows, if it is not
empty. -/
theorem BeginsOutside.append (h : BeginsOutside text) (back : String) :
    BeginsOutside (text ++ back) := by
  obtain ⟨c, hhead, hc⟩ := h
  exact ⟨c, by rw [String.toList_append, List.head?_append, hhead,
    Option.some_or], hc⟩

/-- How a text ends does not depend on what goes before, if it is not
empty. -/
theorem EndsOutside.append (h : EndsOutside text) (front : String) :
    EndsOutside (front ++ text) := by
  obtain ⟨c, hlast, hc⟩ := h
  exact ⟨c, by rw [String.toList_append, List.getLast?_append, hlast,
    Option.some_or], hc⟩

/-- A text may be cut before a piece that begins outside a sequence. -/
theorem BeginsOutside.strip_append (h : BeginsOutside text)
    (front back : List Char) :
    strip (front ++ (text.toList ++ back))
      = strip front ++ strip (text.toList ++ back) := by
  obtain ⟨c, hhead, hc⟩ := h
  refine Terminal.strip_append ?_ front
  intro d hd
  rw [List.head?_append, hhead, Option.some_or, Option.some.injEq] at hd
  exact hd ▸ (of_isOutside hc).1

/-- A text may be cut behind a piece that ends outside a sequence. -/
theorem EndsOutside.strip_append (h : EndsOutside text)
    (back : List Char) :
    strip (text.toList ++ back) = strip text.toList ++ strip back := by
  obtain ⟨c, hlast, hc⟩ := h
  obtain ⟨hgoes, hescape⟩ := of_isOutside hc
  obtain ⟨front, htext⟩ := List.getLast?_eq_some_iff.mp hlast
  -- The cut is before the last character, which is kept as it is.
  have hcut (rest : List Char) :
      strip (front ++ c :: rest) = strip front ++ c :: strip rest := by
    rw [← strip_cons_of_ne hescape]
    refine Terminal.strip_append ?_ front
    intro d hd
    cases hd
    exact hgoes
  rw [htext, List.append_assoc, List.singleton_append, hcut, hcut]
  simp [strip, stripFrom]

end

/-- Pieces of which the plain ones keep the styled ones apart, from one
another and from what goes before. -/
inductive Row : List Span → Prop where
  | nil : Row []
  | plain {text : String} {spans : List Span}
      (hends : EndsOutside text) (h : Row spans) :
      Row (.plain text :: spans)
  | styled {style : Style} {text between : String} {spans : List Span}
      (hbegins : BeginsOutside between) (hends : EndsOutside between)
      (h : Row spans) :
      Row (.styled style text :: .plain between :: spans)

/-- Two rows make a row: the first one ends with a plain piece. -/
theorem Row.append {spans spans' : List Span} (h : Row spans)
    (h' : Row spans') : Row (spans ++ spans') := by
  induction h with
  | nil => exact h'
  | plain hends _ ih => exact .plain hends ih
  | styled hbegins hends _ ih => exact .styled hbegins hends ih

/-- Rows for the items of a list make a row. -/
theorem Row.flatMap {α : Type} {spans : α → List Span}
    (h : ∀ a, Row (spans a)) (items : List α) :
    Row (items.flatMap spans) := by
  induction items with
  | nil => exact .nil
  | cons item items ih => exact (h item).append ih

/-- The text of a piece. -/
def Span.text : Span → String
  | plain text => text
  | styled _ text => text

/-- What is left of a row is what is left of its texts. -/
theorem Row.strip_render {spans : List Span} (h : Row spans)
    (colour : Bool) :
    strip (render colour spans).toList
      = spans.flatMap (strip ·.text.toList) := by
  rw [render, String.toList_ofList]
  induction h with
  | nil => rfl
  | plain hends _ ih =>
    rw [List.flatMap_cons, List.flatMap_cons, ← ih]
    exact hends.strip_append _
  | @styled style text between spans hbegins hends _ ih =>
    have hcut := hbegins.strip_append
      ((Span.styled style text).render colour)
      (spans.flatMap (Span.render colour))
    rw [strip_render_styled, hends.strip_append, ih] at hcut
    exact hcut

end HotkeyScript.Terminal
