import HotkeyScript.Proofs.Declaration.Image

/-!
# `HotkeyScript.Proofs.Declaration.Body`: what stands behind the marker

A line is cut at its last marker, so a marker in the body moves the cut
into the body. No line that declares a hotkey has been cut there. What
stands before the cut would then hold a marker too, and no half has room
for two colons: a colon is a key, and a half has one key at most.

* `ofLine_append`: a body without a marker has no part in the verdict.
* `Cut.isPrefix_of_marker`: no marker begins behind the last one.
* `exists_cut_of_ofLine`: the key part of a hotkey holds no marker.
* `ColonRun`, `SoleRun`: the runs of colons in a text, and the only one
  of two colons or more. `Cut.soleRun`: in the line of a hotkey it is
  the run that its marker ends.
* `ofLine_eq_of_body`: all this for any line.
-/

set_option autoImplicit false

namespace HotkeyScript

namespace Declaration

/-! ### Bodies without a marker -/

/-- A body leaves the key part as it is: the last marker is the one before
the body. -/
theorem hasKeyPart_append {d b : String}
    (hbody : IsBody (Text.squeeze b.toList)) :
    HasKeyPart (d ++ marker ++ b) (Text.squeeze d.toList) := by
  have hmarker : Text.squeeze marker.toList = marker.toList := by decide
  refine ⟨Text.squeeze b.toList, ?_, hbody⟩
  rw [String.toList_append, String.toList_append, Text.squeeze,
    List.filter_append, List.filter_append]
  show Text.squeeze d.toList ++ Text.squeeze marker.toList
    ++ Text.squeeze b.toList = _
  rw [hmarker]

/-- Two lines with one key part are read alike: nothing else of a line is
looked at. -/
theorem HasKeyPart.read_eq_read {line line' : String}
    {keyPart : List Char} (h : HasKeyPart line keyPart)
    (h' : HasKeyPart line' keyPart) :
    read line.toList = read line'.toList := by
  have hhalves : Halves.ofLine line.toList = Halves.ofLine line'.toList := by
    by_cases hne : keyPart = []
    · subst hne
      rw [h.ofLine_nil, h'.ofLine_nil]
    · rw [h.ofLine_eq hne, h'.ofLine_eq hne]
  rw [read, read, hhalves]

/-- A body may be empty. -/
theorem isBody_nil : IsBody [] where
  head := by simp
  marker := by simp [toList_marker]

/-- Whatever body stands behind the marker, the hotkey is that of the line
without it, but for its text. -/
theorem ofLine_append {d b : String}
    (hbody : IsBody (Text.squeeze b.toList)) :
    Hotkey.ofLine (d ++ marker ++ b)
      = (Hotkey.ofLine (d ++ marker)).map
          fun hotkey => { hotkey with text := d ++ marker ++ b } := by
  have hbare : HasKeyPart (d ++ marker ++ "") (Text.squeeze d.toList) :=
    hasKeyPart_append isBody_nil
  rw [String.append_empty] at hbare
  rw [ofLine_eq_map_read, ofLine_eq_map_read,
    (hasKeyPart_append hbody).read_eq_read hbare]
  cases read (d ++ marker).toList <;> rfl

/-! ### Markers before the last one -/

/-- Wherever a marker begins, what stands before it is within the key
part. -/
theorem Cut.isPrefix_of_marker {text keyPart body before after : List Char}
    (h : Cut text keyPart body)
    (htext : text = before ++ marker.toList ++ after) :
    before <+: keyPart := by
  rw [h.eq_append, toList_marker, List.append_assoc, List.append_assoc,
    List.append_eq_append_iff] at htext
  rcases htext with ⟨between, rfl, hrest⟩ | ⟨between, rfl, -⟩
  · -- The marker begins in the last one or behind it.
    match between with
    | [] => exact ⟨[], by simp⟩
    | [c] =>
      obtain ⟨-, rfl⟩ : c = ':' ∧ body = ':' :: after := by
        simpa [eq_comm] using hrest
      exact absurd rfl h.isBody.head
    | c :: c' :: between =>
      obtain ⟨-, -, rfl⟩ : c = ':' ∧ c' = ':'
          ∧ body = between ++ ':' :: ':' :: after := by
        simpa [eq_comm] using hrest
      refine absurd ⟨between, after, ?_⟩ h.isBody.marker
      rw [toList_marker, List.append_assoc]
      rfl
  · exact List.prefix_append before between

/-- Of two markers that have no colon in common, the first one stands in
the key part. -/
theorem Cut.infix_of_two_markers
    {text keyPart body before between after : List Char}
    (h : Cut text keyPart body)
    (htext : text
      = before ++ marker.toList ++ between ++ marker.toList ++ after) :
    marker.toList <:+: keyPart := by
  have hprefix := h.isPrefix_of_marker htext
  -- What stands before the second marker reaches past the first one.
  have hstands : marker.toList <:+: before ++ marker.toList ++ between :=
    ⟨before, between, rfl⟩
  exact hstands.trans hprefix.isInfix

/-! ### The key part of a hotkey -/

/-- A half that spells a combo holds no marker, since two colons would be
two keys. -/
theorem not_marker_infix_of_scan {half : List Char} {combo : Combo}
    (hscan : Half.scan half = .ok combo) :
    ¬ marker.toList <:+: half := by
  intro hstands
  obtain ⟨-, hkeys, -⟩ := Half.scan_eq_ok_iff_held.mp hscan
  have hcolons : Half.keys marker.toList = [':', ':'] := by decide
  -- The keys of a part are keys of the whole, and two are too many.
  have hsublist : (Half.keys marker.toList).Sublist (Half.keys half) :=
    hstands.sublist.filter _
  have hlength := hsublist.length_le
  rw [← hkeys, hcolons] at hlength
  cases hkey : combo.key <;> simp [hkey] at hlength

/-- A marker has no joiner in it, so it stands on one side of a joiner. -/
theorem infix_or_infix_of_joiner {left right : List Char}
    (h : marker.toList <:+: left ++ joiner :: right) :
    marker.toList <:+: left ∨ marker.toList <:+: right := by
  rw [toList_marker] at h ⊢
  -- Character by character: a marker at the front takes two characters,
  -- so it stands before the joiner or has the joiner as one of its own.
  induction left with
  | nil =>
    rcases List.infix_cons_iff.mp h with ⟨more, hmore⟩ | hright
    · exact absurd (List.cons.inj hmore).1 (by decide)
    · exact .inr hright
  | cons c left ih =>
    rcases List.infix_cons_iff.mp h with ⟨more, hmore⟩ | hrest
    · obtain ⟨rfl, htail⟩ := List.cons.inj hmore
      match left with
      | [] => exact absurd (List.cons.inj htail).1 (by decide)
      | c' :: left =>
        obtain ⟨rfl, -⟩ := List.cons.inj htail
        exact .inl ⟨[], left, rfl⟩
    · exact (ih hrest).imp_left List.infix_cons

/-- The key part of a hotkey holds no marker, and a colon at its end is
the key of the last combo. -/
theorem exists_cut_of_ofLine {line : String} {hotkey : Hotkey}
    (h : Hotkey.ofLine line = .ok hotkey) :
    ∃ keyPart body, Cut (Text.squeeze line.toList) keyPart body
      ∧ ¬ marker.toList <:+: keyPart
      ∧ (keyPart.getLast? = some ':' →
        (hotkey.second.getD hotkey.first).key = some ':') := by
  have hcolon : ':' ∉ Modifier.symbols := by decide
  obtain ⟨verdict, hgrammar⟩ := exists_grammar line
  obtain rfl : verdict = .ok hotkey :=
    (ofLine_eq_of_grammar hgrammar).symm.trans h
  -- Two rules of the grammar give a hotkey, that of a single half and
  -- that of a chord.
  cases hgrammar with
  | @single keyPart combo hkey _ _ hscan =>
    obtain ⟨body, hcut⟩ := hkey
    refine ⟨keyPart, body, hcut, not_marker_infix_of_scan hscan, ?_⟩
    intro hlast
    exact (Half.key_eq_some_iff hscan).mpr
      ⟨List.mem_of_getLast? hlast, hcolon⟩
  | @chord left right first second hkey _ hleft hright =>
    obtain ⟨body, hcut⟩ := hkey
    refine ⟨_, body, hcut, ?_, ?_⟩
    · intro hstands
      exact (infix_or_infix_of_joiner hstands).elim
        (not_marker_infix_of_scan hleft) (not_marker_infix_of_scan hright)
    · intro hlast
      rw [List.getLast?_append_cons] at hlast
      have hmem := List.mem_of_getLast? hlast
      have hne : ':' ≠ joiner := by decide
      exact (Half.key_eq_some_iff hright).mpr
        ⟨List.mem_of_ne_of_mem hne hmem, hcolon⟩

/-! ### Runs of colons -/

/-- A run of colons in a text that is as long as can be: no colon stands
right before it or right behind it. -/
structure ColonRun (text before : List Char) (length : Nat)
    (after : List Char) : Prop where
  eq_append : text = before ++ List.replicate length ':' ++ after
  start : before.getLast? ≠ some ':'
  stop : after.head? ≠ some ':'

/-- The only run of two colons or more in a text. -/
structure SoleRun (text before : List Char) (length : Nat)
    (after : List Char) : Prop
    extends ColonRun text before length after where
  two_le : 2 ≤ length
  sole : ∀ before' length' after',
    ColonRun text before' length' after' → 2 ≤ length' →
      before' = before ∧ length' = length ∧ after' = after

/-- In a run of two colons or more there is a marker. -/
theorem marker_infix_replicate {length : Nat} (h : 2 ≤ length) :
    marker.toList <:+: List.replicate length ':' := by
  obtain ⟨more, rfl⟩ := Nat.exists_eq_add_of_le h
  rw [List.replicate_add]
  exact (List.prefix_append _ _).isInfix

namespace ColonRun

variable {text before after before' after' : List Char}
  {length length' : Nat}

/-- Of two runs that begin at different places, each one lies apart from
the other. -/
theorem infix_of_length_lt (h : ColonRun text before length after)
    (h' : ColonRun text before' length' after')
    (hlt : before.length < before'.length) :
    List.replicate length ':' <:+: before'
      ∧ List.replicate length' ':' <:+: after := by
  have heq := h.eq_append.symm.trans h'.eq_append
  rw [List.append_assoc, List.append_assoc,
    List.append_eq_append_iff] at heq
  -- The second run begins behind the place of the first, so the question
  -- is only whether it begins within it.
  rcases heq with ⟨between, rfl, heq⟩ | ⟨between, rfl, -⟩
  · rcases List.append_eq_append_iff.mp heq with
      ⟨rest, rfl, rfl⟩ | ⟨rest, hreplicate, -⟩
    · exact ⟨⟨before, rest, by simp⟩, ⟨rest, after', by simp⟩⟩
    · -- The second run would begin right behind a colon of the first.
      exfalso
      rw [List.length_append] at hlt
      obtain ⟨init, c, rfl⟩ : ∃ init c, between = init ++ [c] := by
        rcases List.eq_nil_or_concat between with rfl | ⟨init, c, rfl⟩
        · simp at hlt
        · exact ⟨init, c, List.concat_eq_append⟩
      have hc : c ∈ List.replicate length ':' := by
        rw [hreplicate]
        simp
      obtain rfl := List.eq_of_mem_replicate hc
      exact h'.start (by simp)
  · rw [List.length_append] at hlt
    omega

/-- Runs that begin at one place end at one place. -/
theorem length_le (h : ColonRun text before length after)
    (h' : ColonRun text before length' after') : length' ≤ length := by
  have heq := h.eq_append.symm.trans h'.eq_append
  rw [List.append_assoc, List.append_assoc] at heq
  have heq := List.append_cancel_left heq
  by_contra hlt
  obtain ⟨more, rfl⟩ := Nat.exists_eq_add_of_lt (Nat.lt_of_not_le hlt)
  rw [Nat.add_assoc, List.replicate_add, List.append_assoc] at heq
  have hafter := List.append_cancel_left heq
  exact h.stop (by rw [hafter]; rfl)

/-- A run of two colons or more is the only one if no marker stands
before it or behind it. -/
theorem soleRun (h : ColonRun text before length after)
    (htwo : 2 ≤ length) (hbefore : ¬ marker.toList <:+: before)
    (hafter : ¬ marker.toList <:+: after) :
    SoleRun text before length after where
  toColonRun := h
  two_le := htwo
  sole before' length' after' h' htwo' := by
    -- A second run would hold a marker, and so would the text before the
    -- first run or the text behind it.
    have hmarker := marker_infix_replicate htwo'
    rcases Nat.lt_trichotomy before.length before'.length with
      hlt | hplace | hlt
    · have hstands := (h.infix_of_length_lt h' hlt).2
      exact absurd (hmarker.trans hstands) hafter
    · have heq := h.eq_append.symm.trans h'.eq_append
      rw [List.append_assoc, List.append_assoc] at heq
      obtain rfl : before = before' := (List.append_inj heq hplace).1
      obtain rfl : length' = length :=
        Nat.le_antisymm (h.length_le h') (h'.length_le h)
      have hrest := List.append_cancel_left heq
      exact ⟨rfl, rfl, (List.append_cancel_left hrest).symm⟩
    · have hstands := (h'.infix_of_length_lt h hlt).1
      exact absurd (hmarker.trans hstands) hbefore

end ColonRun

/-- Where the key part holds no marker, the last marker ends the only run
of two colons or more. A third colon is the last one of the key part. -/
theorem Cut.soleRun {text keyPart body : List Char}
    (h : Cut text keyPart body) (hmarker : ¬ marker.toList <:+: keyPart) :
    ∃ before length, SoleRun text before length body
      ∧ (length = 2 ∨ length = 3)
      ∧ (length = 3 ↔ keyPart.getLast? = some ':') := by
  -- A colon at the end of the key part joins the marker's run. No more
  -- than one does, since two would be a marker.
  by_cases hlast : keyPart.getLast? = some ':'
  · obtain ⟨before, rfl⟩ := List.getLast?_eq_some_iff.mp hlast
    have hstart : before.getLast? ≠ some ':' := by
      intro hcolon
      obtain ⟨front, rfl⟩ := List.getLast?_eq_some_iff.mp hcolon
      exact hmarker ⟨front, [], by simp [toList_marker]⟩
    have hrun : ColonRun text before 3 body :=
      ⟨by rw [h.eq_append, toList_marker]; simp, hstart, h.isBody.head⟩
    have hbefore : ¬ marker.toList <:+: before := fun hstands =>
      hmarker (hstands.trans (List.prefix_append before [':']).isInfix)
    exact ⟨before, 3, hrun.soleRun (by decide) hbefore h.isBody.marker,
      .inr rfl, fun _ => hlast, fun _ => rfl⟩
  · have hrun : ColonRun text keyPart 2 body :=
      ⟨h.eq_append, hlast, h.isBody.head⟩
    exact ⟨keyPart, 2,
      hrun.soleRun (Nat.le_refl 2) hmarker h.isBody.marker, .inl rfl,
      fun hthree => absurd hthree (by decide), fun hcolon =>
        absurd hcolon hlast⟩

/-! ### Lines -/

/-- The line of a hotkey, without its blank characters, is cut at the end
of its only run of two colons or more. -/
structure CutAtRun (text : List Char) (hotkey : Hotkey)
    (keyPart body before : List Char) (length : Nat) : Prop where
  cut : Cut text keyPart body
  run : SoleRun text before length body
  two_or_three : length = 2 ∨ length = 3
  /-- A third colon is the end of the key part, and a key. -/
  length_iff : length = 3 ↔ keyPart.getLast? = some ':'
  key : length = 3 → (hotkey.second.getD hotkey.first).key = some ':'

/-- **The body of a declaration.** Whatever stands behind a marker and
neither begins with a colon nor holds a marker changes nothing but the
text of the hotkey. Every line that declares a hotkey has such a body: it
follows the only run of two colons or more. So a line with two markers
apart from each other declares nothing. -/
theorem ofLine_eq_of_body :
    (∀ d b : String, IsBody (Text.squeeze b.toList) →
      Hotkey.ofLine (d ++ marker ++ b)
          = (Hotkey.ofLine (d ++ marker)).map
              fun hotkey => { hotkey with text := d ++ marker ++ b })
      ∧ (∀ line hotkey, Hotkey.ofLine? line = some hotkey →
        ∃ keyPart body before length,
          CutAtRun (Text.squeeze line.toList) hotkey keyPart body before
            length)
      ∧ ∀ (line : String) (before between after : List Char),
        Text.squeeze line.toList
            = before ++ marker.toList ++ between ++ marker.toList ++ after →
          Hotkey.ofLine? line = none
            ∧ ∀ hotkey, Statement.ofLine? line ≠ some (.hotkey hotkey) := by
  refine ⟨fun d b hbody => ofLine_append hbody, ?_, ?_⟩
  · intro line hotkey h
    obtain ⟨keyPart, body, hcut, hmarker, hkey⟩ :=
      exists_cut_of_ofLine (Hotkey.ofLine?_eq_some_iff.mp h)
    obtain ⟨before, length, hrun, hlength, hiff⟩ := hcut.soleRun hmarker
    exact ⟨keyPart, body, before, length, hcut, hrun, hlength, hiff,
      fun hthree => hkey (hiff.mp hthree)⟩
  -- A hotkey of such a line would have a marker in its key part.
  · intro line before between after htext
    have hnot : ∀ hotkey, Hotkey.ofLine? line ≠ some hotkey := by
      intro hotkey h
      obtain ⟨keyPart, body, hcut, hmarker, -⟩ :=
        exists_cut_of_ofLine (Hotkey.ofLine?_eq_some_iff.mp h)
      exact hmarker (hcut.infix_of_two_markers htext)
    refine ⟨Option.eq_none_iff_forall_ne_some.mpr hnot, ?_⟩
    intro hotkey h
    exact hnot hotkey (Statement.ofLine?_eq_hotkey_iff.mp h).2

/-- The colons of the first line are keys, its marker, or alone in its
body. The second line has a marker in its body, once its blank characters
are gone. -/
theorem ofLine_eq_of_body_of_lines :
    let line := ": & ::: x: y :"
    let hotkey : Hotkey := ⟨line, ⟨∅, some ':'⟩, some ⟨∅, some ':'⟩⟩
    (IsBody (Text.squeeze " x: y :".toList)
        ∧ Hotkey.ofLine line
          = (Hotkey.ofLine ": & :::").map
              fun hotkey => { hotkey with text := line })
      ∧ (Hotkey.ofLine? line = some hotkey
        ∧ ∃ keyPart body before length,
          CutAtRun (Text.squeeze line.toList) hotkey keyPart body before
            length)
      ∧ Text.squeeze "a::x : : y".toList
          = ['a'] ++ marker.toList ++ ['x'] ++ marker.toList ++ ['y']
        ∧ Hotkey.ofLine? "a::x : : y" = none := by
  intro line hotkey
  have hsqueeze : Text.squeeze " x: y :".toList = ['x', ':', 'y', ':'] := by
    decide
  have hbody : IsBody (Text.squeeze " x: y :".toList) := by
    rw [hsqueeze]
    exact ⟨by decide, by decide⟩
  have hagree : Hotkey.ofLine (": & :" ++ marker ++ " x: y :") = _ :=
    ofLine_eq_of_body.1 ": & :" " x: y :" hbody
  have hbare : ": & :" ++ marker = ": & :::" := by decide
  have happend : ": & :::" ++ " x: y :" = line := by decide
  rw [hbare, happend] at hagree
  have hline : Hotkey.ofLine? line = some hotkey := by decide
  have htext : Text.squeeze "a::x : : y".toList
      = ['a'] ++ marker.toList ++ ['x'] ++ marker.toList ++ ['y'] := by
    decide
  exact ⟨⟨hbody, hagree⟩, ⟨hline, ofLine_eq_of_body.2.1 _ _ hline⟩,
    htext, (ofLine_eq_of_body.2.2 _ _ _ _ htext).1⟩

end Declaration

end HotkeyScript
