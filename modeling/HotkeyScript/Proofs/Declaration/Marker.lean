import HotkeyScript.Declaration

/-!
# `HotkeyScript.Proofs.Declaration.Marker`: the last marker of a text

The key part of a declaration is all that stands before its last `::`.
Colons may touch: in `a:::` the last marker begins at the second colon,
and the first colon is part of the key part. `keyPart?` finds the
marker as the first one of the reversed text.

* `Cut text keyPart body` says without a search that the last marker of
  `text` stands between `keyPart` and `body`: the body neither begins
  with a colon nor holds a marker.
* `keyPart?_eq_some_iff`: `keyPart?` finds exactly such a cut.
* `keyPart?_eq_none_iff`: it finds none exactly in a text without a
  marker.
* `Cut.unique`: a text is cut in one way only.
* `Cut.isValid_offset`: the cut never falls inside a character, when
  the text is taken as UTF-8 bytes.
-/

set_option autoImplicit false

namespace HotkeyScript.Declaration

/-- The marker in its two characters, for proofs about what stands right
before it or behind it. -/
theorem toList_marker : marker.toList = [':', ':'] := rfl

/-- A text that may stand behind the last marker: no marker begins in it
or with the last colon before it. -/
structure IsBody (body : List Char) : Prop where
  head : body.head? ≠ some ':'
  marker : ¬ marker.toList <:+: body

/-- The last marker of a text stands between these two parts. -/
structure Cut (text keyPart body : List Char) : Prop where
  eq_append : text = keyPart ++ marker.toList ++ body
  isBody : IsBody body

/-! ### The first marker

A text that is searched from its start. The part before the first
marker must not end with a colon, or that colon and the marker's first
one would be an earlier marker. -/

/-- The first marker is found behind a part that neither ends with a
colon nor holds a marker. -/
theorem afterMarker?_eq_some_iff (text rest : List Char) :
    afterMarker? text = some rest
      ↔ ∃ before, text = before ++ ':' :: ':' :: rest
        ∧ before.getLast? ≠ some ':' ∧ ¬ [':', ':'] <:+: before := by
  -- The search goes on where no marker begins, so what stands before the
  -- first marker grows by one character.
  induction text using afterMarker?.induct with
  | case1 => simp [afterMarker?]
  | case2 tail =>
      rw [afterMarker?]
      constructor
      · intro h
        cases h
        exact ⟨[], rfl, by simp, by simp⟩
      · rintro ⟨before, heq, hlast, hinfix⟩
        match before with
        | [] =>
            simp only [List.nil_append, List.cons.injEq, true_and] at heq
            rw [heq]
        | [b] =>
            obtain ⟨rfl, -⟩ := List.cons.inj heq
            exact absurd rfl hlast
        | b :: b' :: before =>
            -- Both colons of the marker would stand in `before`.
            obtain ⟨rfl, heq'⟩ := List.cons.inj heq
            obtain ⟨rfl, -⟩ := List.cons.inj heq'
            exact absurd ⟨[], before, rfl⟩ hinfix
  -- No marker begins at `c`.
  | case3 c tail hnot ih =>
      rw [afterMarker?.eq_3 c tail hnot, ih]
      constructor
      · rintro ⟨before, rfl, hlast, hinfix⟩
        refine ⟨c :: before, rfl, ?_, ?_⟩
        · cases before with
          | nil =>
              intro h
              obtain rfl : c = ':' := by simpa using h
              exact hnot _ rfl rfl
          | cons b before => rwa [List.getLast?_cons_cons]
        · intro h
          rcases List.infix_cons_iff.mp h with hhead | h
          · -- A marker at the front would be one of the whole text.
            obtain ⟨more, hmore⟩ := hhead
            obtain ⟨rfl, rfl⟩ := List.cons.inj hmore
            exact hnot _ rfl rfl
          · exact hinfix h
      · rintro ⟨before, heq, hlast, hinfix⟩
        cases before with
        | nil =>
            obtain ⟨rfl, rfl⟩ := List.cons.inj heq
            exact absurd rfl (hnot _ rfl)
        | cons b before =>
            obtain ⟨rfl, rfl⟩ := List.cons.inj heq
            refine ⟨before, rfl, ?_, fun h => hinfix (h.trans ?_)⟩
            · cases before with
              | nil => simp
              | cons b' before => rwa [List.getLast?_cons_cons] at hlast
            · exact List.infix_cons (List.infix_rfl)

/-- The search fails exactly in a text without a marker. -/
theorem afterMarker?_eq_none_iff (text : List Char) :
    afterMarker? text = none ↔ ¬ [':', ':'] <:+: text := by
  induction text using afterMarker?.induct with
  | case1 => simp [afterMarker?]
  | case2 tail =>
      have hinfix : [':', ':'] <:+: ':' :: ':' :: tail := ⟨[], tail, rfl⟩
      simp [afterMarker?, hinfix]
  | case3 c tail hnot ih =>
      have hhead : ¬ [':', ':'] <+: c :: tail := by
        rintro ⟨more, hmore⟩
        obtain ⟨rfl, rfl⟩ := List.cons.inj hmore
        exact hnot _ rfl rfl
      rw [afterMarker?.eq_3 c tail hnot, ih, List.infix_cons_iff]
      simp [hhead]

/-! ### The last marker -/

/-- The key part of a text is what stands before its last marker. -/
theorem keyPart?_eq_some_iff (text keyPart : List Char) :
    keyPart? text = some keyPart ↔ ∃ body, Cut text keyPart body := by
  rw [keyPart?, Option.map_eq_some_iff]
  constructor
  -- What the search asks of the text before the first marker is, read
  -- from the end, what a body is asked.
  · rintro ⟨rest, hfound, rfl⟩
    obtain ⟨before, heq, hlast, hinfix⟩ :=
      (afterMarker?_eq_some_iff ..).mp hfound
    refine ⟨before.reverse, ?_, ?_, ?_⟩
    · rw [← List.reverse_reverse text, heq, toList_marker]
      simp
    · rwa [List.head?_reverse]
    · rw [toList_marker]
      rwa [← List.reverse_infix, List.reverse_reverse]
  · rintro ⟨body, rfl, hhead, hmarker⟩
    refine ⟨keyPart.reverse, ?_, List.reverse_reverse _⟩
    rw [afterMarker?_eq_some_iff]
    refine ⟨body.reverse, ?_, ?_, ?_⟩
    · rw [toList_marker]
      simp
    · rwa [List.getLast?_reverse]
    · rw [toList_marker] at hmarker
      rwa [← List.reverse_infix, List.reverse_reverse]

/-- There is no key part exactly when there is no marker. A marker read
from the end is a marker. -/
theorem keyPart?_eq_none_iff (text : List Char) :
    keyPart? text = none ↔ ¬ marker.toList <:+: text := by
  rw [keyPart?, Option.map_eq_none_iff, afterMarker?_eq_none_iff,
    toList_marker, ← List.reverse_infix, List.reverse_reverse]
  rfl

namespace Cut

/-- A text is cut in one way only. The search finds each cut, and it finds
one key part. -/
theorem unique {text keyPart body keyPart' body' : List Char}
    (h : Cut text keyPart body) (h' : Cut text keyPart' body') :
    keyPart = keyPart' ∧ body = body' := by
  have hfound := (keyPart?_eq_some_iff text keyPart).mpr ⟨body, h⟩
  have hfound' := (keyPart?_eq_some_iff text keyPart').mpr ⟨body', h'⟩
  obtain rfl : keyPart = keyPart' :=
    Option.some.inj (hfound.symm.trans hfound')
  exact ⟨rfl,
    List.append_cancel_left (h.eq_append.symm.trans h'.eq_append)⟩

/-- A text with a marker has a last one. -/
theorem exists_of_infix {text : List Char} (h : marker.toList <:+: text) :
    ∃ keyPart body, Cut text keyPart body := by
  cases hfound : keyPart? text with
  | none => exact absurd h ((keyPart?_eq_none_iff text).mp hfound)
  | some keyPart =>
      exact ⟨keyPart, (keyPart?_eq_some_iff text keyPart).mp hfound⟩

/-- The number of bytes before the last marker is a place between two
characters of the text. -/
theorem isValid_offset {text keyPart body : List Char}
    (h : Cut text keyPart body) :
    (String.ofList keyPart).rawEndPos.IsValid (String.ofList text) := by
  rw [String.Pos.Raw.isValid_iff_exists_append]
  refine ⟨String.ofList keyPart, String.ofList (marker.toList ++ body),
    ?_, rfl⟩
  rw [h.eq_append, ← String.ofList_append, List.append_assoc]

end Cut

end HotkeyScript.Declaration
