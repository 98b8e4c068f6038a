import HotkeyScript.Record
import HotkeyScript.Proofs.Json.Presentation
import HotkeyScript.Proofs.Modifier.Relisting

/-!
# `HotkeyScript.Proofs.Record.Presentation`: what a record says, not how

A statement is read from its record, and what is read depends only on what
the record says: not on the order of its members, on members that no field
is named after, on how its modifiers are listed or on how its text is laid
out. The kind may stand behind the members that it decides about.

* `Combo.fields`, `Comment.fields`, `Hotkey.fields`, `Statement.fields`: the
  fields of each record.
* `Statement.PresentedBy`, `Statement.SpoiledBy`: the values that present a
  statement, and those that do so but for one fault, its own or one of a
  combo.
* `ofJson?_of_presentedBy`, `ofJson?_of_spoiledBy`: a combo and a statement
  are read from the former and not from the latter. `ofJson?_of_presents`
  and `ofJson?_of_spoils` say this of the fields of one record.
* `Statement.ReadsPresentations`, `Statement.readsPresentations`: the same of
  texts, which may lay out and spell the values in any way.
-/

set_option autoImplicit false

namespace HotkeyScript

open Json (Field FitsSome Given HasFields Presents SpelledOut Spoils Value)

/-! ### Fields -/

/-- The values that list the modifiers of a set. -/
def ModifierSet.WrittenBy (s : ModifierSet) (value : Value) : Prop :=
  ∃ text, s.ListedAs text ∧ value = .ofString text

/-- The fields of a combo. -/
def Combo.fields (combo : Combo) : List Field :=
  [.required "modifiers" combo.modifiers.WrittenBy,
   .optional "key" (fun key value => value = .ofString (String.singleton key))
     combo.key]

/-- The values that present a combo. -/
def Combo.PresentedBy (combo : Combo) (value : Value) : Prop :=
  Presents combo.fields value

/-- The values that present a combo but for a fault. -/
def Combo.SpoiledBy (combo : Combo) (value : Value) : Prop :=
  Spoils combo.fields value

/-- The field of a text. -/
def textField (text : String) : Field :=
  .required "text" (· = .ofString text)

/-- The field that says of what kind a statement is. -/
def kindField (kind : String) : Field :=
  .required "kind" (· = .ofString kind)

/-- The fields of a comment. -/
def Comment.fields (comment : Comment) : List Field :=
  [textField comment.text]

/-- The fields of a hotkey, given which values its combos may have. -/
def Hotkey.fields (hotkey : Hotkey) (first second : Combo → Value → Prop) :
    List Field :=
  [textField hotkey.text, .required "first" (first hotkey.first),
   .optional "second" second hotkey.second]

/-- The fields of a statement, its kind among them. -/
def Statement.fields : Statement → List Field
  | .comment c => kindField "comment" :: c.fields
  | .hotkey h =>
    kindField "hotkey" :: h.fields Combo.PresentedBy Combo.PresentedBy

/-- The values that present a statement. -/
def Statement.PresentedBy (statement : Statement) (value : Value) : Prop :=
  Presents statement.fields value

/-- The values that present a statement but for a fault of its own or of one
of its combos. -/
inductive Statement.SpoiledBy : Statement → Value → Prop where
  | own {statement : Statement} {value : Value}
      (h : Spoils statement.fields value) : SpoiledBy statement value
  | first {hotkey : Hotkey} {value : Value}
      (h : Presents (kindField "hotkey"
        :: hotkey.fields Combo.SpoiledBy Combo.PresentedBy) value) :
      SpoiledBy (.hotkey hotkey) value
  | second {hotkey : Hotkey} {value : Value} (hchord : hotkey.isChord = true)
      (h : Presents (kindField "hotkey"
        :: hotkey.fields Combo.PresentedBy Combo.SpoiledBy) value) :
      SpoiledBy (.hotkey hotkey) value

section
variable {value : Value}

/-! ### Combos -/

/-- A set is written with one of the values that list its modifiers. -/
theorem ModifierSet.writtenBy_toJson (s : ModifierSet) :
    s.WrittenBy s.toJson := ⟨_, s.listedAs_listing, rfl⟩

/-- A set is read from each of the values that list its modifiers. -/
theorem ModifierSet.ofJson?_of_writtenBy {s : ModifierSet}
    (h : s.WrittenBy value) : ModifierSet.ofJson? value = some s := by
  obtain ⟨text, htext, rfl⟩ := h
  exact ofListing?_of_listedAs htext

namespace Combo

variable {combo : Combo}

/-- The record of a combo has the same two members with a key and
without. -/
theorem toJson_eq (combo : Combo) :
    combo.toJson = .record
      [("modifiers", combo.modifiers.toJson),
       ("key", combo.key.elim .null (.ofString <| String.singleton ·))] := by
  obtain ⟨modifiers, key⟩ := combo
  cases key <;> rfl

/-- The record that is written for a combo presents it. -/
theorem presentedBy_toJson (combo : Combo) :
    combo.PresentedBy combo.toJson := by
  rw [toJson_eq]
  refine Given.presents (.member combo.modifiers.writtenBy_toJson
    (.member (Field.fits_optional (fun _ => ?_) combo.key) .nil))
  rfl

/-- A key is read from the text that is this key and nothing else. -/
theorem keyOfJson?_singleton (key : Char) :
    keyOfJson? (.ofString (String.singleton key)) = some key := by
  simp [keyOfJson?, Value.ofString, Value.text?]

/-- The fields of a combo have distinct names. -/
theorem nodup_names_fields (combo : Combo) :
    (Json.names combo.fields).Nodup := by
  show (["modifiers", "key"] : List String).Nodup
  decide

/-- A combo is read from each value that presents it. -/
theorem ofJson?_of_presentedBy (h : combo.PresentedBy value) :
    ofJson? value = some combo := by
  obtain ⟨slots, hread, hslots⟩ := h.fields? combo.nodup_names_fields
  obtain _ | ⟨hmodifiers, _ | ⟨hkey, ⟨⟩⟩⟩ := hslots
  obtain ⟨modifiers, rfl, hmodifiers⟩ := hmodifiers.required
  have hoptional : Json.readOptional? keyOfJson? _ = some combo.key :=
    hkey.readOptional? (fun key _ heq => heq ▸ keyOfJson?_singleton key) rfl
  -- The names as the reader writes them out, to rewrite with.
  have hnames :
      value.fields? ["modifiers", "key"] = some [some modifiers, _] := hread
  rw [ofJson?, hnames]
  simp only [ModifierSet.ofJson?_of_writtenBy hmodifiers, hoptional]
  rfl

/-- No combo is read from a value with a fault: only the modifiers are
needed, and they are not found. -/
theorem ofJson?_of_spoiledBy (h : combo.SpoiledBy value) :
    ofJson? value = none := by
  rw [ofJson?]
  split
  · next hread =>
    -- If the fields could be read, the modifiers would be missing, and
    -- the reader has matched on them.
    have hmissing := h.fields? combo.nodup_names_fields hread
    simp [fields, Field.required, Field.optional] at hmissing
  · rfl

/-- A combo with a fault is not `null`, so that no reader takes it for a
combo that is left out. -/
theorem ne_null_of_spoiledBy (h : combo.SpoiledBy value) : value ≠ .null := by
  rintro rfl
  cases h

/-- The values of a combo's members are texts and `null`. -/
theorem isSimple_of_fitsSome (h : FitsSome combo.fields value) :
    value.IsSimple := by
  obtain ⟨field, hfield, hfits⟩ := h
  simp only [fields, List.mem_cons, List.not_mem_nil, or_false] at hfield
  obtain rfl | rfl := hfield
  · obtain ⟨text, -, rfl⟩ := hfits
    exact .string text
  · obtain ⟨modifiers, key⟩ := combo
    cases key with
    | none => exact hfits ▸ .null
    | some key => exact hfits ▸ .string _

/-- The values that present a combo can be read. -/
theorem isReadable_of_presentedBy (h : combo.PresentedBy value) :
    value.isReadable = true :=
  h.isReadable fun _ hfits => (isSimple_of_fitsSome hfits).isReadable

/-- The values that present a combo but for a fault can be read just as
well. -/
theorem isReadable_of_spoiledBy (h : combo.SpoiledBy value) :
    value.isReadable = true :=
  h.isReadable fun _ hfits => (isSimple_of_fitsSome hfits).isReadable

/-- A combo is one level deep. -/
theorem isBoundedBy_of_presentedBy (h : combo.PresentedBy value)
    (depth : Nat) : value.isBoundedBy (depth + 1) = true :=
  h.isBoundedBy fun _ hfits => (isSimple_of_fitsSome hfits).isBoundedBy depth

end Combo

/-! ### Comments and hotkeys -/

/-- The members that are written for a comment are those of its fields. -/
theorem Comment.given_members (comment : Comment) :
    Given comment.fields comment.members := .member rfl .nil

/-- The fields of a comment, its kind among them, have distinct names. -/
theorem Comment.nodup_names_kind (comment : Comment) :
    (Json.names (kindField "comment" :: comment.fields)).Nodup := by
  show (["kind", "text"] : List String).Nodup
  decide

/-- The fields of a comment have distinct names without the kind too. -/
theorem Comment.nodup_names_fields (comment : Comment) :
    (Json.names comment.fields).Nodup :=
  (Json.nodup_names_cons.mp comment.nodup_names_kind).2

/-- A comment is read from each value that presents its fields. -/
theorem Comment.ofJson?_of_presents {comment : Comment}
    (h : Presents comment.fields value) :
    Comment.ofJson? value = some comment := by
  obtain ⟨slots, hread, hslots⟩ := h.fields? comment.nodup_names_fields
  obtain _ | ⟨htext, ⟨⟩⟩ := hslots
  obtain ⟨text, rfl, rfl⟩ := htext.required
  have hnames :
      value.fields? ["text"] = some [some (.ofString comment.text)] := hread
  rw [ofJson?, hnames]
  rfl

/-- No comment is read from a value with a fault, since a comment needs
its one field. -/
theorem Comment.ofJson?_of_spoils {comment : Comment}
    (h : Spoils comment.fields value) : Comment.ofJson? value = none := by
  rw [ofJson?]
  split
  · next hread =>
    have hmissing := h.fields? comment.nodup_names_fields hread
    simp [fields, textField, Field.required] at hmissing
  · rfl

namespace Hotkey

variable {hotkey : Hotkey} {first second : Combo → Value → Prop}

/-- The members of a hotkey are the same three with a second combo and
without. -/
theorem members_eq (hotkey : Hotkey) :
    hotkey.members =
      [("text", .ofString hotkey.text), ("first", hotkey.first.toJson),
       ("second", hotkey.second.elim .null Combo.toJson)] := by
  obtain ⟨text, first, second⟩ := hotkey
  cases second <;> rfl

/-- The members that are written for a hotkey are those of its fields. -/
theorem given_members (hotkey : Hotkey) :
    Given (hotkey.fields Combo.PresentedBy Combo.PresentedBy)
      hotkey.members := by
  rw [members_eq]
  exact .member rfl (.member hotkey.first.presentedBy_toJson
    (.member (Field.fits_optional Combo.presentedBy_toJson hotkey.second)
      .nil))

/-- The fields of a hotkey, its kind among them, have distinct names,
whichever values its combos may have. -/
theorem nodup_names_kind (hotkey : Hotkey)
    (first second : Combo → Value → Prop) :
    (Json.names (kindField "hotkey" :: hotkey.fields first second)).Nodup := by
  show (["kind", "text", "first", "second"] : List String).Nodup
  decide

/-- The fields of a hotkey have distinct names without the kind too. -/
theorem nodup_names_fields (hotkey : Hotkey)
    (first second : Combo → Value → Prop) :
    (Json.names (hotkey.fields first second)).Nodup :=
  (Json.nodup_names_cons.mp (hotkey.nodup_names_kind first second)).2

/-- Reading a hotkey comes down to reading its combos. -/
theorem ofJson?_of_presents (h : Presents (hotkey.fields first second) value) :
    ∃ found slot, first hotkey.first found
      ∧ (Field.optional "second" second hotkey.second).Fills slot
      ∧ ofJson? value = do
        let first ← Combo.ofJson? found
        let second ← Json.readOptional? Combo.ofJson? slot
        return ⟨hotkey.text, first, second⟩ := by
  obtain ⟨slots, hread, hslots⟩ :=
    h.fields? (hotkey.nodup_names_fields first second)
  obtain _ | ⟨htext, _ | ⟨hfirst, _ | ⟨hsecond, ⟨⟩⟩⟩⟩ := hslots
  obtain ⟨text, rfl, rfl⟩ := htext.required
  obtain ⟨found, rfl, hfound⟩ := hfirst.required
  refine ⟨found, _, hfound, hsecond, ?_⟩
  have hnames : value.fields? ["text", "first", "second"]
      = some [some (.ofString hotkey.text), some found, _] := hread
  rw [ofJson?, hnames]
  rfl

/-- A hotkey is read from each value that presents its fields, with combos
that are themselves presented in any way. -/
theorem ofJson?_of_presentedBy
    (h : Presents (hotkey.fields Combo.PresentedBy Combo.PresentedBy) value) :
    ofJson? value = some hotkey := by
  obtain ⟨found, slot, hfirst, hsecond, hread⟩ := ofJson?_of_presents h
  rw [hread, Combo.ofJson?_of_presentedBy hfirst,
    hsecond.readOptional? (fun _ _ => Combo.ofJson?_of_presentedBy) rfl]
  rfl

/-- No hotkey is read when there is a fault in its first combo. -/
theorem ofJson?_of_spoiled_first
    (h : Presents (hotkey.fields Combo.SpoiledBy second) value) :
    ofJson? value = none := by
  obtain ⟨found, slot, hfirst, -, hread⟩ := ofJson?_of_presents h
  rw [hread, Combo.ofJson?_of_spoiledBy hfirst]
  rfl

/-- No hotkey is read when there is a fault in its second combo. -/
theorem ofJson?_of_spoiled_second (hchord : hotkey.isChord = true)
    (h : Presents (hotkey.fields first Combo.SpoiledBy) value) :
    ofJson? value = none := by
  obtain ⟨found, slot, -, hsecond, hread⟩ := ofJson?_of_presents h
  -- A chord has a second combo, so that there is a value for it.
  obtain ⟨combo, hcombo⟩ := Option.isSome_iff_exists.mp hchord
  rw [hcombo] at hsecond
  have hnone : Json.readOptional? Combo.ofJson? slot = none := by
    cases slot with
    | none => cases hsecond
    | some spoiled =>
      have hspoiled : combo.SpoiledBy spoiled := hsecond
      rw [Json.readOptional?, Combo.ofJson?_of_spoiledBy hspoiled,
        Option.map_none]
      exact Combo.ne_null_of_spoiledBy hspoiled
  rw [hread, hnone]
  cases Combo.ofJson? found <;> rfl

/-- No hotkey is read from a value with a fault in its own fields. -/
theorem ofJson?_of_spoils (h : Spoils (hotkey.fields first second) value) :
    ofJson? value = none := by
  rw [ofJson?]
  split
  · next hread =>
    have hmissing := h.fields? (hotkey.nodup_names_fields first second) hread
    simp [fields, textField, Field.required, Field.optional] at hmissing
  · rfl

/-- The values of a hotkey's members are texts, combos and `null`. -/
theorem isSimple_or_combo (h : FitsSome (hotkey.fields first second) value) :
    value.IsSimple ∨ ∃ combo, first combo value ∨ second combo value := by
  obtain ⟨field, hfield, hfits⟩ := h
  simp only [fields, List.mem_cons, List.not_mem_nil, or_false] at hfield
  obtain rfl | rfl | rfl := hfield
  · exact .inl (hfits ▸ .string _)
  · exact .inr ⟨_, .inl hfits⟩
  · obtain ⟨text, first, second⟩ := hotkey
    cases second with
    | none => exact .inl (hfits ▸ .null)
    | some combo => exact .inr ⟨combo, .inr hfits⟩

end Hotkey

/-! ### Statements -/

namespace Statement

variable {kind : String} {fields : List Field}

/-- After the kind of a comment, a comment is read. -/
theorem ofKind?_comment (value : Value) :
    ofKind? "comment" value = (Comment.ofJson? value).map comment := rfl

/-- After the kind of a hotkey, a hotkey is read. -/
theorem ofKind?_hotkey (value : Value) :
    ofKind? "hotkey" value = (Hotkey.ofJson? value).map hotkey := rfl

/-- A record with one kind is read as that kind says, from its other
members. -/
theorem ofJson?_record {members : List (String × Value)}
    (hkind : members.filter (·.1 == "kind") = [("kind", .ofString kind)]) :
    ofJson? (.record members)
      = if (Value.record members).isBounded then
          ofKind? kind (.record (members.filter (·.1 != "kind")))
        else none := by
  unfold ofJson?
  rw [Json.record_eq, Json.record_eq, ← Json.filter_ne_named]
  cases (Value.object (members.map Json.named)).isBounded with
  | false => rfl
  | true =>
    simp only [Json.filter_named, hkind]
    rfl

/-- A record with no kind or several is not read. -/
theorem ofJson?_record_eq_none {members : List (String × Value)}
    (h : (members.filter (·.1 == "kind")).length ≠ 1) :
    ofJson? (.record members) = none := by
  unfold ofJson?
  rw [Json.record_eq]
  split
  · rfl
  · simp only [Json.filter_named]
    split
    · next heq =>
      have hone := congrArg List.length heq
      rw [List.length_map] at hone
      exact absurd hone h
    · rfl

/-- With its kind, a comment has two items and a hotkey has four. -/
theorem ofJson?_array_eq_none {items : List Value} (h : items.length ≠ 2)
    (h' : items.length ≠ 4) : ofJson? (.array items) = none := by
  unfold ofJson?
  split
  · rfl
  · split
    · next heq => cases heq
    · next kind fields heq =>
      cases heq
      rw [List.length_cons] at h h'
      -- Whatever the first item is, the others are not the fields of
      -- either kind, as there are too many or too few.
      have hcomment : Comment.ofJson? (.array fields) = none := by
        rw [Comment.ofJson?, Value.fields?, if_neg]
        intro hlength
        exact h (congrArg (· + 1) hlength)
      have hhotkey : Hotkey.ofJson? (.array fields) = none := by
        rw [Hotkey.ofJson?, Value.fields?, if_neg]
        intro hlength
        exact h' (congrArg (· + 1) hlength)
      rw [ofKind?, hcomment, hhotkey]
      simp
    · rfl

/-- The kind of a statement is found wherever it stands, and what else there
is presents the other fields. -/
theorem ofJson?_of_presents (h : Presents (kindField kind :: fields) value)
    (hnodup : (Json.names (kindField kind :: fields)).Nodup) :
    ∃ rest, Presents fields rest
      ∧ ofJson? value = if value.isBounded then ofKind? kind rest else none := by
  cases h with
  | @object members h =>
    obtain ⟨found, rfl, hfilter⟩ := h.exists_head hnodup id
    exact ⟨_, .object (h.tail hnodup), ofJson?_record hfilter⟩
  | @array items h =>
    obtain _ | ⟨rfl, hfields⟩ := h
    refine ⟨_, .array hfields, ?_⟩
    unfold ofJson?
    cases (Value.array _).isBounded <;> rfl

/-- A fault in the kind is seen at once, and one in the other fields when
they are read. An array with an item too few has the length of no kind. -/
theorem ofJson?_of_spoils (h : Spoils (kindField kind :: fields) value)
    (hnodup : (Json.names (kindField kind :: fields)).Nodup)
    (hlength : fields.length = 1 ∨ fields.length = 3)
    (hrest : ∀ rest, Spoils fields rest → ofKind? kind rest = none) :
    ofJson? value = none := by
  obtain ⟨members, rfl, hkind⟩ | ⟨members, found, rfl, rfl, hkind, hspoils⟩
    | ⟨items, rfl, hitems⟩ := h.head_or_tail hnodup id
  · exact ofJson?_record_eq_none hkind
  · rw [ofJson?_record hkind]
    split
    · exact hrest _ hspoils
    · rfl
  · exact ofJson?_array_eq_none (by omega) (by omega)

/-- The values of a hotkey's members, its kind among them. -/
theorem isSimple_or_combo {hotkey : Hotkey}
    {first second : Combo → Value → Prop}
    (h : FitsSome (kindField kind :: hotkey.fields first second) value) :
    value.IsSimple ∨ ∃ combo, first combo value ∨ second combo value := by
  cases Json.fitsSome_cons.mp h with
  | inl heq => exact .inl (heq ▸ .string _)
  | inr h => exact Hotkey.isSimple_or_combo h

/-- The record that is written for a statement presents it. -/
theorem presentedBy_toJson (statement : Statement) :
    statement.PresentedBy statement.toJson := by
  cases statement with
  | comment c => exact (Given.member rfl c.given_members).presents
  | hotkey h => exact (Given.member rfl h.given_members).presents

variable {statement : Statement}

/-- The values of a statement's members are texts, `null` and the combos
of a hotkey. -/
theorem isSimple_or_presentedBy (h : FitsSome statement.fields value) :
    value.IsSimple ∨ ∃ combo : Combo, combo.PresentedBy value := by
  cases statement with
  | comment c =>
    -- A comment has its kind and its text.
    simp only [Statement.fields, Comment.fields, Json.fitsSome_cons] at h
    obtain rfl | rfl | ⟨_, hmem, _⟩ := h
    · exact .inl (.string _)
    · exact .inl (.string _)
    · cases hmem
  | hotkey h' =>
    exact (isSimple_or_combo h).imp_right fun ⟨combo, hcombo⟩ =>
      ⟨combo, hcombo.elim id id⟩

/-- A combo in a statement lies in one container more, so that it may have
one less around it. -/
theorem isBounded_of_presentedBy (h : statement.PresentedBy value) :
    value.isBounded = true := by
  refine h.isBoundedBy fun value hfits => ?_
  -- The record itself is one of the 127 levels, and a combo is another.
  obtain hsimple | ⟨combo, hcombo⟩ := isSimple_or_presentedBy hfits
  · exact hsimple.isBoundedBy 126
  · exact Combo.isBoundedBy_of_presentedBy hcombo 125

/-- The values of a statement's members can be read. -/
theorem isReadable_of_fitsSome (h : FitsSome statement.fields value) :
    value.isReadable = true := by
  obtain hsimple | ⟨combo, hcombo⟩ := isSimple_or_presentedBy h
  · exact hsimple.isReadable
  · exact Combo.isReadable_of_presentedBy hcombo

/-- The values that present a statement can be read. -/
theorem isReadable_of_presentedBy (h : statement.PresentedBy value) :
    value.isReadable = true :=
  h.isReadable fun _ => isReadable_of_fitsSome

/-- A record with the fields of a hotkey can be read when the values of
its combos can, with a fault or without. -/
theorem isReadable_of_combos {hotkey : Hotkey}
    {first second : Combo → Value → Prop}
    (hfirst : ∀ combo value, first combo value → value.isReadable = true)
    (hsecond : ∀ combo value, second combo value → value.isReadable = true)
    (h : Presents (kindField kind :: hotkey.fields first second) value) :
    value.isReadable = true := by
  refine h.isReadable fun value hfits => ?_
  obtain hsimple | ⟨combo, hcombo | hcombo⟩ := isSimple_or_combo hfits
  · exact hsimple.isReadable
  · exact hfirst combo value hcombo
  · exact hsecond combo value hcombo

/-- The values that present a statement but for a fault can be read, be
the fault in the statement or in a combo. -/
theorem isReadable_of_spoiledBy (h : statement.SpoiledBy value) :
    value.isReadable = true := by
  cases h with
  | own h => exact h.isReadable fun _ => isReadable_of_fitsSome
  | first h =>
    exact isReadable_of_combos (fun _ _ => Combo.isReadable_of_spoiledBy)
      (fun _ _ => Combo.isReadable_of_presentedBy) h
  | second _ h =>
    exact isReadable_of_combos (fun _ _ => Combo.isReadable_of_presentedBy)
      (fun _ _ => Combo.isReadable_of_spoiledBy) h

/-- A statement is read from each value that presents it. -/
theorem ofJson?_of_presentedBy (h : statement.PresentedBy value) :
    ofJson? value = some statement := by
  have hbounded := isBounded_of_presentedBy h
  cases statement with
  | comment c =>
    obtain ⟨rest, hrest, hread⟩ := ofJson?_of_presents h c.nodup_names_kind
    rw [hread, if_pos hbounded, ofKind?_comment,
      Comment.ofJson?_of_presents hrest, Option.map_some]
  | hotkey h' =>
    obtain ⟨rest, hrest, hread⟩ :=
      ofJson?_of_presents h (h'.nodup_names_kind _ _)
    rw [hread, if_pos hbounded, ofKind?_hotkey,
      Hotkey.ofJson?_of_presentedBy hrest, Option.map_some]

/-- No statement is read from a record of a hotkey whose other members
give no hotkey. -/
theorem ofJson?_of_spoiled_combo {hotkey : Hotkey}
    {first second : Combo → Value → Prop}
    (h : Presents (kindField "hotkey" :: hotkey.fields first second) value)
    (hrest : ∀ rest, Presents (hotkey.fields first second) rest →
      Hotkey.ofJson? rest = none) :
    ofJson? value = none := by
  obtain ⟨rest, hpresents, hread⟩ :=
    ofJson?_of_presents h (hotkey.nodup_names_kind first second)
  rw [hread, ofKind?_hotkey, hrest rest hpresents, Option.map_none, ite_self]

/-- No statement is read from a value with a fault, whether the fault is
its own or one of a combo. -/
theorem ofJson?_of_spoiledBy (h : statement.SpoiledBy value) :
    ofJson? value = none := by
  cases h with
  | own h =>
    cases statement with
    | comment c =>
      refine ofJson?_of_spoils h c.nodup_names_kind (.inl rfl)
        fun rest hrest => ?_
      rw [ofKind?_comment, Comment.ofJson?_of_spoils hrest, Option.map_none]
    | hotkey h' =>
      refine ofJson?_of_spoils h (h'.nodup_names_kind _ _) (.inr rfl)
        fun rest hrest => ?_
      rw [ofKind?_hotkey, Hotkey.ofJson?_of_spoils hrest, Option.map_none]
  | first h =>
    exact ofJson?_of_spoiled_combo h fun _ => Hotkey.ofJson?_of_spoiled_first
  | second hchord h =>
    exact ofJson?_of_spoiled_combo h fun _ =>
      Hotkey.ofJson?_of_spoiled_second hchord

/-! ### Texts -/

/-- What is read from the text of a record depends only on what the record
says. -/
structure ReadsPresentations (statement : Statement) : Prop where
  /-- The record that is written is one that presents the statement. -/
  presents : statement.PresentedBy statement.toJson
  /-- The statement is read from every text of every such record. -/
  reads : ∀ {value : Value} {text : String}, statement.PresentedBy value →
    SpelledOut value.tokens text.toList →
    (Value.ofText? text).bind ofJson? = some statement
  /-- Nothing is read from a text of a record with a fault. -/
  refuses : ∀ {value : Value} {text : String}, statement.SpoiledBy value →
    SpelledOut value.tokens text.toList →
    (Value.ofText? text).bind ofJson? = none
  /-- Nothing is read if anything but white space follows. -/
  refusesMore : ∀ {value : Value} {text more : String},
    statement.PresentedBy value → SpelledOut value.tokens text.toList →
    (∃ c ∈ more.toList, Json.isSpace c = false) →
    (Value.ofText? (text ++ more)).bind ofJson? = none

/-- Every statement is read from its text **however it is presented**. -/
theorem readsPresentations (statement : Statement) :
    statement.ReadsPresentations where
  presents := statement.presentedBy_toJson
  reads hvalue htext := by
    rw [Value.ofText?_of_spelledOut (isReadable_of_presentedBy hvalue) htext,
      Option.bind_some, ofJson?_of_presentedBy hvalue]
  refuses hvalue htext := by
    rw [Value.ofText?_of_spelledOut (isReadable_of_spoiledBy hvalue) htext,
      Option.bind_some, ofJson?_of_spoiledBy hvalue]
  refusesMore hvalue htext hmore := by
    rw [Value.ofText?_append_eq_none (isReadable_of_presentedBy hvalue)
      (fun _ => hvalue.isNumeral_getLast?) htext hmore, Option.bind_none]

/-- The members in another order, the first combo as an array with its
modifiers listed anew, one member too many and none for the missing combo.
Nothing is read with a mark behind the text or without the kind. -/
theorem readsPresentations_reversed :
    let hotkey : Hotkey :=
      ⟨"^+a::", ⟨.single .ctrl ∪ .single .shift, some 'a'⟩, none⟩
    let combo : Value := .array [.ofString "SHIFT|CTRL |SHIFT", .ofString "a"]
    let members : List (String × Value) :=
      [("note", .bool true), ("first", combo), ("text", .ofString "^+a::")]
    let value : Value := .record (members ++ [("kind", .ofString "hotkey")])
    (Value.ofText? value.pretty).bind ofJson? = some (.hotkey hotkey)
      ∧ (Value.ofText? (value.pretty ++ " ,")).bind ofJson? = none
      ∧ (Value.ofText? (Value.record members).pretty).bind ofJson? = none := by
  intro hotkey combo members value
  -- The modifiers are listed in the other order, one of them twice, with
  -- a blank.
  have hmodifiers : hotkey.first.modifiers.ListedAs "SHIFT|CTRL |SHIFT" := by
    have hentries : hotkey.first.modifiers.entries
        = ["CTRL".toList, "SHIFT".toList] := by decide
    refine ⟨["SHIFT".toList, "CTRL".toList, "SHIFT".toList],
      ["SHIFT".toList, "CTRL ".toList, "SHIFT".toList], ?_, ?_, by decide⟩
    · intro entry
      simp only [hentries, List.mem_cons, List.not_mem_nil]
      tauto
    · exact .cons ⟨[], [], nofun, nofun, rfl⟩
        (.cons ⟨[], [' '], nofun, List.forall_mem_singleton.mpr rfl, rfl⟩
          (.cons ⟨[], [], nofun, nofun, rfl⟩ .nil))
  have hfirst : hotkey.first.PresentedBy combo :=
    .array (.cons ⟨_, hmodifiers, rfl⟩ (.cons rfl .nil))
  have hgiven : Given (hotkey.fields Combo.PresentedBy Combo.PresentedBy)
      [("text", .ofString "^+a::"), ("first", combo)] :=
    .member rfl (.member hfirst (.silent rfl .nil))
  have hnote : ∀ member ∈ [("note", Value.bool true)],
      member.1 ∉ Json.names (Statement.hotkey hotkey).fields
        ∧ member.2.IsSimple := by
    intro member hmember
    rw [List.mem_singleton.mp hmember]
    exact ⟨by decide, .bool true⟩
  -- The members stand in reverse, with one that is named after no field.
  have hpresented : (Statement.hotkey hotkey).PresentedBy value :=
    .object ⟨_, _, .member rfl hgiven, hnote,
      List.reverse_perm (("kind", _) :: members.reverse)⟩
  have hspoiled : (Statement.hotkey hotkey).SpoiledBy (.record members) :=
    .own (.omitted (.here trivial)
      ⟨_, _, .silent trivial hgiven, hnote,
       List.reverse_perm members.reverse⟩)
  have hreads := readsPresentations (.hotkey hotkey)
  exact ⟨hreads.reads hpresented value.spelledOut_pretty,
    hreads.refusesMore hpresented value.spelledOut_pretty ⟨',', by decide, rfl⟩,
    hreads.refuses hspoiled (Value.spelledOut_pretty _)⟩

end Statement

end

end HotkeyScript
