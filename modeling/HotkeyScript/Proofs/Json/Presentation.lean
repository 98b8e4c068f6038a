import HotkeyScript.Proofs.Json.Members

/-!
# `HotkeyScript.Proofs.Json.Presentation`: the ways to present a record

The fields of a record say what it is, and one record can be presented by
many values. An object may have its members in any order, members that no
field is named after, and no member for a field that says nothing. An array
has an item for each field.

* `Field`: what the values of a field may be, and whether it may be missing.
* `HasFields`, `Presents`: the objects with given fields, and the values
  that present them. `Presents.fields?` reads the fields from each of them.
* `Spoils`: objects in which a field stands twice or a needed one is
  missing, and arrays without one of their items. `Spoils.fields?` says that
  no value is read for some field that needs one.
* `Presents.isReadable`, `Presents.isBoundedBy`: what holds of all values of
  the fields holds of what presents them.
-/

set_option autoImplicit false

namespace HotkeyScript.Json

/-- A field of a record. -/
structure Field where
  /-- The name of its member. -/
  name : String
  /-- The values that the member may have. -/
  fits : Value → Prop
  /-- Whether a record says the same without the field. -/
  silent : Prop
  /-- Whether there is no record without the field. -/
  needed : Prop

namespace Field

/-- A field that has to be there. -/
def required (name : String) (fits : Value → Prop) : Field where
  name := name
  fits := fits
  silent := False
  needed := True

/-- A field that may be missing or `null`. -/
def optional {α : Type} (name : String) (fits : α → Value → Prop)
    (content : Option α) : Field where
  name := name
  fits value := content.elim (value = .null) (fits · value)
  silent := content = none
  needed := False

/-- The field when it is left out. -/
def leftOut (field : Field) : Field :=
  { field with fits := fun _ => False, silent := True }

/-- What is found for a field: one of its values, or nothing where that
says the same. -/
def Fills (field : Field) : Option Value → Prop
  | some value => field.fits value
  | none => field.silent

/-- A field that has to be there is filled by a value only. -/
theorem Fills.required {name : String} {fits : Value → Prop}
    {slot : Option Value} (h : (required name fits).Fills slot) :
    ∃ value, slot = some value ∧ fits value := by
  cases slot with
  | none => exact h.elim
  | some value => exact ⟨value, rfl, h⟩

/-- Nothing fills a field that is left out. -/
theorem Fills.leftOut {field : Field} {slot : Option Value}
    (h : field.leftOut.Fills slot) : slot = none := by
  cases slot with
  | none => rfl
  | some value => exact h.elim

/-- A field that may be missing is read from what fills it, if nothing is
read from `null`. -/
theorem Fills.readOptional? {α : Type} {name : String}
    {fits : α → Value → Prop} {content : Option α} {slot : Option Value}
    (h : (Field.optional name fits content).Fills slot)
    {read? : Value → Option α}
    (hread : ∀ a value, fits a value → read? value = some a)
    (hnull : read? .null = none) :
    Json.readOptional? read? slot = some content := by
  cases content with
  | none =>
    cases slot with
    | none => rfl
    | some value =>
      have heq : value = .null := h
      rw [heq]
      rfl
  | some a =>
    cases slot with
    | none => cases h
    | some value =>
      have hvalue := hread a value h
      -- A value that is read is not `null`, so it is not taken for a
      -- missing one.
      have hne : value ≠ .null := by
        rintro rfl
        rw [hnull] at hvalue
        cases hvalue
      rw [Json.readOptional?, hvalue, Option.map_some]
      exact hne

/-- A field that may be missing has the value that is written for it. -/
theorem fits_optional {α : Type} {name : String} {fits : α → Value → Prop}
    {write : α → Value} (h : ∀ a, fits a (write a)) (content : Option α) :
    (optional name fits content).fits (content.elim .null write) := by
  cases content with
  | none => rfl
  | some a => exact h a

end Field

/-- A value that one of the fields may have. -/
def FitsSome (fields : List Field) (value : Value) : Prop :=
  ∃ field ∈ fields, field.fits value

/-- The names of fields. -/
def names (fields : List Field) : List String := fields.map (·.name)

/-- Members for fields, in the order of the fields. -/
inductive Given : List Field → List (String × Value) → Prop where
  | nil : Given [] []
  | member {field : Field} {fields : List Field} {value : Value}
      {members : List (String × Value)}
      (hvalue : field.fits value) (h : Given fields members) :
      Given (field :: fields) ((field.name, value) :: members)
  | silent {field : Field} {fields : List Field}
      {members : List (String × Value)}
      (hsilent : field.silent) (h : Given fields members) :
      Given (field :: fields) members

/-- A text, a truth value or `null`. -/
inductive Value.IsSimple : Value → Prop where
  | string (text : String) : IsSimple (.string (some text))
  | bool (value : Bool) : IsSimple (.bool value)
  | null : IsSimple .null

/-- Members for fields in any order, with simple members of other names
among them. -/
def HasFields (fields : List Field) (members : List (String × Value)) :
    Prop :=
  ∃ given extra, Given fields given
    ∧ (∀ member ∈ extra, member.1 ∉ names fields ∧ member.2.IsSimple)
    ∧ members.Perm (given ++ extra)

/-- The values that present fields. -/
inductive Presents (fields : List Field) : Value → Prop where
  | object {members : List (String × Value)} (h : HasFields fields members) :
      Presents fields (.record members)
  | array {items : List Value} (h : List.Forall₂ Field.fits fields items) :
      Presents fields (.array items)

/-- Fields of which one that is needed is left out. -/
inductive Omits : List Field → List Field → Prop where
  | here {field : Field} {fields : List Field} (h : field.needed) :
      Omits (field :: fields) (field.leftOut :: fields)
  | there {field : Field} {fields fields' : List Field}
      (h : Omits fields fields') :
      Omits (field :: fields) (field :: fields')

/-- The values that present fields but for one fault: a field has two
members, a needed one has none, or an array is without one of its items. -/
inductive Spoils (fields : List Field) : Value → Prop where
  | repeated {members members' : List (String × Value)} {name : String}
      {value : Value} (h : HasFields fields members)
      (hname : name ∈ names fields) (hmember : name ∈ members.map (·.1))
      (hvalue : value.isReadable = true)
      (hperm : members'.Perm ((name, value) :: members)) :
      Spoils fields (.record members')
  | omitted {fields' : List Field} {members : List (String × Value)}
      (homits : Omits fields fields') (h : HasFields fields' members) :
      Spoils fields (.record members)
  | shortened {items : List Value} {i : Nat}
      (h : List.Forall₂ Field.fits fields items) (hi : i < items.length) :
      Spoils fields (.array (items.eraseIdx i))

section
variable {field : Field} {fields : List Field}
  {members : List (String × Value)}

/-! ### Members of an object -/

/-- Fields have distinct names if the first is named unlike the rest, and
the rest have distinct names. -/
theorem nodup_names_cons :
    (names (field :: fields)).Nodup
      ↔ field.name ∉ names fields ∧ (names fields).Nodup :=
  List.nodup_cons

/-- What fits one of several fields fits the first or one of the rest. The
inductions over lists of fields go by this. -/
theorem fitsSome_cons {value : Value} :
    FitsSome (field :: fields) value
      ↔ field.fits value ∨ FitsSome fields value :=
  List.exists_mem_cons_iff _ _ _

/-- Members for the fields, with nothing else among them, make a record
that presents the fields. -/
theorem Given.presents (h : Given fields members) :
    Presents fields (.record members) :=
  .object ⟨members, [], h, nofun, by rw [List.append_nil]⟩

/-- Each member that is given for a field has the name of that field. -/
theorem Given.mem_names (h : Given fields members)
    {member : String × Value} (hmem : member ∈ members) :
    member.1 ∈ names fields := by
  induction h with
  | nil => cases hmem
  | member _ _ ih =>
    cases List.mem_cons.mp hmem with
    | inl heq => exact heq ▸ List.mem_cons_self
    | inr hmem => exact List.mem_cons_of_mem _ (ih hmem)
  | silent _ _ ih => exact List.mem_cons_of_mem _ (ih hmem)

/-- No member is found by a name that none of them has. -/
theorem filter_eq_nil_of_not_mem {name : String}
    (h : name ∉ members.map (·.1)) :
    members.filter (·.1 == name) = [] := by
  rw [List.filter_eq_nil_iff]
  intro member hmember heq
  exact h (beq_iff_eq.mp heq ▸ List.mem_map_of_mem hmember)

/-- Members that are given for fields are not found by a name that no
field has. -/
theorem Given.filter_eq_nil (h : Given fields members) {name : String}
    (hname : name ∉ names fields) :
    members.filter (·.1 == name) = [] := by
  refine filter_eq_nil_of_not_mem fun hmem => ?_
  obtain ⟨member, hmember, heq⟩ := List.mem_map.mp hmem
  exact hname (heq ▸ h.mem_names hmember)

/-- The members of one name are that of the field, if it has one. -/
theorem Given.filter (h : Given fields members)
    (hnodup : (names fields).Nodup) (hfield : field ∈ fields) :
    ∃ slot, field.Fills slot
      ∧ members.filter (·.1 == field.name)
        = slot.toList.map fun value => (field.name, value) := by
  induction h with
  | nil => cases hfield
  | @member head fields value members hvalue h ih =>
    obtain ⟨hnew, hnodup⟩ := nodup_names_cons.mp hnodup
    cases List.mem_cons.mp hfield with
    | inl heq =>
      -- This member is the field's own, and the rest have no other of its
      -- name.
      subst heq
      refine ⟨some value, hvalue, ?_⟩
      rw [List.filter_cons_of_pos (by simp), h.filter_eq_nil hnew]
      rfl
    | inr hfield =>
      have hne : head.name ≠ field.name := by
        have hmem : field.name ∈ names fields := List.mem_map_of_mem hfield
        exact fun heq => hnew (heq ▸ hmem)
      rw [List.filter_cons_of_neg (by simp [hne])]
      exact ih hnodup hfield
  | @silent head fields members hsilent h ih =>
    obtain ⟨hnew, hnodup⟩ := nodup_names_cons.mp hnodup
    cases List.mem_cons.mp hfield with
    | inl heq =>
      subst heq
      exact ⟨none, hsilent, h.filter_eq_nil hnew⟩
    | inr hfield => exact ih hnodup hfield

/-- Members of other names do not matter, and neither does the order. -/
theorem HasFields.filter (h : HasFields fields members)
    (hnodup : (names fields).Nodup) (hfield : field ∈ fields) :
    ∃ slot, field.Fills slot
      ∧ members.filter (·.1 == field.name)
        = slot.toList.map fun value => (field.name, value) := by
  obtain ⟨given, extra, hgiven, hextra, hperm⟩ := h
  obtain ⟨slot, hfills, hfilter⟩ := hgiven.filter hnodup hfield
  have hnone : extra.filter (·.1 == field.name) = [] := by
    refine filter_eq_nil_of_not_mem fun hmem => ?_
    obtain ⟨member, hmember, heq⟩ := List.mem_map.mp hmem
    exact (hextra member hmember).1 (heq ▸ List.mem_map_of_mem hfield)
  -- A permutation does not change what is found by a name as long as that
  -- is at most one member.
  have hsame := hperm.filter (·.1 == field.name)
  rw [List.filter_append, hfilter, hnone, List.append_nil] at hsame
  refine ⟨slot, hfills, ?_⟩
  cases slot with
  | none => exact hsame.eq_nil
  | some value => exact hsame.eq_singleton

/-- A first field that a record needs has one member, and its name finds
no other. -/
theorem HasFields.exists_head (h : HasFields (field :: fields) members)
    (hnodup : (names (field :: fields)).Nodup) (hsilent : ¬ field.silent) :
    ∃ found, field.fits found
      ∧ members.filter (·.1 == field.name) = [(field.name, found)] := by
  obtain ⟨slot, hfills, hfilter⟩ := h.filter hnodup List.mem_cons_self
  cases slot with
  | none => exact absurd hfills hsilent
  | some found => exact ⟨found, hfills, hfilter⟩

/-- The other fields are those of the other members. -/
theorem HasFields.tail (h : HasFields (field :: fields) members)
    (hnodup : (names (field :: fields)).Nodup) :
    HasFields fields (members.filter (·.1 != field.name)) := by
  obtain ⟨hnew, -⟩ := nodup_names_cons.mp hnodup
  obtain ⟨given, extra, hgiven, hextra, hperm⟩ := h
  have hkept : ∀ part : List (String × Value),
      (∀ member ∈ part, member.1 ≠ field.name) →
      part.filter (·.1 != field.name) = part := by
    intro part hpart
    simpa [List.filter_eq_self] using hpart
  have hothers : extra.filter (·.1 != field.name) = extra :=
    hkept extra fun member hmember heq =>
      (hextra member hmember).1 (heq ▸ List.mem_cons_self)
  have hrest {given : List (String × Value)} (hgiven : Given fields given) :
      given.filter (·.1 != field.name) = given :=
    hkept given fun member hmember heq =>
      hnew (heq ▸ hgiven.mem_names hmember)
  have hsame := hperm.filter (·.1 != field.name)
  rw [List.filter_append, hothers] at hsame
  have hextra' : ∀ member ∈ extra,
      member.1 ∉ names fields ∧ member.2.IsSimple := fun member hmember =>
    ⟨fun hmem => (hextra member hmember).1 (List.mem_cons_of_mem _ hmem),
      (hextra member hmember).2⟩
  -- The first field is given by the member that is taken away, or by
  -- none.
  cases hgiven with
  | member _ hgiven =>
    rw [List.filter_cons_of_neg (by simp), hrest hgiven] at hsame
    exact ⟨_, extra, hgiven, hextra', hsame⟩
  | silent _ hgiven =>
    rw [hrest hgiven] at hsame
    exact ⟨_, extra, hgiven, hextra', hsame⟩

/-! ### Reading the fields -/

/-- What the lookup of a name gives when the name has one member at
most. -/
theorem member?_of_filter {name : String} {slot : Option Value}
    (h : members.filter (·.1 == name)
      = slot.toList.map fun value => (name, value)) :
    member? (members.map named) name = some slot := by
  rw [member?, filter_named, h]
  cases slot <;> rfl

/-- All fields are found in whatever presents them. -/
theorem Presents.fields? {value : Value} (h : Presents fields value)
    (hnodup : (names fields).Nodup) :
    ∃ slots, value.fields? (names fields) = some slots
      ∧ List.Forall₂ Field.Fills fields slots := by
  cases h with
  | @object members h =>
    rw [record_eq, Value.fields?, if_pos (by simp [named])]
    -- The names are looked up one by one, but always in the whole record.
    have hpart : ∀ part ⊆ fields,
        ∃ slots, (names part).mapM (member? (members.map named)) = some slots
          ∧ List.Forall₂ Field.Fills part slots := by
      intro part hpart
      induction part with
      | nil => exact ⟨[], rfl, .nil⟩
      | cons field part ih =>
        rw [List.cons_subset] at hpart
        obtain ⟨slot, hslot, hfilter⟩ := h.filter hnodup hpart.1
        obtain ⟨slots, hread, hslots⟩ := ih hpart.2
        refine ⟨slot :: slots, ?_, .cons hslot hslots⟩
        rw [names, List.map_cons, List.mapM_cons, member?_of_filter hfilter,
          ← names, hread]
        rfl
    exact hpart fields (List.Subset.refl fields)
  -- An array has an item for each field, so that all of its items are
  -- found.
  | @array items h =>
    refine ⟨items.map some, ?_, ?_⟩
    · rw [Value.fields?, if_pos (by simp [names, h.length_eq])]
    · rw [List.forall₂_map_right_iff]
      exact h

/-! ### Faults -/

/-- A field that is left out keeps its place and name. The reader asks for
it all the same. -/
theorem Omits.names_eq {fields' : List Field} (h : Omits fields fields') :
    names fields' = names fields := by
  induction h with
  | here => rfl
  | there _ ih => rw [names, List.map_cons, ← names, ih]; rfl

/-- No value fits a field that is left out. -/
theorem Omits.fitsSome {fields' : List Field} (h : Omits fields fields')
    {value : Value} (hfits : FitsSome fields' value) :
    FitsSome fields value := by
  induction h with
  | here =>
    rw [fitsSome_cons] at hfits ⊢
    exact .inr (hfits.resolve_left id)
  | there _ ih =>
    rw [fitsSome_cons] at hfits ⊢
    exact hfits.imp_right ih

/-- A member beside one of the same name makes two of that name. -/
theorem two_le_length_filter {members' : List (String × Value)}
    {name : String} {value : Value} (hmember : name ∈ members.map (·.1))
    (hperm : members'.Perm ((name, value) :: members)) :
    2 ≤ (members'.filter (·.1 == name)).length := by
  obtain ⟨member, hmem, rfl⟩ := List.mem_map.mp hmember
  have hne : 0 < (members.filter (·.1 == member.1)).length :=
    List.length_pos_of_mem (List.mem_filter.mpr ⟨hmem, by simp⟩)
  rw [(hperm.filter _).length_eq, List.filter_cons_of_pos (by simp),
    List.length_cons]
  omega

/-- The lookup of a name that two members have fails. -/
theorem member?_eq_none {name : String}
    (h : 2 ≤ (members.filter (·.1 == name)).length) :
    member? (members.map named) name = none := by
  rw [member?, filter_named]
  generalize members.filter (·.1 == name) = found at h
  obtain _ | ⟨first, _ | ⟨second, found⟩⟩ := found
  · simp at h
  · simp at h
  · rfl

/-- The fields of a record cannot be read when two members have the name
of one. -/
theorem fields?_eq_none {fieldNames : List String} {name : String}
    (hname : name ∈ fieldNames)
    (h : 2 ≤ (members.filter (·.1 == name)).length) :
    (Value.record members).fields? fieldNames = none := by
  rw [record_eq, Value.fields?, if_pos (by simp [named])]
  induction fieldNames with
  | nil => cases hname
  | cons first fieldNames ih =>
    rw [List.mapM_cons]
    cases List.mem_cons.mp hname with
    | inl heq => rw [← heq, member?_eq_none h]; rfl
    | inr hname =>
      rw [ih hname]
      cases member? (members.map named) first <;> rfl

/-- A field that is left out is found missing. -/
theorem Omits.exists_none {fields' : List Field}
    {slots : List (Option Value)} (h : Omits fields fields')
    (hslots : List.Forall₂ Field.Fills fields' slots) :
    ∃ pair ∈ fields.zip slots, pair.1.needed ∧ pair.2 = none := by
  induction h generalizing slots with
  | here hneeded =>
    cases hslots with
    | cons hfills _ =>
      exact ⟨_, List.mem_cons_self, hneeded, hfills.leftOut⟩
  | there _ ih =>
    cases hslots with
    | cons _ hslots =>
      obtain ⟨pair, hmem, hpair⟩ := ih hslots
      exact ⟨pair, List.mem_cons_of_mem _ hmem, hpair⟩

/-- A fault is seen when the fields are read: if they can be read, one that
is needed is missing. -/
theorem Spoils.fields? {value : Value} (h : Spoils fields value)
    (hnodup : (names fields).Nodup) {slots : List (Option Value)}
    (hread : value.fields? (names fields) = some slots) :
    ∃ pair ∈ fields.zip slots, pair.1.needed ∧ pair.2 = none := by
  cases h with
  | repeated _ hname hmember _ hperm =>
    rw [fields?_eq_none hname (two_le_length_filter hmember hperm)] at hread
    cases hread
  | omitted homits h =>
    have hnames := homits.names_eq
    obtain ⟨slots', hread', hslots⟩ :=
      (Presents.object h).fields? (hnames ▸ hnodup)
    rw [hnames, hread, Option.some.injEq] at hread'
    exact homits.exists_none (hread' ▸ hslots)
  | shortened h hi =>
    rw [Value.fields?, if_neg] at hread
    · cases hread
    · rw [List.length_eraseIdx_of_lt hi, names, List.length_map, h.length_eq]
      omega

/-- The first field, if a record needs it, has one member, and the fault is
in the rest; or the fault is that it has none or several. An array with a
fault has an item too few. -/
theorem Spoils.head_or_tail {value : Value}
    (h : Spoils (field :: fields) value)
    (hnodup : (names (field :: fields)).Nodup) (hsilent : ¬ field.silent) :
    (∃ members, value = .record members
        ∧ (members.filter (·.1 == field.name)).length ≠ 1)
      ∨ (∃ members found, value = .record members ∧ field.fits found
        ∧ members.filter (·.1 == field.name) = [(field.name, found)]
        ∧ Spoils fields (.record (members.filter (·.1 != field.name))))
      ∨ ∃ items, value = .array items ∧ items.length = fields.length := by
  cases h with
  | @repeated members members' name value h hname hmember hvalue hperm =>
    -- A repeated member is one of the first field, or it is still
    -- repeated among the members of the rest.
    by_cases heq : name = field.name
    · subst heq
      have htwo := two_le_length_filter hmember hperm
      exact .inl ⟨members', rfl, by omega⟩
    · refine .inr (.inl ?_)
      obtain ⟨found, hfits, hfilter⟩ := h.exists_head hnodup hsilent
      have hsame := hperm.filter (·.1 == field.name)
      rw [List.filter_cons_of_neg (by simpa using heq), hfilter] at hsame
      have hrest := hperm.filter (·.1 != field.name)
      rw [List.filter_cons_of_pos (by simpa using heq)] at hrest
      have hmember' :
          name ∈ (members.filter (·.1 != field.name)).map (·.1) := by
        obtain ⟨member, hmem, rfl⟩ := List.mem_map.mp hmember
        exact List.mem_map_of_mem
          (List.mem_filter.mpr ⟨hmem, by simpa using heq⟩)
      exact ⟨members', found, rfl, hfits, hsame.eq_singleton,
        .repeated (h.tail hnodup) ((List.mem_cons.mp hname).resolve_left heq)
          hmember' hvalue hrest⟩
  | @omitted fields' members homits h =>
    cases homits with
    | here =>
      obtain ⟨slot, hfills, hfilter⟩ := h.filter hnodup List.mem_cons_self
      cases slot with
      | some found => exact hfills.elim
      | none =>
        have hnil : members.filter (·.1 == field.name) = [] := hfilter
        exact .inl ⟨members, rfl, by simp [hnil]⟩
    | @there _ _ fields' homits =>
      refine .inr (.inl ?_)
      have hnodup' : (names (field :: fields')).Nodup :=
        (Omits.there homits).names_eq ▸ hnodup
      obtain ⟨found, hfits, hfilter⟩ := h.exists_head hnodup' hsilent
      exact ⟨members, found, rfl, hfits, hfilter,
        .omitted homits (h.tail hnodup')⟩
  | @shortened items i h hi =>
    refine .inr (.inr ⟨_, rfl, ?_⟩)
    rw [List.length_eraseIdx_of_lt hi, ← h.length_eq]
    rfl

/-! ### What holds of all values of the fields -/

/-- A simple value can be read, since no object is in it. -/
theorem Value.IsSimple.isReadable {value : Value} (h : value.IsSimple) :
    value.isReadable = true := by
  cases h <;> rfl

/-- A simple value is within any bound on the depth, since it contains
nothing. -/
theorem Value.IsSimple.isBoundedBy {value : Value} (h : value.IsSimple)
    (depth : Nat) : value.isBoundedBy depth = true := by
  cases h <;> rfl

/-- The value of a member that is given for a field fits that field. -/
theorem Given.fitsSome (h : Given fields members)
    {member : String × Value} (hmem : member ∈ members) :
    FitsSome fields member.2 := by
  induction h with
  | nil => cases hmem
  | member hvalue _ ih =>
    rw [fitsSome_cons]
    cases List.mem_cons.mp hmem with
    | inl heq => exact .inl (heq ▸ hvalue)
    | inr hmem => exact .inr (ih hmem)
  | silent _ _ ih => exact fitsSome_cons.mpr (.inr (ih hmem))

/-- Each item of an array that has one for each field fits one of them. -/
theorem fitsSome_of_mem {items : List Value}
    (h : List.Forall₂ Field.fits fields items) {item : Value}
    (hmem : item ∈ items) : FitsSome fields item := by
  induction h with
  | nil => cases hmem
  | cons hfits _ ih =>
    rw [fitsSome_cons]
    cases List.mem_cons.mp hmem with
    | inl heq => exact .inl (heq ▸ hfits)
    | inr hmem => exact .inr (ih hmem)

/-- The values of an object's members are simple or those of fields. -/
theorem HasFields.isSimple_or_fitsSome (h : HasFields fields members)
    {member : String × Value} (hmem : member ∈ members) :
    member.2.IsSimple ∨ FitsSome fields member.2 := by
  obtain ⟨given, extra, hgiven, hextra, hperm⟩ := h
  cases List.mem_append.mp (hperm.mem_iff.mp hmem) with
  | inl hmem => exact .inr (hgiven.fitsSome hmem)
  | inr hmem => exact .inl (hextra member hmem).2

section
variable (hfields : ∀ value, FitsSome fields value → value.isReadable = true)
include hfields

/-- The members of an object can be read when the values of its fields
can, for the others are simple. -/
theorem HasFields.isReadable (h : HasFields fields members) :
    ∀ member ∈ members, member.2.isReadable = true := by
  intro member hmember
  cases h.isSimple_or_fitsSome hmember with
  | inl hsimple => exact hsimple.isReadable
  | inr hfits => exact hfields _ hfits

/-- A value that presents fields can be read when their values can. -/
theorem Presents.isReadable {value : Value} (h : Presents fields value) :
    value.isReadable = true := by
  cases h with
  | object h =>
    rw [isReadable_record, List.all_eq_true]
    exact h.isReadable hfields
  | array h =>
    rw [isReadable_array, List.all_eq_true]
    exact fun item hitem => hfields item (fitsSome_of_mem h hitem)

/-- A fault leaves a value readable: it is the record that is not there,
not the value. -/
theorem Spoils.isReadable {value : Value} (h : Spoils fields value) :
    value.isReadable = true := by
  cases h with
  | @repeated members members' _ _ h _ _ hvalue hperm =>
    rw [isReadable_record, List.all_eq_true]
    intro member hmember
    cases List.mem_cons.mp (hperm.mem_iff.mp hmember) with
    | inl heq => exact heq ▸ hvalue
    | inr hmember => exact h.isReadable hfields member hmember
  | omitted homits h =>
    rw [isReadable_record, List.all_eq_true]
    exact h.isReadable fun value hfits => hfields value (homits.fitsSome hfits)
  | shortened h hi =>
    rw [isReadable_array, List.all_eq_true]
    exact fun item hitem =>
      hfields item (fitsSome_of_mem h (List.mem_of_mem_eraseIdx hitem))

end

/-- What presents fields is one level deeper than their values. -/
theorem Presents.isBoundedBy {value : Value} (h : Presents fields value)
    {depth : Nat} (hfields : ∀ value, FitsSome fields value →
      value.isBoundedBy depth = true) :
    value.isBoundedBy (depth + 1) = true := by
  cases h with
  | object h =>
    rw [isBoundedBy_record, List.all_eq_true]
    intro member hmember
    cases h.isSimple_or_fitsSome hmember with
    | inl hsimple => exact hsimple.isBoundedBy depth
    | inr hfits => exact hfields _ hfits
  | array h =>
    rw [isBoundedBy_array, List.all_eq_true]
    exact fun item hitem => hfields item (fitsSome_of_mem h hitem)

/-- What presents a record ends with the mark that closes it. -/
theorem Presents.isNumeral_getLast? {value : Value}
    (h : Presents fields value) {token : Token}
    (hlast : value.tokens.getLast? = some token) :
    token.isNumeral = false := by
  have hclosed {front : List Token} {mark : Token}
      (hmark : mark.isNumeral = false)
      (hlast : (front ++ [mark]).getLast? = some token) :
      token.isNumeral = false := by
    rw [List.getLast?_concat, Option.some.injEq] at hlast
    exact hlast ▸ hmark
  cases h with
  | object h =>
    rw [record_eq, Value.tokens, ← List.cons_append] at hlast
    exact hclosed rfl hlast
  | array h =>
    rw [Value.tokens, ← List.cons_append] at hlast
    exact hclosed rfl hlast

end

end HotkeyScript.Json
