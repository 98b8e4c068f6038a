import HotkeyScript.Script

/-!
# `HotkeyScript.Proofs.Script.Load`: what a load makes of bytes

A load has to do with bytes twice: with those of the path and with those
of the file. Either must be the UTF-8 form of some characters, which
`IsText` says with the encoder alone. A decoder that let an overlong form
or a surrogate pass, or that refused a character, would not be exact.

* `fromUTF8?_utf8Encode` / `fromUTF8?_eq_none`: the decoder is exact.
* `Expands`: the path with the home directory in it, from the characters
  of the path.
* `HoldsText`: the text in a file, without its byte-order mark.
* `Loads`: the outcome of a load, one rule for each way to end. No rule
  has an order of tests in it. The rule for a path that is no text does
  not look at any file.
* `load_eq_iff_loads`: the outcome of every load is the one that the
  rules allow. A byte-order mark makes no difference to it.
-/

set_option autoImplicit false

namespace HotkeyScript

/-- The bytes are the UTF-8 form of some characters. -/
def IsText (bytes : ByteArray) : Prop :=
  ∃ chars : List Char, bytes = chars.utf8Encode

/-- The path with the home directory in place of a `~` that stands by
itself or before a `/`. -/
inductive Expands (home : String) : ByteArray → String → Prop where
  | home {rest : List Char} (hrest : ∀ c ∈ rest.head?, c = '/') :
      Expands home ('~' :: rest).utf8Encode (home ++ String.ofList rest)
  | same {path : List Char}
      (hpath : ∀ rest, path = '~' :: rest → ∃ c ∈ rest.head?, c ≠ '/') :
      Expands home path.utf8Encode (String.ofList path)

/-- The text in the bytes of a file: these are its UTF-8 form, with one
byte-order mark before it or with none. -/
inductive HoldsText : ByteArray → String → Prop where
  | marked (text : List Char) :
      HoldsText (byteOrderMark :: text).utf8Encode (String.ofList text)
  | unmarked {text : List Char} (hmark : text.head? ≠ some byteOrderMark) :
      HoldsText text.utf8Encode (String.ofList text)

/-- The outcome of loading the script at a path. -/
inductive Loads (read : String → Except ReadFailure ByteArray)
    (home : String) (path : ByteArray) :
    Except LoadError Script → Prop where
  /-- The path is no text. -/
  | pathNotText (hpath : ¬ IsText path) :
      Loads read home path (.error (.pathNotText path))
  /-- There is no file at the path. -/
  | notFound {expanded : String} (hpath : Expands home path expanded)
      (hread : read expanded = .error .notFound) :
      Loads read home path (.error (.notFound expanded))
  /-- There is one, but it cannot be read. -/
  | unreadable {expanded : String} {failure : ReadFailure}
      (hpath : Expands home path expanded) (hne : failure ≠ .notFound)
      (hread : read expanded = .error failure) :
      Loads read home path (.error (.unreadable failure))
  /-- The file is no text. -/
  | fileNotText {expanded : String} {bytes : ByteArray}
      (hpath : Expands home path expanded)
      (hread : read expanded = .ok bytes) (hbytes : ¬ IsText bytes) :
      Loads read home path (.error (.fileNotText expanded))
  /-- The file holds a text, which is read into an empty outline. -/
  | loaded {expanded : String} {bytes : ByteArray} {text : String}
      (hpath : Expands home path expanded)
      (hread : read expanded = .ok bytes) (htext : HoldsText bytes text) :
      Loads read home path
        (.ok ⟨expanded, ((∅ : Outline).read text).1,
          ((∅ : Outline).read text).2⟩)

/-! ### Bytes that are text -/

/-- The decoder gives back what was encoded. -/
theorem fromUTF8?_utf8Encode (chars : List Char) :
    String.fromUTF8? chars.utf8Encode = some (String.ofList chars) := by
  have hvalid : chars.utf8Encode.IsValidUTF8 := ⟨chars, rfl⟩
  rw [String.fromUTF8?, dif_pos hvalid]
  rfl

/-- The decoder gives nothing for bytes that are no text. -/
theorem fromUTF8?_eq_none {bytes : ByteArray} (h : ¬ IsText bytes) :
    String.fromUTF8? bytes = none := by
  have hinvalid : ¬ bytes.IsValidUTF8 := fun ⟨chars, heq⟩ => h ⟨chars, heq⟩
  rw [String.fromUTF8?, dif_neg hinvalid]

/-! ### The path -/

/-- The path with the home directory in it, as it is computed, is one that
the rules allow. -/
theorem expands_expandHome (home : String) (path : List Char) :
    Expands home path.utf8Encode (expandHome home (String.ofList path)) := by
  rw [expandHome, String.toList_ofList]
  split
  · have hexpands : Expands home ['~'].utf8Encode
        (home ++ String.ofList []) := .home (by simp)
    rwa [String.ofList_nil, String.append_empty] at hexpands
  · next rest => exact .home (by simp)
  -- The two patterns failed, so that a `~` in front stands before
  -- something other than a `/`.
  · next hlone hslash =>
    apply Expands.same
    rintro rest rfl
    cases rest with
    | nil => exact absurd rfl hlone
    | cons c rest =>
      refine ⟨c, rfl, ?_⟩
      rintro rfl
      exact hslash rest rfl

/-- A `~` by itself or before a `/` is replaced. -/
theorem expandHome_home (home : String) {rest : List Char}
    (h : ∀ c ∈ rest.head?, c = '/') :
    expandHome home (String.ofList ('~' :: rest))
      = home ++ String.ofList rest := by
  rw [expandHome, String.toList_ofList]
  cases rest with
  | nil =>
    rw [String.ofList_nil, String.append_empty]
    rfl
  | cons c rest =>
    obtain rfl := h c rfl
    rfl

/-- Any other path stays as it is. -/
theorem expandHome_same (home : String) {path : List Char}
    (h : ∀ rest, path = '~' :: rest → ∃ c ∈ rest.head?, c ≠ '/') :
    expandHome home (String.ofList path) = String.ofList path := by
  rw [expandHome, String.toList_ofList]
  split
  -- The path is a `~` by itself, or one before a `/`. Neither is allowed.
  · obtain ⟨c, hc, -⟩ := h [] rfl
    cases hc
  · next rest =>
    obtain ⟨c, hc, hne⟩ := h ('/' :: rest) rfl
    exact absurd (Option.some.inj hc).symm hne
  · rfl

/-- The bytes of a path that is text come out as the rules say, whichever
of them applies. -/
theorem Expands.expandBytes_eq {home expanded : String}
    {path : ByteArray} (h : Expands home path expanded) :
    expandBytes home path = .ok expanded := by
  cases h with
  | home hrest =>
    rw [expandBytes, fromUTF8?_utf8Encode]
    exact congrArg Except.ok (expandHome_home home hrest)
  | same hpath =>
    rw [expandBytes, fromUTF8?_utf8Encode]
    exact congrArg Except.ok (expandHome_same home hpath)

/-- The bytes of a path that is no text are refused, and the refusal holds
the bytes. -/
theorem expandBytes_of_not_isText (home : String) {path : ByteArray}
    (h : ¬ IsText path) :
    expandBytes home path = .error (.pathNotText path) := by
  rw [expandBytes, fromUTF8?_eq_none h]

/-! ### The file -/

/-- A text with a byte-order mark before it loses the one mark, also when
another one follows. -/
theorem dropMark_marked (text : List Char) :
    dropMark (String.ofList (byteOrderMark :: text))
      = String.ofList text := by
  rw [dropMark, String.toList_ofList]
  exact if_pos rfl

/-- A text without a byte-order mark before it stays as it is. -/
theorem dropMark_unmarked {text : List Char}
    (h : text.head? ≠ some byteOrderMark) :
    dropMark (String.ofList text) = String.ofList text := by
  rw [dropMark, String.toList_ofList]
  cases text with
  | nil => rfl
  | cons c text => exact if_neg fun hc => h (congrArg some hc)

/-- The text in a file is what the decoder gives, less the mark. -/
theorem HoldsText.fromUTF8? {bytes : ByteArray} {text : String}
    (h : HoldsText bytes text) :
    ∃ whole, String.fromUTF8? bytes = some whole ∧ dropMark whole = text := by
  cases h with
  | marked text =>
    exact ⟨_, fromUTF8?_utf8Encode _, dropMark_marked text⟩
  | unmarked hmark =>
    exact ⟨_, fromUTF8?_utf8Encode _, dropMark_unmarked hmark⟩

/-- A file whose bytes are text holds some text, marked or not. -/
theorem exists_holdsText {bytes : ByteArray} (h : IsText bytes) :
    ∃ text, HoldsText bytes text := by
  obtain ⟨chars, rfl⟩ := h
  by_cases hmark : chars.head? = some byteOrderMark
  · obtain ⟨text, rfl⟩ := List.head?_eq_some_iff.mp hmark
    exact ⟨_, .marked text⟩
  · exact ⟨_, .unmarked hmark⟩

section
variable {read : String → Except ReadFailure ByteArray}
  {home expanded : String} {path : ByteArray}

/-- Past its path a load has to do with the file only. -/
theorem Source.load_of_expands (h : Expands home path expanded) :
    Source.load read home path
      = Source.ofBytes expanded (read expanded) := by
  rw [Source.load, h.expandBytes_eq]
  rfl

/-- A script is read from the text that the file holds, with the refusals
as they are. -/
theorem Script.load_of_expands (h : Expands home path expanded) :
    Script.load read home path
      = (Source.ofBytes expanded (read expanded)).map Script.ofSource := by
  rw [Script.load, Source.load_of_expands h]

/-- A path that is no text is refused before any file is read. -/
theorem Script.load_of_not_isText
    (read : String → Except ReadFailure ByteArray) (home : String)
    (h : ¬ IsText path) :
    Script.load read home path = .error (.pathNotText path) := by
  rw [Script.load, Source.load, expandBytes_of_not_isText home h]
  rfl

/-- A failure other than the missing file is passed on. -/
theorem Source.ofBytes_unreadable (path : String) {failure : ReadFailure}
    (h : failure ≠ .notFound) :
    Source.ofBytes path (.error failure) = .error (.unreadable failure) := by
  cases failure with
  | notFound => exact absurd rfl h
  | _ => rfl

/-- A file that is no text is refused by its path. -/
theorem Source.ofBytes_not_isText (path : String) {bytes : ByteArray}
    (h : ¬ IsText bytes) :
    Source.ofBytes path (.ok bytes) = .error (.fileNotText path) := by
  rw [Source.ofBytes, fromUTF8?_eq_none h]

/-- A file that holds a text gives this text. -/
theorem Source.ofBytes_of_holdsText (path : String) {bytes : ByteArray}
    {text : String} (h : HoldsText bytes text) :
    Source.ofBytes path (.ok bytes) = .ok ⟨path, text⟩ := by
  obtain ⟨whole, hwhole, rfl⟩ := h.fromUTF8?
  rw [Source.ofBytes, hwhole]

/-! ### The load as a whole -/

/-- What the rules allow is the outcome of the load. -/
theorem Loads.load_eq {outcome : Except LoadError Script}
    (h : Loads read home path outcome) :
    Script.load read home path = outcome := by
  -- Each rule has what the load finds up to its end, so every step of the
  -- load can be rewritten.
  cases h with
  | pathNotText hpath => exact Script.load_of_not_isText read home hpath
  | notFound hpath hread =>
    rw [Script.load_of_expands hpath, hread]
    rfl
  | unreadable hpath hne hread =>
    rw [Script.load_of_expands hpath, hread,
      Source.ofBytes_unreadable _ hne]
    rfl
  | fileNotText hpath hread hbytes =>
    rw [Script.load_of_expands hpath, hread,
      Source.ofBytes_not_isText _ hbytes]
    rfl
  | loaded hpath hread htext =>
    rw [Script.load_of_expands hpath, hread,
      Source.ofBytes_of_holdsText _ htext]
    rfl

/-- A path that is text becomes some path, with the home directory in it
or as it is. -/
theorem exists_expands (home : String) (h : IsText path) :
    ∃ expanded, Expands home path expanded := by
  obtain ⟨chars, rfl⟩ := h
  exact ⟨_, expands_expandHome home chars⟩

end

/-- The rules leave no load without an outcome: the cases are those that
the load goes through, but nothing here is computed. -/
theorem exists_loads (read : String → Except ReadFailure ByteArray)
    (home : String) (path : ByteArray) :
    ∃ outcome, Loads read home path outcome := by
  by_cases hpath : IsText path
  case neg => exact ⟨_, .pathNotText hpath⟩
  obtain ⟨expanded, hexpands⟩ := exists_expands home hpath
  -- What the file system says of the path, and then what the bytes are.
  cases hread : read expanded with
  | error failure =>
    by_cases hfailure : failure = .notFound
    · subst hfailure
      exact ⟨_, .notFound hexpands hread⟩
    · exact ⟨_, .unreadable hexpands hfailure hread⟩
  | ok bytes =>
    by_cases hbytes : IsText bytes
    case neg => exact ⟨_, .fileNotText hexpands hread hbytes⟩
    obtain ⟨text, htext⟩ := exists_holdsText hbytes
    exact ⟨_, .loaded hexpands hread htext⟩

/-- The outcome of a load is one that the rules allow. They allow some
outcome, and that one is the outcome of the load. -/
theorem loads_load (read : String → Except ReadFailure ByteArray)
    (home : String) (path : ByteArray) :
    Loads read home path (Script.load read home path) := by
  obtain ⟨outcome, h⟩ := exists_loads read home path
  rwa [h.load_eq]

/-- A script that is loaded has the path that was expanded for it. -/
theorem Loads.expands {read : String → Except ReadFailure ByteArray}
    {home : String} {path : ByteArray} {script : Script}
    (h : Loads read home path (.ok script)) :
    Expands home path script.path := by
  cases h with
  | loaded hpath _ _ => exact hpath

/-- **The outcome of a load** is the one that the rules allow. A path
that is no text is refused whatever there is to be read. A text and the
same text with a byte-order mark before it are loaded alike. -/
theorem load_eq_iff_loads (read : String → Except ReadFailure ByteArray)
    (home : String) (path : ByteArray) :
    (∀ outcome, Script.load read home path = outcome
        ↔ Loads read home path outcome)
      ∧ (¬ IsText path → ∀ other,
        Script.load other home path = .error (.pathNotText path))
      ∧ ∀ expanded (text : List Char) other, Expands home path expanded →
        text.head? ≠ some byteOrderMark →
        read expanded = .ok text.utf8Encode →
        other expanded = .ok (byteOrderMark :: text).utf8Encode →
        ∃ script, Script.load read home path = .ok script
          ∧ Script.load other home path = .ok script := by
  refine ⟨fun outcome => ⟨?_, Loads.load_eq⟩, ?_, ?_⟩
  · rintro rfl
    exact loads_load read home path
  · exact fun hpath other => Script.load_of_not_isText other home hpath
  · intro expanded text other hpath hmark hread hother
    exact ⟨_, (Loads.loaded hpath hread (.unmarked hmark)).load_eq,
      (Loads.loaded hpath hother (.marked text)).load_eq⟩

/-- A path of one byte that begins no character, and a file in the home
directory with a byte-order mark and without. -/
theorem load_lone_byte_and_marked_file :
    (¬ IsText ⟨#[0xFF]⟩
      ∧ Script.load (fun _ => .ok ['a'].utf8Encode) "/home" ⟨#[0xFF]⟩
        = .error (.pathNotText ⟨#[0xFF]⟩))
      ∧ ∃ script,
        Script.load (fun _ => .ok ['a'].utf8Encode) "/home"
            ['~', '/', 'f'].utf8Encode = .ok script
          ∧ Script.load (fun _ => .ok [byteOrderMark, 'a'].utf8Encode) "/home"
            ['~', '/', 'f'].utf8Encode = .ok script := by
  have hpath : ¬ IsText ⟨#[0xFF]⟩ := by
    have hinvalid : ¬ ByteArray.IsValidUTF8 ⟨#[0xFF]⟩ := by decide
    exact fun ⟨chars, heq⟩ => hinvalid ⟨chars, heq⟩
  have hmark : ['a'].head? ≠ some byteOrderMark := by decide
  refine ⟨⟨hpath, ?_⟩, ?_⟩
  · exact (load_eq_iff_loads (fun _ => .error .notFound) "/home" _).2.1
      hpath _
  · exact (load_eq_iff_loads (fun _ => .ok ['a'].utf8Encode) "/home" _).2.2
      _ ['a'] _ (.home (by simp)) hmark rfl rfl

end HotkeyScript
