/-!
# `HotkeyScript.Terminal`: styled text

Output is a row of spans, each plain or in a style. Where colour is
wanted a style is put around its text as control sequences; where it
is not, only the texts are written.

* `Style.paint`: a text in a style. A text may itself hold the
  sequence that ends all styles; the style is then put on again after
  it.
* `render`: a row of spans, with or without colour.
* `strip`: a text without its control sequences, the part that a
  terminal shows.
* `wantsColour`: whether to write colour, from the environment.
-/

set_option autoImplicit false

namespace HotkeyScript.Terminal

/-! ### Styles -/

/-- A colour of the terminal. -/
inductive Colour where
  /-- Red. -/
  | red
  /-- Green. -/
  | green
  /-- Yellow. -/
  | yellow
  /-- Magenta. -/
  | magenta
  /-- Cyan. -/
  | cyan
  deriving DecidableEq, Repr

/-- The code of a colour. -/
def Colour.code : Colour → List Char
  | .red => ['3', '1']
  | .green => ['3', '2']
  | .yellow => ['3', '3']
  | .magenta => ['3', '5']
  | .cyan => ['3', '6']

/-- How a text is to look. -/
structure Style where
  /-- In heavy letters. -/
  bold : Bool
  /-- In faint letters. -/
  dimmed : Bool
  /-- In a colour. -/
  colour : Option Colour
  deriving DecidableEq, Repr

namespace Style

/-- Heavy letters. -/
def heavy : Style := ⟨true, false, none⟩

/-- Faint letters. -/
def faint : Style := ⟨false, true, none⟩

/-- Letters of a colour. -/
def inColour (colour : Colour) : Style := ⟨false, false, some colour⟩

/-- Heavy letters of a colour. -/
def heavyIn (colour : Colour) : Style := ⟨true, false, some colour⟩

/-- The codes of a style, those of the letters before the colour. -/
def codes (style : Style) : List (List Char) :=
  (if style.bold then [['1']] else [])
    ++ (if style.dimmed then [['2']] else [])
    ++ style.colour.toList.map Colour.code

end Style

/-! ### Control sequences -/

/-- The character that begins a control sequence. -/
def escape : Char := '\x1b'

/-- The sequence that puts a style on. -/
def Style.opening (style : Style) : List Char :=
  escape :: '[' :: ([';'].intercalate style.codes ++ ['m'])

/-- The sequence that takes all styles off. -/
def reset : List Char := [escape, '[', '0', 'm']

/-- The text with `opening` after every sequence that takes all styles
off. -/
def reopen (opening : List Char) : List Char → List Char
  | '\x1b' :: '[' :: '0' :: 'm' :: rest =>
    reset ++ opening ++ reopen opening rest
  | c :: rest => c :: reopen opening rest
  | [] => []

/-- The text in a style. -/
def Style.paint (style : Style) (text : List Char) : List Char :=
  style.opening ++ reopen style.opening text ++ reset

/-- Whether a character may stand between the start of a style sequence
and its end. -/
def isParameter (c : Char) : Bool := c.isDigit || c == ';'

/-- Reads on where `held` is what has been read, the latest first, of a
sequence that may yet put a style on or take it off. -/
def stripFrom (held : List Char) : List Char → List Char
  | [] => held.reverse
  | c :: rest =>
    -- One held character is the escape, two are the escape and its
    -- bracket, and all further ones are parameters.
    match held with
    | [] => if c = escape then stripFrom [c] rest else c :: stripFrom [] rest
    | [e] =>
      if c = '[' then stripFrom [c, e] rest
      else if c = escape then e :: stripFrom [c] rest
      else e :: c :: stripFrom [] rest
    | _ =>
      if isParameter c then stripFrom (c :: held) rest
      else if c = 'm' then stripFrom [] rest
      else if c = escape then held.reverse ++ stripFrom [c] rest
      else held.reverse ++ c :: stripFrom [] rest

/-- The text without the sequences that put styles on or take them
off. -/
def strip (text : List Char) : List Char := stripFrom [] text

/-! ### Output -/

/-- A piece of output. -/
inductive Span where
  /-- A text as it is. -/
  | plain (text : String)
  /-- A text in a style. -/
  | styled (style : Style) (text : String)
  deriving DecidableEq, Repr

/-- A piece of output as it is written. -/
def Span.render (colour : Bool) : Span → List Char
  | plain text => text.toList
  | styled style text =>
    if colour then style.paint text.toList else text.toList

/-- A row of pieces as it is written. -/
def render (colour : Bool) (spans : List Span) : String :=
  String.ofList (spans.flatMap (Span.render colour))

/-- A setting that is there and not `0`. -/
def isSet (setting : Option String) : Bool :=
  match setting with
  | some value => value != "0"
  | none => false

/-- Whether to write colour: `force` asks for it everywhere, `never`
forbids it, and otherwise it is for terminals unless `allow` is `0`. -/
def wantsColour (force never allow : Option String) (terminal : Bool) :
    Bool :=
  if isSet force then true
  else if isSet never then false
  else terminal && (allow.isNone || isSet allow)

end HotkeyScript.Terminal
