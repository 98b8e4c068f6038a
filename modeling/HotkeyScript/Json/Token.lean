import HotkeyScript.Json.Number
import HotkeyScript.Json.Quoted

/-!
# `HotkeyScript.Json.Token`: the tokens of a JSON text

A JSON text is a row of tokens with white space between them. Two
texts with the same tokens have the same value, however they are laid
out.

* `Token.written`: a token as it is written.
* `lex`: the tokens of a text. Only four characters count as white
  space here.
* `layOut`: tokens over several lines, two spaces for each container
  that is open.
-/

set_option autoImplicit false

namespace HotkeyScript.Json

/-- A token of a JSON text. -/
inductive Token where
  /-- A left square bracket. -/
  | openArray
  /-- A right square bracket. -/
  | closeArray
  /-- A left brace. -/
  | openObject
  /-- A right brace. -/
  | closeObject
  /-- A comma. -/
  | comma
  /-- A colon. -/
  | colon
  /-- The word `null`. -/
  | null
  /-- The word `true` or `false`. -/
  | bool (value : Bool)
  /-- A number, as it is written. -/
  | number (digits : String)
  /-- A string and the text that it denotes, if it denotes one. -/
  | string (text? : Option String)
  deriving DecidableEq, Repr

/-! ### Writing -/

/-- A token as it is written. A string that denotes no text is written
as half of a surrogate pair. -/
def Token.written : Token → List Char
  | openArray => ['[']
  | closeArray => [']']
  | openObject => ['\x7b']
  | closeObject => ['\x7d']
  | comma => [',']
  | colon => [':']
  | null => ['n', 'u', 'l', 'l']
  | bool true => ['t', 'r', 'u', 'e']
  | bool false => ['f', 'a', 'l', 's', 'e']
  | number digits => digits.toList
  | string (some text) => quote text.toList
  | string none => ['"', '\\', 'u', 'd', '8', '0', '0', '"']

/-- The end of a line and the indentation of the next. -/
def newline (depth : Nat) : List Char :=
  '\n' :: List.replicate (2 * depth) ' '

/-- Tokens over several lines, where `depth` containers are open. An
empty container stays on one line. -/
def layOut (depth : Nat) : List Token → List Char
  | [] => []
  | .openArray :: .closeArray :: rest =>
    '[' :: ']' :: layOut depth rest
  | .openObject :: .closeObject :: rest =>
    '\x7b' :: '\x7d' :: layOut depth rest
  | token :: rest =>
    match token with
    | .openArray | .openObject =>
      token.written ++ newline (depth + 1) ++ layOut (depth + 1) rest
    | .closeArray | .closeObject =>
      newline (depth - 1) ++ token.written ++ layOut (depth - 1) rest
    | .comma => token.written ++ newline depth ++ layOut depth rest
    | .colon => token.written ++ ' ' :: layOut depth rest
    | _ => token.written ++ layOut depth rest

/-! ### Reading -/

/-- White space between tokens. -/
def isSpace (c : Char) : Bool :=
  c == ' ' || c == '\t' || c == '\n' || c == '\r'

/-- The token that is one character. -/
def ofMark? : Char → Option Token
  | '[' => some .openArray
  | ']' => some .closeArray
  | '\x7b' => some .openObject
  | '\x7d' => some .closeObject
  | ',' => some .comma
  | ':' => some .colon
  | _ => none

/-- The token of several characters that begins a text, and what
follows it. A number is as long as it can be. -/
def readWord? (text : List Char) : Option (Token × List Char) :=
  match text with
  | '"' :: body =>
    (readBody? body).map fun (pieces, rest) =>
      (.string ((denoted? pieces).map String.ofList), rest)
  | 'n' :: 'u' :: 'l' :: 'l' :: rest => some (.null, rest)
  | 't' :: 'r' :: 'u' :: 'e' :: rest => some (.bool true, rest)
  | 'f' :: 'a' :: 'l' :: 's' :: 'e' :: rest => some (.bool false, rest)
  | _ =>
    let digits := text.takeWhile isNumberChar
    if isNumber digits then
      some (.number (String.ofList digits), text.dropWhile isNumberChar)
    else none

/-- What follows a token is shorter than what begins with it. -/
theorem readWord?_shorter {text rest : List Char} {token : Token}
    (h : readWord? text = some (token, rest)) :
    rest.length < text.length := by
  unfold readWord? at h
  split at h
  · next body =>
      simp only [Option.map_eq_some_iff, Prod.exists, Prod.mk.injEq] at h
      obtain ⟨pieces, r, hr, -, rfl⟩ := h
      have := readBody?_shorter hr
      simp only [List.length_cons]
      omega
  · simp only [Option.some.injEq, Prod.mk.injEq] at h
    obtain ⟨-, rfl⟩ := h
    simp only [List.length_cons]
    omega
  · simp only [Option.some.injEq, Prod.mk.injEq] at h
    obtain ⟨-, rfl⟩ := h
    simp only [List.length_cons]
    omega
  · simp only [Option.some.injEq, Prod.mk.injEq] at h
    obtain ⟨-, rfl⟩ := h
    simp only [List.length_cons]
    omega
  · simp only [Option.ite_none_right_eq_some, Option.some.injEq,
      Prod.mk.injEq] at h
    obtain ⟨hnumber, -, rfl⟩ := h
    -- A number has a digit, so something is taken from the text.
    have hne : text.takeWhile isNumberChar ≠ [] := by
      intro hnil
      rw [hnil] at hnumber
      exact absurd hnumber (by decide)
    have hsplit := congrArg List.length
      (List.takeWhile_append_dropWhile (p := isNumberChar) (l := text))
    rw [List.length_append] at hsplit
    have := List.length_pos_iff.mpr hne
    omega

/-- The tokens of a text, if it is a row of tokens. -/
def lex : List Char → Option (List Token)
  | [] => some []
  | c :: rest =>
    if isSpace c then lex rest
    else
      match ofMark? c with
      | some token => (lex rest).map (token :: ·)
      | none =>
        match _h : readWord? (c :: rest) with
        | some (token, rest) => (lex rest).map (token :: ·)
        | none => none
termination_by text => text.length
decreasing_by
  · simp
  · simp
  · exact readWord?_shorter (by assumption)

end HotkeyScript.Json
