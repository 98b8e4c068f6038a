import HotkeyScript.Json.Token

/-!
# `HotkeyScript.Json.Value`: JSON values

A value is written as its tokens and read back from them. Reading
takes one token at a time and keeps the containers that are open, so
it is one fold over the tokens.

* `Value.tokens`: the tokens of a value.
* `Value.compact` and `Value.pretty`: a value on one line without
  spaces, and over several lines.
* `Value.ofTokens?` and `Value.ofText?`: the value of a row of tokens
  and of a text.
* `Value.isBounded`: whether a value can be held as a whole before it
  is known what it stands for.
-/

set_option autoImplicit false

namespace HotkeyScript.Json

/-- A JSON value. Numbers stay as they are written, and a string that
denotes no text is kept apart from every text. -/
inductive Value where
  /-- Nothing. -/
  | null
  /-- A truth value. -/
  | bool (value : Bool)
  /-- A number, as it is written. -/
  | number (digits : String)
  /-- A string and the text that it denotes, if it denotes one. -/
  | string (text? : Option String)
  /-- Values in a row. -/
  | array (items : List Value)
  /-- Named values in a row. A name may occur more than once. -/
  | object (members : List (Option String × Value))

namespace Value

/-- A text as a value. -/
def ofString (text : String) : Value := string (some text)

/-- A natural number as a value. -/
def ofNat (n : Nat) : Value := number (toString n)

/-- An object of well-named members. -/
def record (members : List (String × Value)) : Value :=
  object (members.map fun (name, value) => (some name, value))

/-! ### Writing -/

mutual

/-- The tokens of a value. -/
def tokens : Value → List Token
  | null => [.null]
  | bool value => [.bool value]
  | number digits => [.number digits]
  | string text? => [.string text?]
  | array items => .openArray :: (itemTokens items ++ [.closeArray])
  | object members =>
    .openObject :: (memberTokens members ++ [.closeObject])
termination_by structural value => value

/-- The tokens of the items of an array. -/
def itemTokens : List Value → List Token
  | [] => []
  | [item] => item.tokens
  | item :: next :: rest =>
    item.tokens ++ .comma :: itemTokens (next :: rest)
termination_by structural items => items

/-- The tokens of the members of an object. -/
def memberTokens : List (Option String × Value) → List Token
  | [] => []
  | [member] => nameValueTokens member
  | member :: next :: rest =>
    nameValueTokens member ++ .comma :: memberTokens (next :: rest)
termination_by structural members => members

/-- The tokens of one member of an object. -/
def nameValueTokens : Option String × Value → List Token
  | (name, value) => .string name :: .colon :: value.tokens
termination_by structural member => member

end

/-- The value on one line, without spaces. -/
def compact (value : Value) : String :=
  String.ofList (value.tokens.flatMap Token.written)

/-- The value over several lines. -/
def pretty (value : Value) : String :=
  String.ofList (layOut 0 value.tokens)

/-! ### Reading -/

/-- A container that is open, with what it holds so far, the latest
first. -/
inductive Frame where
  /-- An array. -/
  | array (items : List Value)
  /-- An object and the name of the member whose value is read. -/
  | object (members : List (Option String × Value))
      (name : Option String)

/-- What has been read and what may come next. -/
inductive Progress where
  /-- A value. -/
  | value (opened : List Frame)
  /-- The first item of an array, or its end. -/
  | firstItem (opened : List Frame)
  /-- The first name of an object, or its end. -/
  | firstName (opened : List Frame)
  /-- A further name of an object. -/
  | name (members : List (Option String × Value)) (opened : List Frame)
  /-- The colon after a name. -/
  | colon (members : List (Option String × Value))
      (name : Option String) (opened : List Frame)
  /-- What may follow a value: a comma, or the end of its container, or
  nothing. -/
  | done (value : Value) (opened : List Frame)

/-- The progress after a token that begins a value. -/
def begin? (opened : List Frame) : Token → Option Progress
  | .null => some (.done null opened)
  | .bool value => some (.done (bool value) opened)
  | .number digits => some (.done (number digits) opened)
  | .string text? => some (.done (string text?) opened)
  | .openArray => some (.firstItem opened)
  | .openObject => some (.firstName opened)
  | _ => none

/-- The progress after a token that follows a value. -/
def follow? (value : Value) : List Frame → Token → Option Progress
  | .array items :: rest, .comma =>
    some (.value (.array (value :: items) :: rest))
  | .array items :: rest, .closeArray =>
    some (.done (array (value :: items).reverse) rest)
  | .object members name :: rest, .comma =>
    some (.name ((name, value) :: members) rest)
  | .object members name :: rest, .closeObject =>
    some (.done (object ((name, value) :: members).reverse) rest)
  | _, _ => none

/-- The progress after a token, if the token may stand there. -/
def step? : Progress → Token → Option Progress
  | .value opened, token => begin? opened token
  | .firstItem opened, .closeArray => some (.done (array []) opened)
  | .firstItem opened, token => begin? (.array [] :: opened) token
  | .firstName opened, .closeObject => some (.done (object []) opened)
  | .firstName opened, .string name => some (.colon [] name opened)
  | .firstName _, _ => none
  | .name members opened, .string name =>
    some (.colon members name opened)
  | .name _ _, _ => none
  | .colon members name opened, .colon =>
    some (.value (.object members name :: opened))
  | .colon _ _ _, _ => none
  | .done value opened, token => follow? value opened token

/-- The value that tokens make, if they make one. -/
def ofTokens? (tokens : List Token) : Option Value :=
  match tokens.foldlM step? (.value []) with
  | some (.done value []) => some value
  | _ => none

/-- The value of a JSON text. -/
def ofText? (text : String) : Option Value :=
  (lex text.toList).bind ofTokens?

/-! ### Values held as a whole -/

mutual

/-- Whether every string of a value denotes a text, every number fits
a double, and at most `depth` containers lie in one another. -/
def isBoundedBy : Nat → Value → Bool
  | _, null => true
  | _, bool _ => true
  | _, number digits => fitsDouble digits.toList
  | _, string text? => text?.isSome
  | depth, array items =>
    decide (0 < depth) && areBoundedBy (depth - 1) items
  | depth, object members =>
    decide (0 < depth) && membersBoundedBy (depth - 1) members
termination_by structural _ value => value

/-- `isBoundedBy` for the items of an array. -/
def areBoundedBy : Nat → List Value → Bool
  | _, [] => true
  | depth, item :: items =>
    isBoundedBy depth item && areBoundedBy depth items
termination_by structural _ items => items

/-- `isBoundedBy` for the members of an object. -/
def membersBoundedBy : Nat → List (Option String × Value) → Bool
  | _, [] => true
  | depth, member :: members =>
    memberBoundedBy depth member && membersBoundedBy depth members
termination_by structural _ members => members

/-- `isBoundedBy` for one member of an object. -/
def memberBoundedBy : Nat → Option String × Value → Bool
  | depth, (name, value) => name.isSome && isBoundedBy depth value
termination_by structural _ member => member

end

/-- The most containers that may lie in one another in a value that is
held as a whole. -/
def depthLimit : Nat := 127

/-- Whether a value can be held as a whole. -/
def isBounded (value : Value) : Bool := isBoundedBy depthLimit value

end Value

end HotkeyScript.Json
