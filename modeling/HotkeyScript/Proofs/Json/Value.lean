import HotkeyScript.Json.Value
import HotkeyScript.Proofs.Json.Token

/-!
# `HotkeyScript.Proofs.Json.Value`: reading a value that was written

The tokens of a value are read one at a time. What such a run does is
the same wherever the value stands: the containers that are open when it
begins are open when it ends, and it ends with the value. A container
runs through its items in the same way, with the items read so far on
top of what is open.

* `foldlM_tokens`, `foldlM_itemTokens`, `foldlM_memberTokens`: the run
  over a value, over the items of an array and over the members of an
  object.
* `ofTokens?_tokens`: a value is read from its tokens.
* `legible_tokens`: tokens of a value meet no number with a number.
* `ofText?_of_spelledOut`: a value is read from its text however this is
  spelled and laid out. `ofText?_compact` and `ofText?_pretty` are its cases
  for the text on one line, from which `compact_inj` follows, and over
  several lines.
* `ofText?_append_eq_none`: nothing is read if more than white space
  follows.
-/

set_option autoImplicit false

namespace HotkeyScript.Json.Value

/-! ### Tokens -/

/-- No value begins with the end of an array, so the first item is read
like any other. -/
theorem foldlM_firstItem (item : Value) (items : List Value)
    (opened : List Frame) (rest : List Token) :
    (itemTokens (item :: items) ++ rest).foldlM step? (.firstItem opened)
      = (itemTokens (item :: items) ++ rest).foldlM step?
        (.value (.array [] :: opened)) := by
  cases items <;> cases item <;> rfl

/-- The first name of an object is read like the name behind a comma, but
that the object may still end before it. -/
theorem foldlM_firstName (member : Option String × Value)
    (members : List (Option String × Value)) (opened : List Frame)
    (rest : List Token) :
    (memberTokens (member :: members) ++ rest).foldlM step?
        (.firstName opened)
      = (memberTokens (member :: members) ++ rest).foldlM step?
        (.name [] opened) := by
  obtain ⟨name, value⟩ := member
  cases members <;> rfl

mutual

/-- After the tokens of a value there is the value, and the containers
around it are open as before. -/
theorem foldlM_tokens (value : Value) (opened : List Frame)
    (rest : List Token) :
    (value.tokens ++ rest).foldlM step? (.value opened)
      = rest.foldlM step? (.done value opened) := by
  match value with
  | null => rfl
  | bool _ => rfl
  | number _ => rfl
  | string _ => rfl
  | array [] => rfl
  | object [] => rfl
  | array (item :: items) =>
    rw [tokens, List.cons_append, List.append_assoc, List.singleton_append]
    have hfirst := foldlM_firstItem item items opened (.closeArray :: rest)
    have hitems := foldlM_itemTokens (item :: items) [] opened rest (by simp)
    exact hfirst.trans hitems
  | object (member :: members) =>
    rw [tokens, List.cons_append, List.append_assoc, List.singleton_append]
    have hfirst :=
      foldlM_firstName member members opened (.closeObject :: rest)
    have hmembers :=
      foldlM_memberTokens (member :: members) [] opened rest (by simp)
    exact hfirst.trans hmembers
termination_by structural value

/-- The items of an array that is open, at least one, and its end. -/
theorem foldlM_itemTokens (items read : List Value) (opened : List Frame)
    (rest : List Token) (hne : items ≠ []) :
    (itemTokens items ++ .closeArray :: rest).foldlM step?
        (.value (.array read :: opened))
      = rest.foldlM step?
        (.done (array (read.reverse ++ items)) opened) := by
  match items with
  | [item] =>
    rw [itemTokens, foldlM_tokens item, ← List.reverse_cons]
    rfl
  | item :: next :: items =>
    -- The comma puts the item with those that have been read.
    have ih := foldlM_itemTokens (next :: items) (item :: read) opened rest
      (by simp)
    rw [List.reverse_cons, List.append_assoc, List.singleton_append] at ih
    rw [itemTokens, List.append_assoc, foldlM_tokens item, ← ih]
    rfl
termination_by structural items

/-- The members of an object that is open, at least one, and its end. -/
theorem foldlM_memberTokens (members read : List (Option String × Value))
    (opened : List Frame) (rest : List Token) (hne : members ≠ []) :
    (memberTokens members ++ .closeObject :: rest).foldlM step?
        (.name read opened)
      = rest.foldlM step?
        (.done (object (read.reverse ++ members)) opened) := by
  match members with
  | [member] =>
    rw [memberTokens, foldlM_nameValueTokens member, ← List.reverse_cons]
    rfl
  | member :: next :: members =>
    have ih := foldlM_memberTokens (next :: members) (member :: read) opened
      rest (by simp)
    rw [List.reverse_cons, List.append_assoc, List.singleton_append] at ih
    rw [memberTokens, List.append_assoc, foldlM_nameValueTokens member, ← ih]
    rfl
termination_by structural members

/-- After the tokens of one member of an object its value is done, and the
object is open with the name of the member. -/
theorem foldlM_nameValueTokens (member : Option String × Value)
    (read : List (Option String × Value)) (opened : List Frame)
    (rest : List Token) :
    (nameValueTokens member ++ rest).foldlM step? (.name read opened)
      = rest.foldlM step?
        (.done member.2 (.object read member.1 :: opened)) := by
  match member with
  | (name, value) =>
    exact foldlM_tokens value (.object read name :: opened) rest
termination_by structural member

end

/-- A value is read from its tokens: the machine ends with this value and
nothing open. -/
theorem ofTokens?_tokens (value : Value) :
    ofTokens? value.tokens = some value := by
  have hrun := foldlM_tokens value [] []
  rw [List.append_nil] at hrun
  rw [ofTokens?, hrun]
  rfl

/-- Nothing is read when some token stands behind a value. -/
theorem ofTokens?_tokens_append (value : Value) (token : Token)
    (rest : List Token) :
    ofTokens? (value.tokens ++ token :: rest) = none := by
  rw [ofTokens?, foldlM_tokens, List.foldlM_cons]
  rfl

/-! ### Text -/

mutual

/-- A value holds no two numbers with nothing between them. -/
theorem isChain_tokens (value : Value) :
    value.tokens.IsChain Token.Apart := by
  match value with
  | null => exact .singleton _
  | bool _ => exact .singleton _
  | number _ => exact .singleton _
  | string _ => exact .singleton _
  | array items =>
    have hclosed :
        (itemTokens items ++ [Token.closeArray]).IsChain Token.Apart :=
      (isChain_append_cons (itemTokens items) [] rfl).mpr
        ⟨isChain_itemTokens items, .nil⟩
    exact (isChain_append_cons [] _ rfl).mpr ⟨.nil, hclosed⟩
  | object members =>
    have hclosed :
        (memberTokens members ++ [Token.closeObject]).IsChain Token.Apart :=
      (isChain_append_cons (memberTokens members) [] rfl).mpr
        ⟨isChain_memberTokens members, .nil⟩
    exact (isChain_append_cons [] _ rfl).mpr ⟨.nil, hclosed⟩
termination_by structural value

/-- The items of an array are apart, since they have commas between
them. -/
theorem isChain_itemTokens (items : List Value) :
    (itemTokens items).IsChain Token.Apart := by
  match items with
  | [] => exact .nil
  | [item] => exact isChain_tokens item
  | item :: next :: items =>
    exact (isChain_append_cons item.tokens _ rfl).mpr
      ⟨isChain_tokens item, isChain_itemTokens (next :: items)⟩
termination_by structural items

/-- The members of an object are apart as well: a comma stands between two
of them, and a comma is apart from any token. -/
theorem isChain_memberTokens (members : List (Option String × Value)) :
    (memberTokens members).IsChain Token.Apart := by
  match members with
  | [] => exact .nil
  | [member] => exact isChain_nameValueTokens member
  | member :: next :: members =>
    exact (isChain_append_cons (nameValueTokens member) _ rfl).mpr
      ⟨isChain_nameValueTokens member,
       isChain_memberTokens (next :: members)⟩
termination_by structural members

/-- The name of a member and its colon stand before its value. -/
theorem isChain_nameValueTokens (member : Option String × Value) :
    (nameValueTokens member).IsChain Token.Apart := by
  match member with
  | (name, value) =>
    exact (isChain_append_cons [.string name] value.tokens rfl).mpr
      ⟨.singleton _, isChain_tokens value⟩
termination_by structural member

end

/-- Whether all numbers of a value are numbers. -/
def isReadable (value : Value) : Bool := value.tokens.all Token.isReadable

/-- Tokens of a value whose numbers are numbers may be written without
anything between them. -/
theorem legible_tokens {value : Value} (h : value.isReadable = true) :
    Legible value.tokens :=
  ⟨List.all_eq_true.mp h, isChain_tokens value⟩

/-- A value whose numbers are numbers is read from its tokens however they
are spelled. -/
theorem ofText?_of_spelledOut {value : Value} {text : String}
    (h : value.isReadable = true)
    (htext : SpelledOut value.tokens text.toList) :
    ofText? text = some value := by
  rw [ofText?, htext.lex_eq (legible_tokens h), Option.bind_some,
    ofTokens?_tokens]

/-- Only white space may follow a value that does not end with a number. -/
theorem ofText?_append_eq_none {value : Value} {text rest : String}
    (h : value.isReadable = true)
    (hlast : ∀ token, value.tokens.getLast? = some token →
      token.isNumeral = false)
    (htext : SpelledOut value.tokens text.toList)
    (hrest : ∃ c ∈ rest.toList, isSpace c = false) :
    ofText? (text ++ rest) = none := by
  have hends : ∀ token, value.tokens.getLast? = some token →
      token.EndsBefore rest.toList := by
    intro token htoken hnumeral
    rw [hlast token htoken] at hnumeral
    cases hnumeral
  rw [ofText?, String.toList_append,
    htext.lex_append (legible_tokens h) _ hends]
  -- What follows is no row of tokens, or it has a token too many.
  cases hlex : lex rest.toList with
  | none => rfl
  | some tokens =>
    cases tokens with
    | nil =>
      obtain ⟨c, hmem, hc⟩ := hrest
      rw [isSpace_of_lex_eq_nil hlex c hmem] at hc
      cases hc
    | cons token tokens => exact ofTokens?_tokens_append value token tokens

/-- A value is read from its text on one line. -/
theorem ofText?_compact {value : Value} (h : value.isReadable = true) :
    ofText? value.compact = some value := by
  refine ofText?_of_spelledOut h ?_
  rw [compact, String.toList_ofList]
  exact spelledOut_flatMap_written _

/-- Values that are written as one text are the same, as both are read
from it. -/
theorem compact_inj {value value' : Value} (h : value.isReadable = true)
    (h' : value'.isReadable = true)
    (htext : value.compact = value'.compact) : value = value' := by
  have hread := ofText?_compact h
  rw [htext, ofText?_compact h'] at hread
  exact (Option.some.inj hread).symm

/-- The text over several lines spells the tokens, with white space. -/
theorem spelledOut_pretty (value : Value) :
    SpelledOut value.tokens value.pretty.toList := by
  rw [pretty, String.toList_ofList]
  exact spelledOut_layOut 0 _

/-- A value is read from its text over several lines. -/
theorem ofText?_pretty {value : Value} (h : value.isReadable = true) :
    ofText? value.pretty = some value :=
  ofText?_of_spelledOut h value.spelledOut_pretty

end HotkeyScript.Json.Value
