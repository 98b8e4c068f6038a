import HotkeyScript.Json.Token
import Mathlib.Data.List.Chain
import HotkeyScript.Proofs.Json.Number
import HotkeyScript.Proofs.Json.Quoted

/-!
# `HotkeyScript.Proofs.Json.Token`: reading tokens that were written

A token shows by its first character of what kind it is, and all but one
kind show by their last character where they end. Only a number goes on
as long as it can. So tokens are read back from their text if every
number among them is one and no number meets the next.

* `readWord?_number_append`, `readWord?_string_append`: the tokens whose
  text depends on what they hold.
* `lex_written_append`: one token, and whatever may follow it.
* `Legible`: tokens that may be written without anything between them.
* `SpelledOut`: tokens with white space around them, strings in any spelling.
  `SpelledOut.lex_append` reads them back, and what follows them.
* `spelledOut_flatMap_written`, `spelledOut_layOut`: tokens on one line and over
  several lines.
* `head?_layOut`, `getLast?_layOut`: no white space stands around an array
  over several lines.
-/

set_option autoImplicit false

namespace HotkeyScript.Json

/-! ### Kinds of tokens -/

/-- Whether the token is a number. -/
def Token.isNumeral : Token → Bool
  | number _ => true
  | _ => false

/-- Whether what the token holds may be written as its kind is. -/
def Token.isReadable : Token → Bool
  | number digits => isNumber digits.toList
  | _ => true

/-- A token that goes on as long as it can ends where this text
begins. -/
def Token.EndsBefore (token : Token) (rest : List Char) : Prop :=
  token.isNumeral = true →
    ∀ c, rest.head? = some c → isNumberChar c = false

/-- A token of one character is read from it. -/
theorem lex_mark {c : Char} {token : Token} (hspace : isSpace c = false)
    (hmark : ofMark? c = some token) (rest : List Char) :
    lex (c :: rest) = (lex rest).map (token :: ·) := by
  rw [lex, if_neg (by simp [hspace]), hmark]

/-- A token of several characters is read as the word that begins
there. -/
theorem lex_word {c : Char} {text rest : List Char} {token : Token}
    (hspace : isSpace c = false) (hmark : ofMark? c = none)
    (hword : readWord? (c :: text) = some (token, rest)) :
    lex (c :: text) = (lex rest).map (token :: ·) := by
  rw [lex, if_neg (by simp [hspace]), hmark]
  dsimp only
  -- The match keeps its equation for the termination of `lex`, so it is
  -- split instead of rewritten.
  split
  · next h =>
    rw [hword] at h
    cases h
    rfl
  · next h =>
    rw [hword] at h
    cases h

/-- A text without a token is white space. -/
theorem isSpace_of_lex_eq_nil {text : List Char} (h : lex text = some []) :
    ∀ c ∈ text, isSpace c = true := by
  fun_induction lex text with
  | case1 => nofun
  | case2 c rest hspace ih => exact List.forall_mem_cons.mpr ⟨hspace, ih h⟩
  | case3 | case4 => simp at h
  | case5 => cases h

/-! ### One token -/

/-- Behind a quote the body of a string is read. -/
theorem readWord?_quoted (body : List Char) :
    readWord? ('"' :: body)
      = (readBody? body).map fun (pieces, rest) =>
        (.string ((denoted? pieces).map String.ofList), rest) := rfl

/-- A string is read back, whatever follows its end quote. -/
theorem readWord?_string_append (text? : Option String)
    (rest : List Char) :
    readWord? ((Token.string text?).written ++ rest)
      = some (.string text?, rest) := by
  cases text? with
  | none =>
    -- Half of a surrogate pair, by itself in the string, so this denotes
    -- no text.
    have hunit : hexUnit? 'd' '8' '0' '0' = some 0xD800 := by decide
    have hhalf := readBody?_unit_append hunit ('"' :: rest)
    simp only [Token.written, List.cons_append, List.nil_append,
      readWord?_quoted, hhalf, readBody?, Option.map_some]
    rfl
  | some text =>
    simp only [Token.written, quote, List.cons_append, List.append_assoc,
      List.nil_append, readWord?_quoted, readBody?_flatMap_escape_append,
      Option.map_some, denoted?_map_char, String.ofList_toList]

/-- No character of a number is white space. -/
theorem isSpace_of_isNumberChar {c : Char} (h : isNumberChar c = true) :
    isSpace c = false := by
  rw [Bool.eq_false_iff]
  intro hspace
  simp only [isSpace, Bool.or_eq_true, beq_iff_eq] at hspace
  obtain ((rfl | rfl) | rfl) | rfl := hspace <;> exact absurd h (by decide)

/-- No character of a number is a token of its own. -/
theorem ofMark?_of_isNumberChar {c : Char} (h : isNumberChar c = true) :
    ofMark? c = none := by
  unfold ofMark?
  split
  case h_7 => rfl
  all_goals exact absurd h (by decide)

/-- A number is read back if no character of numbers follows it. -/
theorem readWord?_number_append {digits : String}
    (h : isNumber digits.toList = true) {rest : List Char}
    (hrest : ∀ c, rest.head? = some c → isNumberChar c = false) :
    readWord? (digits.toList ++ rest) = some (.number digits, rest) := by
  have hall := isNumberChar_of_isNumber h
  -- What follows has nothing to give to the number.
  have hends : rest.takeWhile isNumberChar = []
      ∧ rest.dropWhile isNumberChar = rest := by
    cases rest with
    | nil => exact ⟨rfl, rfl⟩
    | cons c rest => simp [hrest c rfl]
  have htake : (digits.toList ++ rest).takeWhile isNumberChar
      = digits.toList := by
    rw [List.takeWhile_append_of_pos hall, hends.1, List.append_nil]
  have hdrop : (digits.toList ++ rest).dropWhile isNumberChar = rest := by
    rw [List.dropWhile_append_of_pos hall, hends.2]
  obtain ⟨c, cs, hcons⟩ := List.exists_cons_of_ne_nil (ne_nil_of_isNumber h)
  have hc : isNumberChar c = true := hall c (by simp [hcons])
  unfold readWord?
  split
  case h_5 => rw [htake, hdrop, if_pos h, String.ofList_toList]
  -- No number begins as a string or a word does.
  all_goals
    next heq =>
    rw [hcons] at heq
    rw [(List.cons.inj heq).1] at hc
    exact absurd hc (by decide)

/-- A token is read back from what is written for it, if that ends
there. -/
theorem lex_written_append {token : Token}
    (h : token.isReadable = true) {rest : List Char}
    (hends : token.EndsBefore rest) :
    lex (token.written ++ rest) = (lex rest).map (token :: ·) := by
  -- The marks are read by their one character, the words as they stand.
  -- Only a number looks at what follows.
  cases token with
  | openArray => exact lex_mark rfl rfl rest
  | closeArray => exact lex_mark rfl rfl rest
  | openObject => exact lex_mark rfl rfl rest
  | closeObject => exact lex_mark rfl rfl rest
  | comma => exact lex_mark rfl rfl rest
  | colon => exact lex_mark rfl rfl rest
  | null => exact lex_word rfl rfl rfl
  | bool value => cases value <;> exact lex_word rfl rfl rfl
  | string text? =>
    have hword := readWord?_string_append text? rest
    cases text? <;> exact lex_word rfl rfl hword
  | number digits =>
    have hword := readWord?_number_append h (hends rfl)
    obtain ⟨c, cs, hcons⟩ :=
      List.exists_cons_of_ne_nil (ne_nil_of_isNumber h)
    have hc : isNumberChar c = true :=
      isNumberChar_of_isNumber h c (by simp [hcons])
    rw [Token.written]
    rw [hcons, List.cons_append] at hword ⊢
    exact lex_word (isSpace_of_isNumberChar hc) (ofMark?_of_isNumberChar hc)
      hword

/-! ### Tokens in a row -/

/-- Not two numbers. -/
def Token.Apart (a b : Token) : Prop :=
  a.isNumeral = true → b.isNumeral = false

/-- Tokens that may be written without anything between them. -/
structure Legible (tokens : List Token) : Prop where
  /-- What stands in a number is one. -/
  readable : ∀ token ∈ tokens, token.isReadable = true
  /-- No two numbers stand side by side. -/
  apart : tokens.IsChain Token.Apart

/-- Tokens on the two sides of a token other than a number can be looked
at separately, for only two numbers run into each other. -/
theorem isChain_append_cons (front : List Token) {mark : Token}
    (back : List Token) (h : mark.isNumeral = false) :
    (front ++ mark :: back).IsChain Token.Apart
      ↔ front.IsChain Token.Apart ∧ back.IsChain Token.Apart := by
  have hbefore : ∀ token : Token, token.Apart mark := fun _ _ => h
  have hafter : ∀ token, mark.Apart token := by simp [Token.Apart, h]
  simp [List.isChain_append, List.isChain_cons, hbefore, hafter]

/-- A token in any of the ways to write it. Only strings have several. -/
inductive Token.SpelledAs : Token → List Char → Prop where
  | written (token : Token) : token.SpelledAs token.written
  | string {text : String} {body : List Char}
      (h : Spells text.toList body) :
      (Token.string (some text)).SpelledAs ('"' :: (body ++ ['"']))

section
variable {token : Token} {spelling : List Char}

/-- No token other than a number begins with a character of numbers. -/
theorem Token.SpelledAs.exists_head (h : token.SpelledAs spelling)
    (hnumeral : token.isNumeral = false) :
    ∃ c text, spelling = c :: text ∧ isNumberChar c = false := by
  cases h with
  | string _ => exact ⟨_, _, rfl, rfl⟩
  | written =>
    cases token with
    | number digits => cases hnumeral
    | bool value => cases value <;> exact ⟨_, _, rfl, rfl⟩
    | string text? => cases text? <;> exact ⟨_, _, rfl, rfl⟩
    | _ => exact ⟨_, _, rfl, rfl⟩

/-- A token is read back from any of its spellings. -/
theorem Token.SpelledAs.lex_append (h : token.SpelledAs spelling)
    (hread : token.isReadable = true) {rest : List Char}
    (hends : token.EndsBefore rest) :
    lex (spelling ++ rest) = (lex rest).map (token :: ·) := by
  cases h with
  | written => exact lex_written_append hread hends
  | @string text body h =>
    obtain ⟨pieces, hpieces, hdenoted⟩ := h.readBody? rest
    rw [List.cons_append, List.append_assoc, List.singleton_append]
    refine lex_word rfl rfl ?_
    rw [readWord?_quoted, hpieces, Option.map_some]
    dsimp only
    rw [hdenoted, Option.map_some, String.ofList_toList]

end

/-- Without the first token the others may be written so as well. -/
theorem Legible.tail {token : Token} {tokens : List Token}
    (h : Legible (token :: tokens)) : Legible tokens :=
  ⟨fun t ht => h.readable t (List.mem_cons_of_mem token ht), h.apart.tail⟩

/-- Tokens in any spelling, one after the other, with white space anywhere
around them. -/
inductive SpelledOut : List Token → List Char → Prop where
  | nil : SpelledOut [] []
  | space {tokens : List Token} {text : List Char} {c : Char}
      (hspace : isSpace c = true) (h : SpelledOut tokens text) :
      SpelledOut tokens (c :: text)
  | token {tokens : List Token} {text : List Char} {token : Token}
      {spelling : List Char} (hspelling : token.SpelledAs spelling)
      (h : SpelledOut tokens text) :
      SpelledOut (token :: tokens) (spelling ++ text)

section
variable {tokens : List Token} {text spaces : List Char}

/-- No number goes on into a text that does not begin with one. -/
theorem SpelledOut.endsBefore {token : Token} (h : SpelledOut tokens text)
    (hlegible : Legible (token :: tokens)) {rest : List Char}
    (hlast : tokens = [] → token.EndsBefore rest) :
    token.EndsBefore (text ++ rest) := by
  intro hnumeral c hc
  cases h with
  | nil => exact hlast rfl hnumeral c hc
  | space hspace _ =>
    cases hc
    rw [Bool.eq_false_iff]
    intro hnumber
    rw [isSpace_of_isNumberChar hnumber] at hspace
    cases hspace
  | token hspelling _ =>
    obtain ⟨happart, -⟩ := List.isChain_cons_cons.mp hlegible.apart
    obtain ⟨first, back, hfirst, hnumber⟩ :=
      hspelling.exists_head (happart hnumeral)
    rw [hfirst, List.cons_append, List.cons_append] at hc
    cases hc
    exact hnumber

/-- Tokens are read from their text however they are spelled, and what
stands behind them is read by itself. -/
theorem SpelledOut.lex_append (h : SpelledOut tokens text)
    (hlegible : Legible tokens) (rest : List Char)
    (hends : ∀ token, tokens.getLast? = some token → token.EndsBefore rest) :
    lex (text ++ rest) = (lex rest).map (tokens ++ ·) := by
  induction h with
  | nil => simp
  | space hspace _ ih =>
    rw [List.cons_append, lex, if_pos hspace, ih hlegible hends]
  -- The token ends where the next one begins. The last one ends at the
  -- rest.
  | @token tokens text token spelling hspelling h ih =>
    have hread : token.isReadable = true := hlegible.readable token (by simp)
    have hlast : tokens = [] → token.EndsBefore rest := by
      rintro rfl
      exact hends token rfl
    have hrest : ∀ last, tokens.getLast? = some last →
        last.EndsBefore rest := by
      intro last hlast
      refine hends last ?_
      rw [List.getLast?_cons, hlast]
      rfl
    rw [List.append_assoc, hspelling.lex_append hread
      (h.endsBefore hlegible hlast), ih hlegible.tail hrest, Option.map_map]
    rfl

/-- Tokens are read from their text if nothing follows. -/
theorem SpelledOut.lex_eq (h : SpelledOut tokens text)
    (hlegible : Legible tokens) : lex text = some tokens := by
  have hread := h.lex_append hlegible [] fun _ _ _ _ => nofun
  rwa [List.append_nil, lex, Option.map_some, List.append_nil] at hread

/-- White space may stand in front of what is spelled out. -/
theorem SpelledOut.spaces_append (h : SpelledOut tokens text)
    (hspaces : ∀ c ∈ spaces, isSpace c = true) :
    SpelledOut tokens (spaces ++ text) := by
  induction spaces with
  | nil => exact h
  | cons c spaces ih =>
    rw [List.forall_mem_cons] at hspaces
    exact .space hspaces.1 (ih hspaces.2)

end

/-! ### Two ways to lay tokens out -/

/-- Tokens that are written one right after the other are spelled out. -/
theorem spelledOut_flatMap_written (tokens : List Token) :
    SpelledOut tokens (tokens.flatMap Token.written) := by
  induction tokens with
  | nil => exact .nil
  | cons token tokens ih => exact .token (.written token) ih

/-- The end of a line and an indentation are white space. -/
theorem isSpace_of_mem_newline {depth : Nat} {c : Char}
    (h : c ∈ newline depth) : isSpace c = true := by
  rw [newline, List.mem_cons, List.mem_replicate] at h
  obtain rfl | ⟨-, rfl⟩ := h <;> rfl

/-- A new line with its indentation may stand in front. -/
theorem SpelledOut.newline_append {tokens : List Token} {text : List Char}
    (h : SpelledOut tokens text) (depth : Nat) :
    SpelledOut tokens (newline depth ++ text) :=
  h.spaces_append fun _ => isSpace_of_mem_newline

/-- Tokens that are written over several lines are spelled out as well. -/
theorem spelledOut_layOut (depth : Nat) (tokens : List Token) :
    SpelledOut tokens (layOut depth tokens) := by
  -- The cases are those of the layout: no token, an empty container, and
  -- each token that has white space before or behind it.
  fun_induction layOut depth tokens with
  | case1 => exact .nil
  | case2 _ _ ih => exact .token (.written _) (.token (.written _) ih)
  | case3 _ _ ih => exact .token (.written _) (.token (.written _) ih)
  | case4 depth _ _ _ ih | case5 depth _ _ _ ih =>
    rw [List.append_assoc]
    exact .token (.written _) (ih.newline_append (depth + 1))
  | case6 depth _ _ _ ih | case7 depth _ _ _ ih =>
    rw [List.append_assoc]
    exact (SpelledOut.token (.written _) ih).newline_append (depth - 1)
  | case8 depth _ _ _ ih =>
    rw [List.append_assoc]
    exact .token (.written _) (ih.newline_append depth)
  | case9 _ _ _ _ ih => exact .token (.written _) (.space rfl ih)
  | case10 _ token _ _ _ _ _ _ _ _ _ ih => exact .token (.written token) ih

/-! ### The ends of an array over several lines -/

/-- An array over several lines begins with its bracket. -/
theorem head?_layOut (depth : Nat) (tokens : List Token) :
    (layOut depth (.openArray :: tokens)).head? = some '[' := by
  cases tokens with
  | nil => rfl
  | cons token tokens => cases token <;> rfl

/-- What is written of a token and before it does not matter unless it is
the last one. -/
theorem getLast?_append_layOut {depth : Nat} {token : Token}
    {tokens : List Token} {front : List Char}
    (h : (token :: tokens).getLast? = some .closeArray)
    (hfront : token = .closeArray → front.getLast? = some ']')
    (ih : tokens.getLast? = some .closeArray →
      (layOut depth tokens).getLast? = some ']') :
    (front ++ layOut depth tokens).getLast? = some ']' := by
  cases tokens with
  | nil =>
    rw [List.getLast?_singleton, Option.some.injEq] at h
    rw [layOut, List.append_nil, hfront h]
  | cons next tokens =>
    rw [List.getLast?_cons_cons] at h
    rw [List.getLast?_append, ih h, Option.some_or]

/-- An array over several lines ends with its bracket. -/
theorem getLast?_layOut {depth : Nat} {tokens : List Token}
    (h : tokens.getLast? = some .closeArray) :
    (layOut depth tokens).getLast? = some ']' := by
  -- The layout puts space behind a token only where another token
  -- follows, so the last one stands at the end.
  fun_induction layOut depth tokens with
  | case1 => cases h
  | case2 _ rest ih =>
    rw [List.getLast?_cons_cons] at h
    show (['[', ']'] ++ layOut _ rest).getLast? = _
    exact getLast?_append_layOut h (fun _ => rfl) ih
  | case3 _ rest ih =>
    rw [List.getLast?_cons_cons] at h
    show (['\x7b', '\x7d'] ++ layOut _ rest).getLast? = _
    exact getLast?_append_layOut h nofun ih
  | case4 _ _ _ _ ih | case5 _ _ _ _ ih | case7 _ _ _ _ ih
  | case8 _ _ _ _ ih =>
    exact getLast?_append_layOut h nofun ih
  | case6 _ _ _ _ ih =>
    exact getLast?_append_layOut h (fun _ => List.getLast?_concat) ih
  | case9 _ _ _ _ ih =>
    rw [List.append_cons]
    exact getLast?_append_layOut h nofun ih
  | case10 _ token _ _ _ _ _ hclose _ _ _ ih =>
    exact getLast?_append_layOut h (fun heq => absurd heq hclose) ih

end HotkeyScript.Json
