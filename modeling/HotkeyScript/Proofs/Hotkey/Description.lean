import HotkeyScript.Proofs.Declaration.Image
import HotkeyScript.Proofs.Modifier.Listing

/-!
# `HotkeyScript.Proofs.Hotkey.Description`: descriptions are unambiguous

A description has no quotes around its keys, and a key may be any
character: a plus sign like those between the words, a blank or an `&`
like those between the combos, or a letter like those of the names. It
is unambiguous all the same. Every name has two letters or more, and no
word has anything but letters behind its first character. So where a
word ends is seen from what follows, whatever the key is.

* `words_inj`: words that are joined by plus signs can be told apart,
  and from what stands behind them.
* `ModifierSet.Named`: the sets that their names can tell apart.
  `ModifierSet.names_inj` says that they do.
* `Combo.describe_append_inj`: a combo from the beginning of a text.
* `describes_apart`: hotkeys and combos from their descriptions.
-/

set_option autoImplicit false

namespace HotkeyScript

namespace Description

/-! ### Words -/

/-- A word of a description: a character, and then letters. -/
def IsWord (word : List Char) : Prop :=
  ∃ c letters, word = c :: letters ∧ ∀ d ∈ letters, d.isAlpha = true

/-- What stands behind the words of a combo: nothing, or the joint of a
chord and its second combo. -/
inductive Behind : List Char → Prop where
  | nothing : Behind []
  | joint (rest : List Char) : Behind (' ' :: '&' :: rest)

/-- A text that does not go on with a letter, so that a word ends before
it. -/
def EndsWord (text : List Char) : Prop :=
  ∀ c ∈ text.head?, c.isAlpha = false

/-- What stands behind the first word of a combo: its other words, each
with a plus sign before it, and what stands behind the combo. -/
def further (words : List (List Char)) (rest : List Char) : List Char :=
  words.flatMap ('+' :: ·) ++ rest

/-- The words of a combo, with what stands behind it, begin with the first
word. -/
theorem intercalate_cons_append (word : List Char)
    (words : List (List Char)) (rest : List Char) :
    ['+'].intercalate (word :: words) ++ rest
      = word ++ further words rest := by
  induction words generalizing word with
  | nil => rw [List.intercalate_singleton, further, List.flatMap_nil]; rfl
  | cons next words ih =>
    rw [List.intercalate_cons_cons, List.append_assoc, ih]
    simp [further]

/-- What stands behind a combo does not go on with a letter. -/
theorem Behind.endsWord {rest : List Char} (h : Behind rest) :
    EndsWord rest := by
  cases h with
  | nothing => simp [EndsWord]
  | joint rest => simp [EndsWord]

/-- No letter comes first where further words may stand, since each of
them has a plus sign before it. -/
theorem endsWord_further {rest : List Char} (h : Behind rest)
    (words : List (List Char)) : EndsWord (further words rest) := by
  cases words with
  | nil => exact h.endsWord
  | cons word words => simp [further, EndsWord]

/-- Letters end where something else follows, so two texts that begin with
letters agree on where these end. -/
theorem letters_inj {letters letters' rest rest' : List Char}
    (hletters : ∀ c ∈ letters, c.isAlpha = true)
    (hletters' : ∀ c ∈ letters', c.isAlpha = true)
    (hrest : EndsWord rest) (hrest' : EndsWord rest')
    (h : letters ++ rest = letters' ++ rest') :
    letters = letters' ∧ rest = rest' := by
  -- The letters are what can be taken from the whole while letters
  -- follow.
  have htake {letters rest : List Char}
      (hletters : ∀ c ∈ letters, c.isAlpha = true)
      (hrest : EndsWord rest) :
      (letters ++ rest).takeWhile Char.isAlpha = letters := by
    have hnil : rest.takeWhile Char.isAlpha = [] := by
      cases rest with
      | nil => rfl
      | cons c rest => simp [hrest c rfl]
    rw [List.takeWhile_append_of_pos hletters, hnil, List.append_nil]
  have hsame : letters = letters' := by
    rw [← htake hletters hrest, h, htake hletters' hrest']
  subst hsame
  exact ⟨rfl, List.append_cancel_left h⟩

section
variable {rest rest' : List Char}

/-- No word can be taken for the joint of a chord, not even a blank. -/
theorem word_append_further_ne {word : List Char} (hword : IsWord word)
    (words : List (List Char)) (hrest : Behind rest)
    (hrest' : Behind rest') : word ++ further words rest ≠ rest' := by
  obtain ⟨c, letters, rfl, hletters⟩ := hword
  cases hrest' with
  | nothing => simp
  | joint rest' =>
    intro h
    -- The word would be the blank, and `&` begin what follows it.
    have htail : letters ++ further words rest = '&' :: rest' :=
      (List.cons.inj h).2
    cases letters with
    | cons d letters =>
      have hd := hletters d List.mem_cons_self
      rw [(List.cons.inj htail).1] at hd
      exact absurd hd (by decide)
    | nil =>
      cases words with
      | cons next words => cases htail
      | nil => cases hrest <;> cases htail

/-- The first word ends where the next one begins, if there is one. -/
theorem word_append_further_inj {word word' : List Char}
    (hword : IsWord word) (hword' : IsWord word')
    {words words' : List (List Char)} (hrest : Behind rest)
    (hrest' : Behind rest')
    (h : word ++ further words rest = word' ++ further words' rest') :
    word = word' ∧ further words rest = further words' rest' := by
  -- The first character may be anything, so it is cut off, and what is
  -- left of the word is letters.
  obtain ⟨c, letters, rfl, hletters⟩ := hword
  obtain ⟨c', letters', rfl, hletters'⟩ := hword'
  obtain ⟨rfl, htail⟩ := List.cons.inj h
  obtain ⟨rfl, hfurther⟩ := letters_inj hletters hletters'
    (endsWord_further hrest words) (endsWord_further hrest' words') htail
  exact ⟨rfl, hfurther⟩

/-- Words with plus signs before them can be told apart, and from what
stands behind them. -/
theorem further_inj {words words' : List (List Char)}
    (hwords : ∀ word ∈ words, IsWord word)
    (hwords' : ∀ word ∈ words', IsWord word) (hrest : Behind rest)
    (hrest' : Behind rest')
    (h : further words rest = further words' rest') :
    words = words' ∧ rest = rest' := by
  -- There are more words exactly if a plus sign comes next, since nothing
  -- that stands behind a combo begins with one.
  induction words generalizing words' with
  | nil =>
    cases words' with
    | nil => exact ⟨rfl, h⟩
    | cons => cases hrest <;> cases h
  | cons word words ih =>
    cases words' with
    | nil => cases hrest' <;> cases h
    | cons word' words' =>
      rw [List.forall_mem_cons] at hwords hwords'
      have htail : word ++ further words rest
          = word' ++ further words' rest' := by
        simpa [further] using h
      obtain ⟨rfl, hfurther⟩ := word_append_further_inj hwords.1 hwords'.1
        hrest hrest' htail
      obtain ⟨rfl, rfl⟩ := ih hwords.2 hwords'.2 hfurther
      exact ⟨rfl, rfl⟩

/-- Words that are joined by plus signs can be told apart, and from what
stands behind them. -/
theorem words_inj {words words' : List (List Char)}
    (hwords : ∀ word ∈ words, IsWord word)
    (hwords' : ∀ word ∈ words', IsWord word) (hrest : Behind rest)
    (hrest' : Behind rest')
    (h : ['+'].intercalate words ++ rest
      = ['+'].intercalate words' ++ rest') :
    words = words' ∧ rest = rest' := by
  -- Without words there is only what stands behind, and no word begins
  -- like that.
  cases words with
  | nil =>
    cases words' with
    | nil => exact ⟨rfl, h⟩
    | cons word' words' =>
      rw [intercalate_cons_append] at h
      exact absurd h.symm (word_append_further_ne
        (hwords' word' List.mem_cons_self) words' hrest' hrest)
  | cons word words =>
    rw [intercalate_cons_append] at h
    rw [List.forall_mem_cons] at hwords
    cases words' with
    | nil =>
      exact absurd h (word_append_further_ne hwords.1 words hrest hrest')
    | cons word' words' =>
      rw [intercalate_cons_append] at h
      rw [List.forall_mem_cons] at hwords'
      obtain ⟨rfl, hfurther⟩ := word_append_further_inj hwords.1 hwords'.1
        hrest hrest' h
      obtain ⟨rfl, rfl⟩ := further_inj hwords.2 hwords'.2 hrest hrest'
        hfurther
      exact ⟨rfl, rfl⟩

end

end Description

open Description (IsWord Behind words_inj)

/-! ### Names -/

namespace ModifierSet

/-- Every bit of the set stands for a modifier. -/
def Named (s : ModifierSet) : Prop := s.unnamed = 0#16

instance (s : ModifierSet) : Decidable s.Named :=
  inferInstanceAs (Decidable (s.unnamed = 0#16))

/-- A set whose bits all stand for modifiers is made of its modifiers. -/
theorem Named.holdAll_filter_has {s : ModifierSet} (h : s.Named) :
    (∅ : ModifierSet).holdAll (Modifier.all.filter s.has) = s := by
  have hsets := s.foldl_entrySets
  have hunnamed : s.unnamed = 0#16 := h
  rw [entrySets, if_pos hunnamed, List.append_nil, List.foldl_map] at hsets
  exact hsets

/-- What a set has is known from its names, since each modifier has a
name of its own. -/
theorem has_eq_of_names_eq {s t : ModifierSet} (h : s.names = t.names) :
    s.has = t.has := by
  have hname : Function.Injective Modifier.name := by
    intro m n
    cases m <;> cases n <;> decide
  -- Both lists of names go through the modifiers in one order.
  have hfilter : Modifier.namingOrder.filter s.has
      = Modifier.namingOrder.filter t.has := List.map_injective_iff.mpr hname h
  funext m
  have hm : m ∈ Modifier.namingOrder := by cases m <;> decide
  have hmem : m ∈ Modifier.namingOrder.filter s.has
      ↔ m ∈ Modifier.namingOrder.filter t.has := by rw [hfilter]
  simp only [List.mem_filter, hm, true_and] at hmem
  exact Bool.eq_iff_iff.mpr hmem

/-- Sets of named bits are the same if their names are. -/
theorem names_inj {s t : ModifierSet} (hs : s.Named) (ht : t.Named)
    (h : s.names = t.names) : s = t := by
  rw [← hs.holdAll_filter_has, ← ht.holdAll_filter_has,
    has_eq_of_names_eq h]

/-- A set of modifiers that have symbols is a set of modifiers: it has no
bit without a name. -/
theorem OfSymbols.named {s : ModifierSet} (h : s.OfSymbols) : s.Named := by
  have hfull : full = (∅ : ModifierSet).holdAll Modifier.all := rfl
  apply BitVec.eq_of_getLsbD_eq
  intro i _
  rw [unnamed, bits_sdiff, BitVec.getLsbD_and, BitVec.getLsbD_zero,
    Bool.and_eq_false_imp]
  intro hbit
  -- A bit that is set has a symbol, so it is one of the eleven.
  obtain ⟨entry, -, rfl⟩ := h i hbit
  have hin : full.bits.getLsbD entry.2.place = true := by
    rw [hfull, getLsbD_holdAll_empty]
    exact ⟨entry.2, by cases entry.2 <;> decide, rfl⟩
  simp [hin]

end ModifierSet

/-! ### Combos -/

namespace Combo

/-- The words of a combo's description. -/
def words (combo : Combo) : List (List Char) :=
  combo.modifiers.names.map String.toList ++ combo.key.toList.map ([·])

/-- A combo is described by its words, with plus signs between them. -/
theorem toList_describe (combo : Combo) :
    combo.describe.toList = ['+'].intercalate combo.words := by
  simp [describe, words, Function.comp_def]

/-- A name is a word of more than one letter. -/
theorem isWord_of_mem_names {s : ModifierSet} {name : String}
    (h : name ∈ s.names) :
    IsWord name.toList ∧ 1 < name.toList.length := by
  obtain ⟨m, -, rfl⟩ := List.mem_map.mp h
  have hall : m.name.toList.tail.all Char.isAlpha = true
      ∧ 1 < m.name.toList.length := by cases m <;> decide
  refine ⟨?_, hall.2⟩
  obtain ⟨c, letters, heq⟩ := List.exists_cons_of_length_pos
    (Nat.lt_of_succ_lt hall.2)
  rw [heq] at hall
  exact ⟨c, letters, heq, List.all_eq_true.mp hall.1⟩

/-- The words of a combo are the names of its modifiers, which are
letters, and its key, which may be any character. -/
theorem isWord_of_mem_words {combo : Combo} {word : List Char}
    (h : word ∈ combo.words) : IsWord word := by
  cases List.mem_append.mp h with
  | inl hname =>
    obtain ⟨name, hmem, rfl⟩ := List.mem_map.mp hname
    exact (isWord_of_mem_names hmem).1
  | inr hkey =>
    obtain ⟨key, -, rfl⟩ := List.mem_map.mp hkey
    exact ⟨key, [], rfl, by simp⟩

/-- The names are the words of more than one character, and the key is
the one that is left. -/
theorem words_eq (combo : Combo) :
    combo.words.filter (1 < ·.length)
        = combo.modifiers.names.map String.toList
      ∧ combo.words.filter (·.length == 1) = combo.key.toList.map ([·]) := by
  have hname {word : List Char}
      (h : word ∈ combo.modifiers.names.map String.toList) :
      1 < word.length := by
    obtain ⟨name, hmem, rfl⟩ := List.mem_map.mp h
    exact (isWord_of_mem_names hmem).2
  have hkey {word : List Char} (h : word ∈ combo.key.toList.map ([·])) :
      word.length = 1 := by
    obtain ⟨key, -, rfl⟩ := List.mem_map.mp h
    rfl
  -- Each filter keeps one of the two parts and drops the other.
  constructor
  · rw [words, List.filter_append, List.filter_eq_self.mpr,
      List.filter_eq_nil_iff.mpr, List.append_nil]
    · intro word h
      simp [hkey h]
    · intro word h
      simpa using hname h
  · rw [words, List.filter_append, List.filter_eq_nil_iff.mpr,
      List.filter_eq_self.mpr, List.nil_append]
    · intro word h
      simp [hkey h]
    · intro word h
      have := hname h
      simp only [beq_iff_eq]
      omega

/-- A combo is known from the words that describe it. -/
theorem eq_of_words_eq {a b : Combo} (ha : a.modifiers.Named)
    (hb : b.modifiers.Named) (h : a.words = b.words) : a = b := by
  have hnames : a.modifiers.names = b.modifiers.names := by
    have hlong := congrArg (List.filter (1 < ·.length)) h
    rw [a.words_eq.1, b.words_eq.1] at hlong
    exact List.map_injective_iff.mpr (fun _ _ => String.toList_inj.mp) hlong
  have hkey : a.key = b.key := by
    have hshort := congrArg (List.filter (·.length == 1)) h
    rw [a.words_eq.2, b.words_eq.2] at hshort
    have hlist : a.key.toList = b.key.toList :=
      List.map_injective_iff.mpr (fun _ _ => List.singleton_inj.mp) hshort
    have hhead := congrArg List.head? hlist
    rwa [Option.head?_toList, Option.head?_toList] at hhead
  obtain ⟨modifiers, key⟩ := a
  obtain ⟨modifiers', key'⟩ := b
  rw [mk.injEq]
  exact ⟨ModifierSet.names_inj ha hb hnames, hkey⟩

/-- A combo is known from the beginning of a text. -/
theorem describe_append_inj {a b : Combo} (ha : a.modifiers.Named)
    (hb : b.modifiers.Named) {rest rest' : List Char}
    (hrest : Behind rest) (hrest' : Behind rest')
    (h : a.describe.toList ++ rest = b.describe.toList ++ rest') :
    a = b ∧ rest = rest' := by
  rw [toList_describe, toList_describe] at h
  obtain ⟨hwords, hsame⟩ := words_inj (fun _ => isWord_of_mem_words)
    (fun _ => isWord_of_mem_words) hrest hrest' h
  exact ⟨eq_of_words_eq ha hb hwords, hsame⟩

/-- Two combos of named bits are the same if they are described in the
same way. -/
theorem describe_inj {a b : Combo} (ha : a.modifiers.Named)
    (hb : b.modifiers.Named) (h : a.describe = b.describe) : a = b :=
  (describe_append_inj ha hb .nothing .nothing (by rw [h])).1

end Combo

/-! ### Hotkeys -/

namespace Hotkey

/-- Every bit of the modifiers stands for a modifier. -/
def Named (hotkey : Hotkey) : Prop :=
  ∀ combo ∈ hotkey.combos, combo.modifiers.Named

instance (hotkey : Hotkey) : Decidable hotkey.Named :=
  inferInstanceAs
    (Decidable (∀ combo ∈ hotkey.combos, combo.modifiers.Named))

/-- What stands behind the first combo. -/
def joined (hotkey : Hotkey) : List Char :=
  hotkey.second.elim [] fun second =>
    ' ' :: '&' :: ' ' :: second.describe.toList

/-- A hotkey is described by its first combo and by what is joined to
it. -/
theorem toList_describe (hotkey : Hotkey) :
    hotkey.describe.toList
      = hotkey.first.describe.toList ++ hotkey.joined := by
  rw [describe, joined]
  cases hotkey.second with
  | none => simp
  | some second => simp

/-- Behind the first combo stands nothing, or the joint of a chord. -/
theorem behind_joined (hotkey : Hotkey) : Behind hotkey.joined := by
  rw [joined]
  cases hotkey.second with
  | none => exact .nothing
  | some second => exact .joint _

/-- The second combo, or that there is none, is known from what is joined
to the first one. -/
theorem second_eq_of_joined_eq {a b : Hotkey} (ha : a.Named)
    (hb : b.Named) (h : a.joined = b.joined) : a.second = b.second := by
  rw [joined, joined] at h
  -- The joint is there exactly if there is a second combo.
  cases hsecond : a.second with
  | none =>
    rw [hsecond] at h
    cases hother : b.second with
    | none => rfl
    | some other =>
      rw [hother] at h
      cases h
  | some second =>
    rw [hsecond] at h
    cases hother : b.second with
    | none =>
      rw [hother] at h
      cases h
    | some other =>
      rw [hother] at h
      have hsame : second.describe.toList = other.describe.toList := by
        simpa using h
      have hnamed := ha second (by simp [combos, hsecond])
      have hnamed' := hb other (by simp [combos, hother])
      rw [Combo.describe_inj hnamed hnamed' (String.toList_inj.mp hsame)]

/-- Hotkeys of named bits are described in the same way exactly when they
have the same combos. -/
theorem describe_eq_iff {a b : Hotkey} (ha : a.Named) (hb : b.Named) :
    a.describe = b.describe
      ↔ a.isChord = b.isChord ∧ a.first = b.first
        ∧ a.second = b.second := by
  constructor
  · intro h
    have htext := congrArg String.toList h
    rw [toList_describe, toList_describe] at htext
    obtain ⟨hfirst, hjoined⟩ := Combo.describe_append_inj
      (ha a.first List.mem_cons_self) (hb b.first List.mem_cons_self)
      a.behind_joined b.behind_joined htext
    have hsecond := second_eq_of_joined_eq ha hb hjoined
    exact ⟨by rw [isChord, isChord, hsecond], hfirst, hsecond⟩
  · rintro ⟨-, hfirst, hsecond⟩
    rw [describe, describe, hfirst, hsecond]

/-- Every modifier of a declared hotkey has a symbol, and so a name. -/
theorem named_of_ofLine? {line : String} {hotkey : Hotkey}
    (h : ofLine? line = some hotkey) : hotkey.Named := by
  have hdeclarable := (Declaration.declares_of_ofLine
    (ofLine?_eq_some_iff.mp h)).isDeclarable
  intro combo hcombo
  cases List.mem_cons.mp hcombo with
  | inl hfirst =>
    rw [hfirst]
    exact hdeclarable.declarable_first.modifiers.named
  | inr hsecond =>
    exact (hdeclarable.declarable_second combo
      (Option.mem_toList.mp hsecond)).modifiers.named

end Hotkey

/-- **A description tells what it is of**, a combo or a hotkey, whether
this was read from a line or made in another way. Only bits that stand
for no modifier are not in it. -/
theorem describes_apart :
    (∀ a b : Hotkey, a.Named → b.Named →
        (a.describe = b.describe
          ↔ a.isChord = b.isChord ∧ a.first = b.first
            ∧ a.second = b.second))
      ∧ (∀ a b : Combo, a.modifiers.Named → b.modifiers.Named →
        (a.describe = b.describe ↔ a = b))
      ∧ ∀ line hotkey, Hotkey.ofLine? line = some hotkey →
        hotkey.Named := by
  refine ⟨fun _ _ => Hotkey.describe_eq_iff, ?_,
    fun _ _ => Hotkey.named_of_ofLine?⟩
  intro a b ha hb
  exact ⟨Combo.describe_inj ha hb, fun h => by rw [h]⟩

/-- A blank as the first key of a chord and as the second one, where the
other combo is empty. A key of a declaration is a colon. -/
theorem describes_apart_blank_keys :
    let front : Hotkey := ⟨"", ⟨∅, some ' '⟩, some .empty⟩
    let back : Hotkey := ⟨"", .empty, some ⟨∅, some ' '⟩⟩
    let colon : Hotkey := ⟨">>: &::", ⟨.single .right, some ':'⟩, some .empty⟩
    front.Named ∧ back.Named
      ∧ (front.describe = back.describe
        ↔ front.isChord = back.isChord ∧ front.first = back.first
          ∧ front.second = back.second)
      ∧ (front.first.describe = back.first.describe
        ↔ front.first = back.first)
      ∧ Hotkey.ofLine? ">>: &::" = some colon ∧ colon.Named := by
  intro front back colon
  have hfront : front.Named := by decide
  have hback : back.Named := by decide
  have hcolon : Hotkey.ofLine? ">>: &::" = some colon := by decide
  exact ⟨hfront, hback, describes_apart.1 front back hfront hback,
    describes_apart.2.1 front.first back.first (by decide) (by decide),
    hcolon, describes_apart.2.2 ">>: &::" colon hcolon⟩

end HotkeyScript
