import HotkeyScript.Proofs.CommandLine.Agreement

/-!
# `HotkeyScript.Proofs.CommandLine.Listing`: the list that programs read

With `--json`, `list` is for other programs. What they get has gone a
long way: the file is cut into lines, the lines are recognized and put
into an outline, the outline is walked breadth first, and the statements
are written as records over several lines. A reader of JSON undoes the
last of these steps. What it then has is what the lines of the file say,
whatever characters they are made of.

* `Tells.array` of the agreement of the two commands knows the number of
  the items only. `Shows` is about the items themselves, and about all
  that is written.
* `shows_pretty`: statements that are written as an array are shown by it.
* `ListsFile`: what a run of `list --json` leaves behind.
* `lists_file`: every run of it on a script that can be loaded, by its
  path or by arguments.
-/

set_option autoImplicit false

namespace HotkeyScript.CommandLine

open Json (Value)

/-- A text over several lines that is one array, with nothing before its
first bracket or behind its last. Its items are read as the statements,
one as each. -/
structure Shows (json : String) (statements : List Statement) : Prop where
  opened : json.toList.head? = some '['
  closed : json.toList.getLast? = some ']'
  items : ∃ values, json = (Value.array values).pretty
    ∧ Value.ofText? json = some (.array values)
    ∧ values.map Statement.ofJson? = statements.map some
  empty : statements = [] ↔ json = "[]"

/-- What is left behind by `list --json` on a script: its file holds a
text, and what the text says is shown, with colour or without. -/
structure ListsFile (environment : Environment) (script : Script)
    (outcome : Outcome) : Prop where
  code : outcome.code = 0
  stdout : ∃ bytes text json,
    environment.read script.path = .ok bytes ∧ HoldsText bytes text
      ∧ Shows json (Statement.ofText text)
      ∧ ∀ colour,
        outcome.output { environment with colour } = json ++ "\n"

/-! ### Statements as an array -/

/-- Statements that are written as an array over several lines are shown
by it. -/
theorem shows_pretty (statements : List Statement) :
    Shows (Value.array (statements.map Statement.toJson)).pretty
      statements where
  opened := by
    rw [Value.pretty, String.toList_ofList, Value.tokens]
    exact Json.head?_layOut 0 _
  closed := by
    rw [Value.pretty, String.toList_ofList, Value.tokens, ← List.cons_append]
    exact Json.getLast?_layOut List.getLast?_concat
  items := by
    refine ⟨_, rfl, Value.ofText?_pretty (Statement.isReadable_array _), ?_⟩
    rw [List.map_map]
    exact List.map_congr_left fun statement _ => statement.ofJson?_toJson
  empty := by
    constructor
    · rintro rfl
      rfl
    · intro h
      -- A text is written by one value only.
      have hread := Value.ofText?_pretty
        (Statement.isReadable_array statements)
      have hnone := Value.ofText?_pretty (Statement.isReadable_array [])
      rw [h, ← show (Value.array []).pretty = "[]" from rfl] at hread
      rw [List.map_nil, hread, Option.some.injEq, Value.array.injEq,
        List.map_eq_nil_iff] at hnone
      exact hnone

/-! ### The command -/

section
variable {environment : Environment} {path : ByteArray} {script : Script}

/-- A run of `list --json` leaves behind what the file says, once the file
can be loaded. -/
theorem listsFile_list
    (hload : Script.load environment.read environment.home path
      = .ok script) :
    ListsFile environment script (list environment path true) where
  code := by rw [list, hload]
  stdout := by
    -- The rules for a load know the file behind the script.
    have hloads := loads_load environment.read environment.home path
    rw [hload] at hloads
    cases hloads with
    | @loaded expanded bytes text _ hread htext =>
      refine ⟨bytes, text, _, hread, htext, shows_pretty _, fun colour => ?_⟩
      rw [list, hload]
      simp only [Outcome.output, listSpans, if_true, render_plain,
        Outline.statements_read_empty]

end

/-- **What `list --json` writes is what the file says.** The path may be
given in bytes, or by arguments in any form, with `--verbose` among them
or without. -/
theorem lists_file (environment : Environment) :
    (∀ path script,
        Script.load environment.read environment.home path = .ok script →
        ListsFile environment script (list environment path true))
      ∧ ∀ name script verbose arguments,
        Request.ofArguments arguments
          = .ok (.run verbose (.list name true)) →
        Script.load environment.read environment.home name.toUTF8
          = .ok script →
        ListsFile environment script (run environment arguments) := by
  refine ⟨fun _ _ => listsFile_list, ?_⟩
  intro name script verbose arguments hrequest hload
  rw [run, hrequest]
  exact listsFile_list hload

/-- A file with a quote, a backslash, an escape character and a line
separator in its lines, and a line that is not recognized. -/
theorem lists_file_escapes :
    let text := "; \"\\\x1b[0m\u2028\n^k::\rq"
    let environment : Environment := ⟨"/home", true, fun _ => .ok text.toUTF8⟩
    let script : Script :=
      ⟨"f", ((∅ : Outline).read text).1, ((∅ : Outline).read text).2⟩
    Script.load environment.read environment.home "f".toUTF8 = .ok script
      ∧ ListsFile environment script (list environment "f".toUTF8 true)
      ∧ Request.ofArguments ["-v", "list", "f", "--json"]
        = .ok (.run true (.list "f" true))
      ∧ ListsFile environment script
        (run environment ["-v", "list", "f", "--json"]) := by
  intro text environment script
  -- The text does not begin with a byte-order mark.
  have htext : HoldsText text.toUTF8 text := by
    have hholds :
        HoldsText text.toList.utf8Encode (String.ofList text.toList) :=
      .unmarked (by decide)
    rwa [String.utf8Encode_toList, String.ofList_toList] at hholds
  have hpath : Expands "/home" "f".toUTF8 "f" := by
    show Expands "/home" ['f'].utf8Encode (String.ofList ['f'])
    exact .same nofun
  have hload : Script.load environment.read environment.home "f".toUTF8
      = .ok script := (Loads.loaded hpath rfl htext).load_eq
  have hrequest : Request.ofArguments ["-v", "list", "f", "--json"]
      = .ok (.run true (.list "f" true)) := rfl
  exact ⟨hload, (lists_file environment).1 _ _ hload, hrequest,
    (lists_file environment).2 "f" script true _ hrequest hload⟩

end HotkeyScript.CommandLine
