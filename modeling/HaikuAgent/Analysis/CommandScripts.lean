import HaikuAgent.Model.Runner

/-!
# From the document's commands to the shell's script

`expectedLines` are the command lines a step's `runCommand` denotes: a string is
one line after substitution, and a string that is exactly one placeholder naming
a list is every string of the list. What `resolve` and `command_lines` make of it
is `writtenLines` (`commandLines_walk`): the same, except that a list named
inside an array leaves one empty line behind.

The step hands the shell the expected script exactly when that difference does
not show (`keepsCommands_iff`): when no array element names a list, or the lists
so named hold one empty string each. Beyond that only an empty list can make up
for it, by chance.
-/

set_option autoImplicit false

namespace HaikuAgent.Analysis.CommandScripts

open HaikuAgent.Foundation
open HaikuAgent.Model
open HaikuAgent.Model.Json
open HaikuAgent.Model.Runner

/-! ## Joining lines -/

/-- `util::join(lines, "\n")`. -/
def joinLines (lines : List Bytes) : Bytes := join lines (lit "\n")

/-- The bytes of the lines, each with an end of line. -/
def linesSize (lines : List Bytes) : ℕ := (lines.map fun line => line.length + 1).sum

/-- The size of lines adds up. -/
theorem linesSize_append (a b : List Bytes) : linesSize (a ++ b) = linesSize a + linesSize b := by
  simp [linesSize]

/-- Joined lines are their sizes long, without the last newline. -/
theorem length_joinLines (lines : List Bytes) (hne : lines ≠ []) :
    (joinLines lines).length + 1 = linesSize lines := by
  induction lines with
  | nil => exact absurd rfl hne
  | cons line rest ih =>
    cases rest with
    | nil => simp [joinLines, join, linesSize]
    | cons next rest =>
      have hrest := ih (by simp)
      simp only [joinLines, join, linesSize, List.map_cons, List.sum_cons] at hrest ⊢
      rw [List.intercalate_cons_cons]
      simp only [List.length_append]
      have hsep : (lit "\n").length = 1 := rfl
      omega

/-- No lines but one empty line take a single byte. -/
theorem eq_of_linesSize_le_one (lines : List Bytes) (hne : lines ≠ []) (hsize : linesSize lines ≤ 1) :
    lines = [[]] := by
  cases lines with
  | nil => exact absurd rfl hne
  | cons line rest =>
    simp only [linesSize, List.map_cons, List.sum_cons] at hsize
    have hline : line = [] := List.length_eq_zero_iff.mp (by omega)
    cases rest with
    | nil => rw [hline]
    | cons next rest =>
      simp only [List.map_cons, List.sum_cons] at hsize
      omega

/-- A byte of joined lines is a newline or in a line. -/
theorem mem_joinLines (lines : List Bytes) (c : UInt8) (hc : c ∈ joinLines lines) :
    c = 10 ∨ ∃ line ∈ lines, c ∈ line := by
  induction lines with
  | nil => cases hc
  | cons line rest ih =>
    cases rest with
    | nil =>
      refine Or.inr ⟨line, by simp, ?_⟩
      simpa [joinLines, join] using hc
    | cons next rest =>
      simp only [joinLines, join, List.intercalate_cons_cons, List.mem_append] at hc ih
      rcases hc with (hline | hsep) | hrest
      · exact Or.inr ⟨line, by simp, hline⟩
      · refine Or.inl ?_
        have hlit : lit "\n" = [10] := by decide
        rw [hlit] at hsep
        simpa using hsep
      · rcases ih hrest with h | ⟨l, hl, hcl⟩
        · exact Or.inl h
        · exact Or.inr ⟨l, List.mem_cons_of_mem _ hl, hcl⟩

/-- Every line occurs in the script. -/
theorem infix_joinLines (lines : List Bytes) (line : Bytes) (hline : line ∈ lines) :
    line <:+: joinLines lines := by
  induction lines with
  | nil => cases hline
  | cons first rest ih =>
    cases rest with
    | nil =>
      have heq : line = first := by simpa using hline
      rw [heq]
      simp [joinLines, join]
    | cons next rest =>
      have hjoin : joinLines (first :: next :: rest) =
          first ++ lit "\n" ++ joinLines (next :: rest) := by
        simp only [joinLines, join, List.intercalate_cons_cons]
      rw [hjoin]
      rcases List.mem_cons.mp hline with heq | hmem
      · rw [heq]
        exact ⟨[], lit "\n" ++ joinLines (next :: rest), by simp⟩
      · exact (ih hmem).trans (List.suffix_append _ _).isInfix

/-- Nothing but blanks. -/
def Blank (s : Bytes) : Prop := ∀ c ∈ s, isBlank c = true

/-- Trimming leaves nothing of a text exactly when it is blank. -/
theorem trim_eq_nil_iff (s : Bytes) : trim s = [] ↔ Blank s := by
  constructor
  · intro htrim
    have hdrop : s.dropWhile isBlank = [] := by
      cases hd : s.dropWhile isBlank with
      | nil => rfl
      | cons c rest =>
        -- the first byte kept on the left would be kept on the right as well
        have hc : isBlank c = false := by
          have hhead := List.head_dropWhile_not isBlank (l := s) (by simp [hd])
          simpa [hd] using hhead
        rw [trim, hd] at htrim
        have hall := (List.rdropWhile_eq_nil_iff).mp htrim
        have hcblank := hall c (by simp)
        rw [hc] at hcblank
        cases hcblank
    exact fun c hc => List.dropWhile_eq_nil_iff.mp hdrop c hc
  · intro hblank
    rw [trim, List.dropWhile_eq_nil_iff.mpr hblank]
    rfl

/-- Joined lines are blank when every line is. -/
theorem blank_joinLines (lines : List Bytes) : Blank (joinLines lines) ↔ ∀ line ∈ lines, Blank line := by
  constructor
  · intro hblank line hline c hc
    exact hblank c ((infix_joinLines lines line hline).subset hc)
  · intro hall c hc
    rcases mem_joinLines lines c hc with heq | ⟨line, hline, hcl⟩
    · rw [heq]
      rfl
    · exact hall line hline c hcl

/-! ## What the commands denote -/

/-- A step's `runCommand`: a string, or an array of strings. -/
inductive RunCommand where
  | one (command : Bytes)
  | many (commands : List Bytes)

def RunCommand.value : RunCommand → Value
  | .one command => .string command
  | .many commands => .arr (commands.map Value.string)

section Table

variable (table : List (Bytes × Value))

/-- The lines a command string denotes. -/
def denotedLines (command : Bytes) : List Bytes :=
  match wholeList table command with
  | some elems => elems.map (Value.str [])
  | none => [substituteScalar command table]

def expectedLines : RunCommand → List Bytes
  | .one command => denotedLines table command
  | .many commands => commands.flatMap (denotedLines table)

/-- The line an array element becomes. -/
def writtenLine (command : Bytes) : Bytes :=
  match wholeList table command with
  | some _ => []
  | none => substituteScalar command table

def writtenLines : RunCommand → List Bytes
  | .one command => denotedLines table command
  | .many commands => commands.map (writtenLine table)

/-- The walk goes into the fields of an object. -/
theorem find_walk (v : Value) (key : Bytes) :
    (walk table v).find key = (v.find key).map (walk table) := by
  have hentries (entries : List (Bytes × Value)) :
      findEntry (walkEntries table entries) key = (findEntry entries key).map (walk table) := by
    induction entries with
    | nil => rfl
    | cons kv rest ih =>
      obtain ⟨k, w⟩ := kv
      simp only [findEntry, walkEntries, List.lookup_cons] at ih ⊢
      cases key == k with
      | true => rfl
      | false => exact ih
  cases v with
  | obj entries =>
    rw [walk]
    exact hentries entries
  | string s =>
    rw [walk]
    cases wholeList table s <;> rfl
  | arr elems =>
    rw [walk]
    rfl
  | null => rfl
  | bool b => rfl
  | number n integral => rfl

/-- A list of commands is walked string by string. -/
theorem walkElems_strings (commands : List Bytes) :
    (walkElems table (commands.map Value.string)).map (Value.str []) =
      commands.map (writtenLine table) := by
  induction commands with
  | nil => rfl
  | cons command rest ih =>
    simp only [List.map_cons, walkElems, ih, walk, writtenLine]
    cases wholeList table command <;> rfl

/-- What `resolve` and `command_lines` make of the commands. -/
theorem commandLines_walk (inputs : Value) (rc : RunCommand)
    (hrc : inputs.find (lit "runCommand") = some rc.value) :
    commandLines (walk table inputs) = writtenLines table rc := by
  rw [commandLines, find_walk, hrc]
  cases rc with
  | one command =>
    simp only [Option.map_some, RunCommand.value, walk, writtenLines, denotedLines]
    cases wholeList table command <;> rfl
  | many commands =>
    simp only [Option.map_some, RunCommand.value, walk, writtenLines]
    exact walkElems_strings table commands

/-- Where nothing is expected but blanks, nothing else is written. -/
theorem blank_written_of_expected (rc : RunCommand)
    (hblank : Blank (joinLines (expectedLines table rc))) :
    Blank (joinLines (writtenLines table rc)) := by
  cases rc with
  | one command => exact hblank
  | many commands =>
    rw [blank_joinLines] at hblank ⊢
    intro line hline
    obtain ⟨command, hcommand, rfl⟩ := List.mem_map.mp hline
    rw [writtenLine]
    cases hlist : wholeList table command with
    | some elems =>
      intro c hc
      cases hc
    | none =>
      refine hblank _ (List.mem_flatMap.mpr ⟨command, hcommand, ?_⟩)
      rw [denotedLines, hlist]
      simp

/-- An array element takes at least the bytes it is written with, and no more only if the
list it names holds one empty string. -/
theorem linesSize_written_le (command : Bytes) (hne : wholeList table command ≠ some []) :
    linesSize [writtenLine table command] ≤ linesSize (denotedLines table command) ∧
      (linesSize (denotedLines table command) ≤ linesSize [writtenLine table command] →
        ∀ elems, wholeList table command = some elems → elems.map (Value.str []) = [[]]) := by
  rw [writtenLine, denotedLines]
  cases hlist : wholeList table command with
  | none =>
    refine ⟨le_refl _, ?_⟩
    intro _ elems helems
    cases helems
  | some elems =>
    have hmap : elems.map (Value.str []) ≠ [] := by
      intro hnil
      exact hne (by rw [hlist, List.map_eq_nil_iff.mp hnil])
    have hone : linesSize [([] : Bytes)] = 1 := rfl
    simp only [hone]
    constructor
    · have hlength := length_joinLines _ hmap
      omega
    · intro hle elems' helems
      cases helems
      exact eq_of_linesSize_le_one _ hmap hle

/-- If no element names an empty list, leaving an empty line for each named list keeps
the script only when every such list holds one empty string. -/
theorem written_eq_expected_iff (commands : List Bytes)
    (hne : ∀ command ∈ commands, wholeList table command ≠ some []) :
    joinLines (writtenLines table (.many commands)) = joinLines (expectedLines table (.many commands)) ↔
      ∀ command ∈ commands, ∀ elems, wholeList table command = some elems →
        elems.map (Value.str []) = [[]] := by
  have hsizes : ∀ cs : List Bytes, (∀ command ∈ cs, wholeList table command ≠ some []) →
      linesSize (cs.map (writtenLine table)) ≤ linesSize (cs.flatMap (denotedLines table)) ∧
      (linesSize (cs.flatMap (denotedLines table)) ≤ linesSize (cs.map (writtenLine table)) →
        ∀ command ∈ cs, ∀ elems, wholeList table command = some elems →
          elems.map (Value.str []) = [[]]) := by
    intro cs
    induction cs with
    | nil =>
      intro _
      refine ⟨le_refl _, ?_⟩
      intro _ command hmem
      cases hmem
    | cons first rest ih =>
      intro hcs
      obtain ⟨hle, hlists⟩ := ih fun command hmem => hcs command (List.mem_cons_of_mem _ hmem)
      obtain ⟨hfirst, hone⟩ := linesSize_written_le table first (hcs first (by simp))
      have hw : linesSize ((first :: rest).map (writtenLine table)) =
          linesSize [writtenLine table first] + linesSize (rest.map (writtenLine table)) := by
        rw [← linesSize_append]
        rfl
      rw [hw, List.flatMap_cons, linesSize_append]
      refine ⟨by omega, ?_⟩
      intro hback command hmem
      rcases List.mem_cons.mp hmem with heq | hrest
      · rw [heq]
        exact hone (by omega)
      · exact hlists (by omega) command hrest
  constructor
  · intro heq
    cases commands with
    | nil =>
      intro command hmem
      cases hmem
    | cons first rest =>
      -- neither side is without lines, so equal scripts have equal line sizes
      have hwritten : writtenLines table (.many (first :: rest)) ≠ [] := by simp [writtenLines]
      have hexpected : expectedLines table (.many (first :: rest)) ≠ [] := by
        rw [expectedLines, List.flatMap_cons, denotedLines]
        cases hlist : wholeList table first with
        | none => simp
        | some elems =>
          have hnot := hne first (by simp)
          rw [hlist] at hnot
          cases elems with
          | nil => exact absurd rfl hnot
          | cons e es => simp
      have hw := length_joinLines _ hwritten
      have he := length_joinLines _ hexpected
      rw [heq] at hw
      exact (hsizes (first :: rest) hne).2 (by rw [← expectedLines, ← writtenLines]; omega)
  · intro hall
    have hlines : expectedLines table (.many commands) = writtenLines table (.many commands) := by
      rw [expectedLines, writtenLines, List.map_eq_flatMap]
      refine List.flatMap_congr ?_
      intro command hmem
      rw [denotedLines, writtenLine]
      cases hlist : wholeList table command with
      | none => rfl
      | some elems => exact hall command hmem elems hlist
    rw [hlines]

end Table

/-! ## What the shell is given -/

section Step

variable (strtod : Bytes → Double × ℕ)

/-- The scripts handed to the shell so far. -/
def scripts (log : Log) : List Bytes := log.calls.map ShellCall.script

/-- A shell step hands over the script of its resolved commands, unless that is blank;
then it fails without a shell. -/
theorem runStep_scripts (host : Host) (maxCapture : ℕ) (parameters docParameters : Value) (st : Step)
    (status : Bytes) (log : Log) (hplatform : preconditionExcludesStep st.precondition = false)
    (haction : st.action = kRunShellScript) :
    let script := joinLines (commandLines (resolve st.inputs parameters docParameters))
    let round := runStep strtod host maxCapture parameters docParameters st status log
    (Blank script → scripts round.log = scripts log ∧ round.result.status = lit "Failed") ∧
      (¬Blank script → scripts round.log = scripts log ++ [script]) := by
  intro script round
  have htrim : trim (join (commandLines (resolve st.inputs parameters docParameters)) (lit "\n")) = [] ↔
      Blank script := trim_eq_nil_iff script
  constructor
  · intro hblank
    have hround : round = runStep strtod host maxCapture parameters docParameters st status log := rfl
    simp only [runStep, hplatform, haction, Bool.false_eq_true, if_false, ne_eq, not_true_eq_false,
      if_pos (htrim.mpr hblank), Host.now] at hround
    rw [hround]
    exact ⟨rfl, rfl⟩
  · intro hblank
    have hround : round = runStep strtod host maxCapture parameters docParameters st status log := rfl
    simp only [runStep, hplatform, haction, Bool.false_eq_true, if_false, ne_eq, not_true_eq_false,
      if_neg (mt htrim.mp hblank), Host.now, Host.runShell] at hround
    rw [hround]
    simp [scripts, script, joinLines]

/-- No command line is lost between a step of the document and the shell: whatever the
machine does, the shell is given exactly the newline-join of the lines that the
commands denote, unless they are blank, and then the step does not succeed.
SRC: runner.h:59-62, runner.cpp:267-293 -/
def KeepsCommands (parameters docParameters : Value) (st : Step) : Prop :=
  ∀ rc : RunCommand, st.inputs.find (lit "runCommand") = some rc.value →
    preconditionExcludesStep st.precondition = false → st.action = kRunShellScript →
    ∀ (host : Host) (maxCapture : ℕ) (status : Bytes) (log : Log),
      let expected := joinLines (expectedLines (parameterTable parameters docParameters) rc)
      let round := runStep strtod host maxCapture parameters docParameters st status log
      (Blank expected → scripts round.log = scripts log ∧ round.result.status ≠ lit "Success") ∧
        (¬Blank expected → scripts round.log = scripts log ++ [expected])

/-- The commands that reach the shell whole: a string; or an array whose denoted lines
are all blank, or whose elements name no list but ones holding one empty string; or,
when an element names an empty list, an array whose script is by chance the same
with an empty line for every list named by an element. -/
def ListsSurvive (table : List (Bytes × Value)) : RunCommand → Prop
  | .one _ => True
  | .many commands =>
    (∀ command ∈ commands, ∀ line ∈ denotedLines table command, Blank line) ∨
    (∀ command ∈ commands, ∀ elems, wholeList table command = some elems →
      elems.map (Value.str []) = [[]]) ∨
    ((∃ command ∈ commands, wholeList table command = some []) ∧
      joinLines (commands.map (writtenLine table)) =
        joinLines (commands.flatMap (denotedLines table)))

/-- The lists survive exactly when the expected script is blank or the one that is written. -/
theorem listsSurvive_iff (table : List (Bytes × Value)) (rc : RunCommand) :
    ListsSurvive table rc ↔
      Blank (joinLines (expectedLines table rc)) ∨
        joinLines (writtenLines table rc) = joinLines (expectedLines table rc) := by
  cases rc with
  | one command =>
    refine iff_of_true trivial ?_
    exact Or.inr rfl
  | many commands =>
    have hblank : (∀ command ∈ commands, ∀ line ∈ denotedLines table command, Blank line) ↔
        Blank (joinLines (expectedLines table (.many commands))) := by
      rw [blank_joinLines, expectedLines]
      simp only [List.mem_flatMap]
      constructor
      · rintro hall line ⟨command, hcommand, hline⟩
        exact hall command hcommand line hline
      · intro hall command hcommand line hline
        exact hall line ⟨command, hcommand, hline⟩
    rw [ListsSurvive, hblank]
    by_cases hne : ∀ command ∈ commands, wholeList table command ≠ some []
    · have hiff := written_eq_expected_iff table commands hne
      constructor
      · rintro (h | h | ⟨-, h⟩)
        · exact Or.inl h
        · exact Or.inr (hiff.mpr h)
        · exact Or.inr h
      · rintro (h | h)
        · exact Or.inl h
        · exact Or.inr (Or.inl (hiff.mp h))
    · push Not at hne
      obtain ⟨command, hcommand, hempty⟩ := hne
      constructor
      · rintro (h | h | ⟨-, h⟩)
        · exact Or.inl h
        · have hnil := h command hcommand [] hempty
          cases hnil
        · exact Or.inr h
      · rintro (h | h)
        · exact Or.inl h
        · exact Or.inr (Or.inr ⟨⟨command, hcommand, hempty⟩, h⟩)

/-- **When no command line is lost**: exactly when the lists named by elements of a
`runCommand` array make no difference.
SRC: runner.cpp:74-84, 165-197, 267-293 -/
theorem keepsCommands_iff (parameters docParameters : Value) (st : Step) :
    KeepsCommands strtod parameters docParameters st ↔
      ∀ rc : RunCommand, st.inputs.find (lit "runCommand") = some rc.value →
        preconditionExcludesStep st.precondition = false → st.action = kRunShellScript →
        ListsSurvive (parameterTable parameters docParameters) rc := by
  constructor
  · intro hkeeps rc hrc hplatform haction
    rw [listsSurvive_iff]
    let host : Host := ⟨fun _ => 0, fun _ _ => Exec.Result.init⟩
    obtain ⟨-, hgiven⟩ := hkeeps rc hrc hplatform haction host 0 [] Log.empty
    obtain ⟨hnone, hscript⟩ := runStep_scripts strtod host 0 parameters docParameters st [] Log.empty
      hplatform haction
    rw [resolve, commandLines_walk _ _ rc hrc] at hnone hscript
    by_cases hblank : Blank (joinLines (expectedLines (parameterTable parameters docParameters) rc))
    · exact Or.inl hblank
    · refine Or.inr ?_
      have hexpected := hgiven hblank
      by_cases hwritten : Blank (joinLines (writtenLines (parameterTable parameters docParameters) rc))
      · rw [(hnone hwritten).1] at hexpected
        cases hexpected
      · rw [hscript hwritten] at hexpected
        simpa using hexpected
  · intro hsurvive rc hrc hplatform haction host maxCapture status log
    have hcases := (listsSurvive_iff _ rc).mp (hsurvive rc hrc hplatform haction)
    obtain ⟨hnone, hscript⟩ := runStep_scripts strtod host maxCapture parameters docParameters st
      status log hplatform haction
    rw [resolve, commandLines_walk _ _ rc hrc] at hnone hscript
    constructor
    · intro hblank
      obtain ⟨hlog, hstatus⟩ := hnone (blank_written_of_expected _ rc hblank)
      refine ⟨hlog, ?_⟩
      rw [hstatus]
      decide
    · intro hblank
      rcases hcases with h | heq
      · exact absurd h hblank
      · rw [heq] at hscript
        exact hscript hblank

/-- A step that runs a list of commands and then reports. -/
def listThenReport : Step :=
  { pluginId := lit "build"
    action := kRunShellScript
    inputs := .obj [(lit "runCommand",
      .arr [.string (lit "\x7b\x7b commands \x7d\x7d"), .string (lit "echo finished")])]
    precondition := .null }

/-- Of `make` and `make install`, nothing reaches the shell but the report. -/
theorem listThenReport_loses_commands :
    ¬KeepsCommands (fun _ => (.finite 0, 0))
      (.obj [(lit "commands", .arr [.string (lit "make"), .string (lit "make install")])]) .null
      listThenReport := by
  intro hkeeps
  have hgiven := (hkeeps (.many [lit "\x7b\x7b commands \x7d\x7d", lit "echo finished"]) rfl rfl rfl
    ⟨fun _ => 0, fun _ _ => Exec.Result.init⟩ 0 [] Log.empty).2
    (by rw [← trim_eq_nil_iff]; decide +kernel)
  revert hgiven
  decide +kernel

end Step

end HaikuAgent.Analysis.CommandScripts
