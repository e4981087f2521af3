import Mathlib.Data.List.Nodup
import HaikuAgent.Analysis.StepResults

/-!
# Documents of schema 1.2

The `runtimeConfig` of such a document gives a list of elements for each plugin, and each
element is to be run. `run_document` makes one step of a plugin, out of the first element of
its list, so a document is run completely exactly when no list has a second one
(`runsCompletely_iff`).
-/

set_option autoImplicit false

namespace HaikuAgent.Analysis.RuntimeConfig

open HaikuAgent.Foundation
open HaikuAgent.Model
open HaikuAgent.Model.Json
open HaikuAgent.Model.Runner
open HaikuAgent.Analysis.StepResults (map_eq_of_forall₂)

/-- The document has a list of elements for each plugin, and no steps of schema 2.x. The names
are the keys of an object.
SRC: runner.cpp:228-232 -/
structure Schema12 (document : Value) (plugins : List (Bytes × List Value)) : Prop where
  mainSteps : ∀ elems, document.find (lit "mainSteps") ≠ some (.arr elems)
  config : ∃ entries, document.find (lit "runtimeConfig") = some (.obj entries) ∧
    List.Forall₂ (fun entry plugin => entry.1 = plugin.1 ∧
      entry.2.find (lit "properties") = some (.arr plugin.2)) entries plugins
  names : (plugins.map Prod.fst).Nodup

/-- An element, with the name of its plugin. -/
abbrev Element := Bytes × Value

def elementsOf (plugins : List (Bytes × List Value)) : List Element :=
  plugins.flatMap fun plugin => plugin.2.map fun element => (plugin.1, element)

section Reported

variable (host : Host) (parameters docParameters : Value) (log : Log)

/-- The call of the shell for an element's commands is in the log, and the result is made of
what it returned. -/
def CalledFor (commands : List Bytes) (r : StepResult) : Prop :=
  ∃ n call, log.calls[n]? = some call ∧ call.script = join commands (lit "\n") ∧
    r.fullStdout = (host.shell n call).stdoutData ∧ r.fullStderr = (host.shell n call).stderrData

/-- The result of an element: its commands were run, or it is a failure. -/
structure Reported (e : Element) (r : StepResult) : Prop where
  pluginId : r.pluginId = e.1
  action : r.action = e.1
  unsupported : e.1 ≠ kRunShellScript → r.status = lit "Failed"
  commands : e.1 = kRunShellScript →
    let commands := commandLines (resolve e.2 parameters docParameters)
    if trim (join commands (lit "\n")) = [] then r.status = lit "Failed"
    else CalledFor host log commands r

end Reported

/-- Every element has its own result, whatever the machine answers, unless the document was
cancelled.
SRC: runner.cpp:252-334 -/
def RunsCompletely (strtod : Bytes → Double × ℕ) (document : Value)
    (plugins : List (Bytes × List Value)) : Prop :=
  ∀ (host : Host) (maxCapture : ℕ) (parameters : Value) (log : Log),
    let run := runDocument strtod host maxCapture document parameters log
    run.1.status = lit "Cancelled" ∨ ∃ results, results.Sublist run.1.steps ∧
      List.Forall₂ (Reported host parameters ((document.find (lit "parameters")).getD .null) run.2)
        (elementsOf plugins) results

/-! ## The steps of the document -/

/-- The step of a plugin. -/
def stepOf (plugin : Bytes × List Value) : Step :=
  { pluginId := plugin.1
    action := plugin.1
    inputs := match plugin.2 with
      | first :: _ => first
      | [] => .arr []
    precondition := .null }

/-- The steps of a schema 1.2 document are its plugins, each with its first element. -/
theorem documentSteps_eq {document : Value} {plugins : List (Bytes × List Value)}
    (h : Schema12 document plugins) : documentSteps document = plugins.map stepOf := by
  obtain ⟨entries, hconfig, hentries⟩ := h.config
  have hmain := h.mainSteps
  clear h
  unfold documentSteps
  split
  · exact absurd ‹_› (hmain _)
  simp only [hconfig]
  clear hconfig
  induction hentries with
  | nil => rfl
  | @cons entry plugin entries plugins hentry hrest ih =>
    obtain ⟨hname, hprops⟩ := hentry
    rw [List.map_cons, List.map_cons, ih]
    congr 1
    simp only [hname, hprops, stepOf]
    cases plugin.2 <;> rfl

/-! ## The results of the steps -/

/-- What was reported of an element stays so when the log grows. -/
theorem Reported.extend {host : Host} {parameters docParameters : Value} {log log' : Log} {e : Element}
    {r : StepResult} (h : Reported host parameters docParameters log e r)
    (hlog : log.calls <+: log'.calls) : Reported host parameters docParameters log' e r := by
  refine ⟨h.pluginId, h.action, h.unsupported, ?_⟩
  intro he
  have hcommands := h.commands he
  dsimp only at hcommands ⊢
  split_ifs at hcommands ⊢ with hnone
  · exact hcommands
  · obtain ⟨n, call, hcall, hrest⟩ := hcommands
    have hn : n < log.calls.length := (List.getElem?_eq_some_iff.mp hcall).1
    obtain ⟨later, hlater⟩ := hlog
    refine ⟨n, call, ?_, hrest⟩
    rw [← hlater, List.getElem?_append_left hn]
    exact hcall

/-- A cancelled call makes a cancelled step. -/
theorem shellResult_cancelled (st : Step) (startTime endTime : Bytes) (er : Exec.Result)
    (h : er.cancelled = true) : (shellResult st startTime endTime er).status = lit "Cancelled" := by
  simp only [shellResult]
  rw [if_pos h]

section Run

variable (strtod : Bytes → Double × ℕ) (host : Host) (maxCapture : ℕ) (parameters docParameters : Value)

/-- A step of a plugin, as the loop runs it. -/
structure Rounded (plugin : Bytes × List Value) (log : Log) (round : Round) : Prop where
  reported : Reported host parameters docParameters round.log (plugin.1, (stepOf plugin).inputs) round.result
  calls : log.calls <+: round.log.calls
  stop : round.stop = true → round.status = lit "Cancelled"

/-- One step of the loop reports the first element of its plugin. -/
theorem runStep_rounded (plugin : Bytes × List Value) (status : Bytes) (log : Log) :
    Rounded host parameters docParameters plugin log
      (runStep strtod host maxCapture parameters docParameters (stepOf plugin) status log) := by
  unfold runStep
  dsimp only
  have hpre : preconditionExcludesStep (stepOf plugin).precondition = false := rfl
  rw [if_neg (by simp [hpre])]
  by_cases haction : (stepOf plugin).action ≠ kRunShellScript
  · rw [if_pos haction]
    refine ⟨⟨rfl, rfl, fun _ => rfl, ?_⟩, List.prefix_rfl, ?_⟩
    · intro he
      exact absurd he haction
    · intro hstop
      cases hstop
  rw [if_neg haction]
  by_cases hscript : trim (join (commandLines (resolve (stepOf plugin).inputs parameters docParameters))
      (lit "\n")) = []
  · rw [if_pos hscript]
    refine ⟨⟨rfl, rfl, fun _ => rfl, ?_⟩, List.prefix_rfl, ?_⟩
    · intro _
      dsimp only
      rw [if_pos hscript]
      rfl
    · intro hstop
      cases hstop
  · rw [if_neg hscript]
    refine ⟨⟨rfl, rfl, ?_, ?_⟩, List.prefix_append _ _, ?_⟩
    · intro he
      exact absurd he haction
    · intro _
      dsimp only
      rw [if_neg hscript]
      refine ⟨log.calls.length, _, ?_, ?_, rfl, rfl⟩
      · exact List.getElem?_concat_length
      · rfl
    · intro hstop
      exact if_pos (shellResult_cancelled _ _ _ _ hstop)

/-- The loop reports every step, unless it ends with a cancelled one. -/
theorem runSteps_reported (plugins : List (Bytes × List Value)) (status : Bytes) (log : Log) :
    let run := runSteps strtod host maxCapture parameters docParameters (plugins.map stepOf) status log
    log.calls <+: run.2.calls ∧ (run.1.status = lit "Cancelled" ∨
      List.Forall₂ (fun plugin r =>
        Reported host parameters docParameters run.2 (plugin.1, (stepOf plugin).inputs) r) plugins
        run.1.steps) := by
  induction plugins generalizing status log with
  | nil => exact ⟨List.prefix_rfl, Or.inr List.Forall₂.nil⟩
  | cons plugin rest ih =>
    have hround := runStep_rounded strtod host maxCapture parameters docParameters plugin status log
    rw [List.map_cons]
    unfold runSteps
    dsimp only
    by_cases hstop :
        (runStep strtod host maxCapture parameters docParameters (stepOf plugin) status log).stop = true
    · rw [if_pos hstop]
      exact ⟨hround.calls, Or.inl (hround.stop hstop)⟩
    · rw [if_neg hstop]
      obtain ⟨hcalls, hrest⟩ := ih
        (runStep strtod host maxCapture parameters docParameters (stepOf plugin) status log).status
        (runStep strtod host maxCapture parameters docParameters (stepOf plugin) status log).log
      refine ⟨hround.calls.trans hcalls, ?_⟩
      rcases hrest with hcancelled | hrest
      · exact Or.inl hcancelled
      · exact Or.inr (List.Forall₂.cons (hround.reported.extend hcalls) hrest)

end Run

/-- The whole loop: without a cancellation, the first element of every plugin is reported in turn. -/
theorem runDocument_reported (strtod : Bytes → Double × ℕ) (host : Host) (maxCapture : ℕ)
    (document parameters : Value) (plugins : List (Bytes × List Value)) (log : Log)
    (h : Schema12 document plugins) :
    let run := runDocument strtod host maxCapture document parameters log
    run.1.status = lit "Cancelled" ∨ List.Forall₂ (fun plugin r =>
      Reported host parameters ((document.find (lit "parameters")).getD .null) run.2
        (plugin.1, (stepOf plugin).inputs) r) plugins run.1.steps := by
  unfold runDocument
  rw [documentSteps_eq h]
  cases plugins with
  | nil => exact Or.inr List.Forall₂.nil
  | cons plugin rest =>
    exact (runSteps_reported strtod host maxCapture parameters _ (plugin :: rest) (lit "Success") log).2

/-! ## One element for each plugin -/

/-- Where no list has two elements, the steps are those of the elements. -/
theorem elements_reported {host : Host} {parameters docParameters : Value} {log : Log}
    {plugins : List (Bytes × List Value)} {results : List StepResult}
    (h : List.Forall₂ (fun plugin r => Reported host parameters docParameters log
      (plugin.1, (stepOf plugin).inputs) r) plugins results)
    (hone : ∀ plugin ∈ plugins, plugin.2.length ≤ 1) :
    ∃ kept, kept.Sublist results ∧
      List.Forall₂ (Reported host parameters docParameters log) (elementsOf plugins) kept := by
  induction h with
  | nil => exact ⟨[], List.Sublist.refl [], List.Forall₂.nil⟩
  | @cons plugin r plugins results hreported hrest ih =>
    obtain ⟨hfirst, hothers⟩ := List.forall_mem_cons.mp hone
    obtain ⟨kept, hkept, hall⟩ := ih hothers
    obtain ⟨name, elems⟩ := plugin
    cases elems with
    | nil => exact ⟨kept, hkept.cons r, hall⟩
    | cons element more =>
      obtain rfl : more = [] := by simpa using hfirst
      exact ⟨r :: kept, hkept.cons_cons r, List.Forall₂.cons hreported hall⟩

/-- A machine that never cancels. -/
def quietHost : Host := ⟨fun _ => 0, fun _ _ => Exec.Result.init⟩

/-- A document is cancelled only by a cancelled step. -/
theorem combineStatus_ne_cancelled (document step : Bytes) (hdocument : document ≠ lit "Cancelled")
    (hstep : step ≠ lit "Cancelled") : combineStatus document step ≠ lit "Cancelled" := by
  unfold combineStatus
  rw [if_neg hstep]
  split_ifs
  · decide
  · exact hdocument

/-- On a machine that never cancels, no step cancels the document. -/
theorem runStep_quiet (strtod : Bytes → Double × ℕ) (maxCapture : ℕ) (parameters docParameters : Value)
    (st : Step) (status : Bytes) (log : Log) (hstatus : status ≠ lit "Cancelled") :
    (runStep strtod quietHost maxCapture parameters docParameters st status log).status ≠
      lit "Cancelled" := by
  have hfailed : lit "Failed" ≠ lit "Cancelled" := by decide
  unfold runStep
  dsimp only
  split_ifs
  · exact hstatus
  · exact hfailed
  · exact hfailed
  · exact combineStatus_ne_cancelled status _ hstatus hfailed

/-- On a machine that never cancels, the loop does not end cancelled. -/
theorem runSteps_quiet (strtod : Bytes → Double × ℕ) (maxCapture : ℕ) (parameters docParameters : Value)
    (steps : List Step) (status : Bytes) (log : Log) (hstatus : status ≠ lit "Cancelled") :
    (runSteps strtod quietHost maxCapture parameters docParameters steps status log).1.status ≠
      lit "Cancelled" := by
  induction steps generalizing status log with
  | nil => exact hstatus
  | cons st rest ih =>
    have hround := runStep_quiet strtod maxCapture parameters docParameters st status log hstatus
    unfold runSteps
    dsimp only
    split_ifs
    · exact hround
    · exact ih _ _ hround

/-- The results of a plugin are those of its elements. -/
theorem count_elements {host : Host} {parameters docParameters : Value} {log : Log}
    {plugins : List (Bytes × List Value)} {results : List StepResult}
    (h : List.Forall₂ (Reported host parameters docParameters log) (elementsOf plugins) results)
    {plugin : Bytes × List Value} (hplugin : plugin ∈ plugins) :
    plugin.2.length ≤ results.countP fun r => r.pluginId = plugin.1 := by
  have hids : results.map StepResult.pluginId = (elementsOf plugins).map Prod.fst :=
    map_eq_of_forall₂ Prod.fst StepResult.pluginId (fun _ _ hreported => hreported.pluginId) h
  have hcount : results.countP (fun r => r.pluginId = plugin.1) =
      (elementsOf plugins).countP fun e => e.1 = plugin.1 := by
    have hboth := congrArg (List.countP fun id => id = plugin.1) hids
    rw [List.countP_map, List.countP_map] at hboth
    exact hboth
  rw [hcount]
  obtain ⟨front, back, rfl⟩ := List.append_of_mem hplugin
  simp only [elementsOf, List.flatMap_append, List.flatMap_cons, List.countP_append, List.countP_map]
  have hall : plugin.2.countP ((fun e : Element => decide (e.1 = plugin.1)) ∘ fun element =>
      (plugin.1, element)) = plugin.2.length := by
    apply List.countP_eq_length.mpr
    intro element _
    simp
  omega

/-- A list with a second element is not run completely. -/
theorem length_le_one (strtod : Bytes → Double × ℕ) {document : Value}
    {plugins : List (Bytes × List Value)} (h : Schema12 document plugins)
    (hruns : RunsCompletely strtod document plugins) : ∀ plugin ∈ plugins, plugin.2.length ≤ 1 := by
  intro plugin hplugin
  have hrun := hruns quietHost 0 .null Log.empty
  have hreported := runDocument_reported strtod quietHost 0 document .null plugins Log.empty h
  dsimp only at hrun hreported
  have hstatus : (runDocument strtod quietHost 0 document .null Log.empty).1.status ≠ lit "Cancelled" := by
    unfold runDocument
    split
    · decide
    · apply runSteps_quiet
      decide
  obtain ⟨results, hsub, hall⟩ := hrun.resolve_left hstatus
  have hnames := map_eq_of_forall₂ Prod.fst StepResult.pluginId
    (fun _ _ hreported => hreported.pluginId) (hreported.resolve_left hstatus)
  generalize (runDocument strtod quietHost 0 document .null Log.empty).1.steps = steps at hsub hnames
  have honce := List.nodup_iff_count_le_one.mp (hnames ▸ h.names) plugin.1
  calc plugin.2.length
      ≤ results.countP fun r => r.pluginId = plugin.1 := count_elements hall hplugin
    _ ≤ steps.countP fun r => r.pluginId = plugin.1 := hsub.countP_le
    _ = (steps.map StepResult.pluginId).count plugin.1 := by
        rw [List.count, List.countP_map]
        apply List.countP_congr
        intro r _
        simp
    _ ≤ 1 := honce

/-- **Documents of schema 1.2 are run completely** exactly when no plugin has a second element.
SRC: runner.cpp:228-334 -/
theorem runsCompletely_iff (strtod : Bytes → Double × ℕ) (document : Value)
    (plugins : List (Bytes × List Value)) (h : Schema12 document plugins) :
    RunsCompletely strtod document plugins ↔ ∀ plugin ∈ plugins, plugin.2.length ≤ 1 := by
  constructor
  · exact length_le_one strtod h
  · intro hone host maxCapture parameters log
    apply (runDocument_reported strtod host maxCapture document parameters plugins log h).imp_right
    intro hreported
    exact elements_reported hreported hone

/-- A document of schema 1.2 whose only plugin has these elements. -/
def shellDocument (elements : List Value) : Value :=
  .obj [(lit "runtimeConfig", .obj [(kRunShellScript, .obj [(lit "properties", .arr elements)])])]

/-- The example document is a schema 1.2 document with one plugin. -/
theorem schema12_shellDocument (elements : List Value) :
    Schema12 (shellDocument elements) [(kRunShellScript, elements)] := by
  refine ⟨?_, ?_, ?_⟩
  · intro elems h
    cases h
  · exact ⟨_, rfl, List.Forall₂.cons ⟨rfl, rfl⟩ List.Forall₂.nil⟩
  · exact List.nodup_singleton _

/-- An element with one command. -/
def commandElement (command : Bytes) : Value := .obj [(lit "runCommand", .string command)]

/-- One element for the plugin: it is run. -/
theorem oneElement_runsCompletely :
    RunsCompletely (fun _ => (.finite 0, 0)) (shellDocument [commandElement (lit "true")])
      [(kRunShellScript, [commandElement (lit "true")])] :=
  (runsCompletely_iff _ _ _ (schema12_shellDocument _)).mpr fun _ hplugin => by
    rw [List.mem_singleton.mp hplugin]
    exact le_rfl

/-- Two elements for the plugin: the second is never run. -/
theorem twoElements_not_runsCompletely :
    ¬RunsCompletely (fun _ => (.finite 0, 0))
      (shellDocument [commandElement (lit "true"), commandElement (lit "false")])
      [(kRunShellScript, [commandElement (lit "true"), commandElement (lit "false")])] := by
  intro h
  have hlength := length_le_one _ (schema12_shellDocument _) h _ (List.mem_singleton_self _)
  simp at hlength

end HaikuAgent.Analysis.RuntimeConfig
