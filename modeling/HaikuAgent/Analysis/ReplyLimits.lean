import HaikuAgent.Analysis.OutputTruncation
import HaikuAgent.Analysis.StepResults
import HaikuAgent.Model.Patch

/-!
# The limits of a result

A result is to have at most 24000 bytes of each stream and 2500 bytes of output. `run_baseline`
keeps these limits, and so do the results that `run_document` truncates. Two do not: the text
about an unsupported plugin is as long as the plugin's name, and the error of the harness is
appended to a stream that was already clipped (`withinLimits_iff`).
-/

set_option autoImplicit false

namespace HaikuAgent.Analysis.ReplyLimits

open HaikuAgent.Foundation
open HaikuAgent.Model
open HaikuAgent.Model.Json
open HaikuAgent.Model.Runner
open HaikuAgent.Analysis.ReplyEncoding (shellCall clip_nil echoDocument)
open HaikuAgent.Analysis.OutputTruncation (truncateOutput_truncated)
open HaikuAgent.Analysis.StepResults

/-- The limits of the reply.
SRC: runner.h:25-43 -/
structure WithinLimits (r : StepResult) : Prop where
  standardOutput : r.standardOutput.length ≤ kMaxStdoutLength
  standardError : r.standardError.length ≤ kMaxStdoutLength
  output : r.output.length ≤ kMaxPluginOutputSize

/-- The error of the harness fits behind what is kept of the error stream. -/
def ErrorFits (er : Exec.Result) : Prop :=
  er.cancelled = true ∨ er.error = [] ∨
    min kMaxStdoutLength er.stderrData.length + (if er.stderrData = [] then 0 else 1) + er.error.length ≤
      kMaxStdoutLength

/-- The longest name of a plugin that fits into the output, with the text around it. -/
def kMaxUnsupportedName : ℕ := 2325

/-- A clipped text is within its bound. -/
theorem length_clip (s : Bytes) (n : ℕ) : (clip s n []).length ≤ n := by
  rw [clip_nil, List.length_take]
  exact Nat.min_le_left _ _

/-- The truncated output is within its limit. -/
theorem length_truncateOutput (out err : Bytes) :
    (truncateOutput out err kMaxPluginOutputSize).length ≤ kMaxPluginOutputSize := by
  obtain ⟨p, q, h⟩ := truncateOutput_truncated out err kMaxPluginOutputSize (by decide)
  exact h.bounded

/-! ## The results -/

/-- A text has the length of its source. -/
theorem length_lit (s : String) : (lit s).length = s.length := by
  simp [lit, String.length_toList]

/-- A skipped step is within the limits. -/
theorem withinLimits_skipped (pluginId action startTime endTime : Bytes) :
    WithinLimits (skipped pluginId action startTime endTime) := by
  have hlength : (skipped pluginId action startTime endTime).output.length = 97 := by
    unfold skipped
    rw [length_lit, String.length_append]
    decide
  have hout : (skipped pluginId action startTime endTime).standardOutput.length = 97 := hlength
  refine ⟨?_, Nat.zero_le _, ?_⟩
  · simp [hout, kMaxStdoutLength]
  · simp [hlength, kMaxPluginOutputSize]

/-- A step without commands is within the limits. -/
theorem withinLimits_noCommands (st : Step) (startTime endTime : Bytes) :
    WithinLimits (noCommands st startTime endTime) := by
  have hlength : (lit "no commands to run (runCommand resolved to empty)").length = 49 := by decide
  have herr : (noCommands st startTime endTime).standardError.length = 49 := hlength
  have houtput : (noCommands st startTime endTime).output.length = 49 := hlength
  refine ⟨Nat.zero_le _, ?_, ?_⟩
  · simp [herr, kMaxStdoutLength]
  · simp [houtput, kMaxPluginOutputSize]

set_option maxRecDepth 1024 in
/-- The text about an unsupported plugin is as long as the plugin's name and the words around it. -/
theorem length_unsupported (pluginId action startTime endTime : Bytes) :
    (unsupported pluginId action startTime endTime).output.length = 175 + action.length := by
  have hlength : (unsupported [] [] [] []).output.length = 175 := by decide
  rw [← hlength]
  simp only [unsupported, List.length_append, List.length_nil]
  omega

/-- The text about an unsupported plugin fits when the name is short enough. -/
theorem withinLimits_unsupported (pluginId action startTime endTime : Bytes) :
    WithinLimits (unsupported pluginId action startTime endTime) ↔ action.length ≤ kMaxUnsupportedName := by
  have hlength := length_unsupported pluginId action startTime endTime
  have herr : (unsupported pluginId action startTime endTime).standardError.length = 175 + action.length :=
    hlength
  constructor
  · intro h
    have houtput := h.output
    rw [hlength, kMaxPluginOutputSize] at houtput
    unfold kMaxUnsupportedName
    omega
  · unfold kMaxUnsupportedName
    intro h
    refine ⟨Nat.zero_le _, ?_, ?_⟩
    · rw [herr, kMaxStdoutLength]
      omega
    · rw [hlength, kMaxPluginOutputSize]
      omega

/-- What `run_document` has of the error stream when it appends the error of the harness. -/
theorem length_standardError (st : Step) (startTime endTime : Bytes) (er : Exec.Result) :
    (shellResult st startTime endTime er).standardError.length ≤ kMaxStdoutLength ↔ ErrorFits er := by
  have hclip := length_clip er.stderrData kMaxStdoutLength
  have hlength : (clip er.stderrData kMaxStdoutLength []).length = min kMaxStdoutLength er.stderrData.length := by
    rw [clip_nil, List.length_take]
  have hnil : clip er.stderrData kMaxStdoutLength [] = [] ↔ er.stderrData = [] := by
    rw [clip_nil, List.take_eq_nil_iff]
    simp [kMaxStdoutLength]
  unfold ErrorFits shellResult
  by_cases hcancelled : er.cancelled = true
  · simp [hcancelled, hclip]
  by_cases herror : er.error = []
  · simp [hcancelled, herror]
    split_ifs <;> exact hclip
  · simp [hcancelled, herror, hnil, hlength]
    split_ifs
    · simp
    · simp [lit, Nat.add_assoc]

/-- A shell step is within the limits exactly when its error text fits. -/
theorem withinLimits_shellResult (st : Step) (startTime endTime : Bytes) (er : Exec.Result) :
    WithinLimits (shellResult st startTime endTime er) ↔ ErrorFits er := by
  rw [← length_standardError st startTime endTime er]
  constructor
  · exact WithinLimits.standardError
  · intro h
    exact ⟨length_clip _ _, h, length_truncateOutput _ _⟩

/-- Every result of `run_baseline` is within the limits. -/
theorem withinLimits_finish (startTime endTime : Bytes) (run : Patch.Run) :
    WithinLimits (Patch.finish startTime endTime run) :=
  ⟨length_clip _ _, length_clip _ _, length_truncateOutput _ _⟩

/-! ## The results of a document -/

section Run

variable (strtod : Bytes → Double × ℕ) (host : Host) (maxCapture : ℕ)

/-- The name of an unsupported plugin fits, and so does the error of a call. -/
structure FitsStep (parameters docParameters : Value) (s : ℕ × Step) : Prop where
  name : preconditionExcludesStep s.2.precondition = false → s.2.action ≠ kRunShellScript →
    s.2.action.length ≤ kMaxUnsupportedName
  error : ∀ call, shellCall strtod maxCapture parameters docParameters s.2 = some call →
    ErrorFits (host.shell s.1 call)

/-- A built result is within the limits exactly when its step fits. -/
theorem withinLimits_built (parameters docParameters : Value) (s : ℕ × Step) (r : StepResult)
    (h : Built strtod host maxCapture parameters docParameters s.1 s.2 r) :
    WithinLimits r ↔ FitsStep strtod host maxCapture parameters docParameters s := by
  cases h with
  | skipped startTime endTime hpre =>
    apply iff_of_true (withinLimits_skipped _ _ _ _)
    refine ⟨?_, ?_⟩
    · simp [hpre]
    · simp [shellCall, hpre]
  | unsupported startTime endTime hpre haction =>
    rw [withinLimits_unsupported]
    constructor
    · intro hname
      refine ⟨fun _ _ => hname, ?_⟩
      simp [shellCall, hpre, haction]
    · intro h
      exact h.name hpre haction
  | noCommands startTime endTime hpre haction hnone =>
    apply iff_of_true (withinLimits_noCommands _ _ _)
    refine ⟨?_, ?_⟩
    · simp [haction]
    · simp [hnone]
  | called startTime endTime call hcall =>
    rw [withinLimits_shellResult]
    constructor
    · intro herror
      refine ⟨?_, ?_⟩
      · intro hpre haction
        simp [shellCall, hpre, haction] at hcall
      · simp [hcall, herror]
    · intro h
      exact h.error call hcall

/-- **The inline limits hold for every result** of a document exactly when the names of its
unsupported plugins and the errors of its calls fit; those of a patch run always hold them.
SRC: runner.cpp:103-135, 252-325, patch.cpp:327-347 -/
theorem withinLimits_iff (document parameters : Value) (log : Log) :
    ((∀ r ∈ (runDocument strtod host maxCapture document parameters log).1.steps, WithinLimits r) ↔
      ∀ s ∈ reachedSteps strtod host maxCapture document parameters log,
        FitsStep strtod host maxCapture parameters ((document.find (lit "parameters")).getD .null) s) ∧
      ∀ ctx, ∀ r ∈ (Patch.runBaseline host ctx parameters log).outcome.steps, WithinLimits r := by
  constructor
  · exact forall_results_iff (withinLimits_built strtod host maxCapture parameters _)
      (runDocument_built strtod host maxCapture document parameters log)
  · intro ctx r hr
    rw [List.mem_singleton.mp hr]
    exact withinLimits_finish _ _ _

end Run

/-- A command that filled its error stream and then could not be reaped. -/
def stuckHost : Host :=
  ⟨fun _ => 0, fun _ _ => { Exec.Result.init with
    stderrData := List.replicate 24000 97
    error := Exec.reapError }⟩

/-- The stuck host's only step exceeds a limit: its error text comes after the clip. -/
theorem stuck_not_withinLimits :
    ¬∀ r ∈ (runDocument (fun _ => (.nan, 0)) stuckHost 0 echoDocument .null Log.empty).1.steps,
      WithinLimits r := by
  intro h
  have hfits := (forall_results_iff (withinLimits_built _ stuckHost 0 .null _)
    (runDocument_built _ stuckHost 0 echoDocument .null Log.empty)).mp h
  obtain ⟨call, hcall⟩ := echo_called
  have herror := (hfits _ (echo_reached _ _ _ _)).error call hcall
  have hnil : ¬(stuckHost.shell 0 call).error = [] := by
    show ¬Exec.reapError = []
    decide
  rcases herror with hcancelled | hnone | hlength
  · cases hcancelled
  · exact hnil hnone
  · have hpos := List.length_pos_iff.mpr hnil
    have hfull : (stuckHost.shell 0 call).stderrData.length = 24000 := List.length_replicate
    dsimp only at hlength
    rw [hfull, kMaxStdoutLength] at hlength
    omega

end HaikuAgent.Analysis.ReplyLimits
