import HaikuAgent.Analysis.StepResults

/-!
# Clipped streams

`run_shell` marks a stream that it had to cut. `run_document` captures at least 24000 bytes and
then keeps the first 24000 bytes of what it has, the mark not among them, so the inline text of
a longer stream does not say that anything is missing (`announced_iff`).
-/

set_option autoImplicit false

namespace HaikuAgent.Analysis.StreamClips

open HaikuAgent.Foundation
open HaikuAgent.Model
open HaikuAgent.Model.Json
open HaikuAgent.Model.Runner
open HaikuAgent.Analysis.ShellCapture
open HaikuAgent.Analysis.ReplyEncoding (CallRun CallMachine shellCall clip_captured pouringCall echoDocument)
open HaikuAgent.Analysis.StepResults

/-- The text ends with one of the agent's truncation markers. -/
def Marked (s : Bytes) : Prop :=
  Exec.truncationMarker <:+ s ∨ kTruncateOut <:+ s ∨ kTruncateError <:+ s

/-- The inline text of a stream is all of it, or says that it is not. -/
def Truthful (stream shown : Bytes) : Prop := shown = stream ∨ Marked shown

/-- What `run_document` appends to an error stream.
SRC: runner.cpp:303-311 -/
def harnessError (er : Exec.Result) (shown : Bytes) : Bytes :=
  if er.cancelled = true ∨ er.error = [] then []
  else (if shown = [] then [] else lit "\n") ++ er.error

/-- The streams of a call, as its result shows them. -/
structure Announced {call : ShellCall} (r : CallRun call) (result : StepResult) : Prop where
  output : Truthful (r.read .out) result.standardOutput
  error : ∃ shown, Truthful (r.read .err) shown ∧
    result.standardError = shown ++ harnessError r.outcome.result shown

/-- The stream is not cut, or the cut happens to stand behind a marker in it. -/
def Fits (stream : Bytes) : Prop :=
  stream.length ≤ kMaxStdoutLength ∨ Marked (stream.take kMaxStdoutLength)

/-- The first bytes of a stream tell the truth about it when they are all of it, or end in the marker. -/
theorem truthful_take (stream : Bytes) :
    Truthful stream (stream.take kMaxStdoutLength) ↔ Fits stream := by
  unfold Truthful Fits
  rw [List.take_eq_self_iff]

/-- The error text, with the reported line behind it, tells what was shown before it. -/
theorem append_harnessError_inj (er : Exec.Result) {shown shown' : Bytes}
    (h : shown ++ harnessError er shown = shown' ++ harnessError er shown') : shown = shown' := by
  unfold harnessError at h
  split_ifs at h with hnone hshown hshown' hshown'
  · simpa using h
  · rw [hshown, hshown']
  · have hlength := congrArg List.length h
    simp [hshown, lit] at hlength
    omega
  · have hlength := congrArg List.length h
    simp [hshown', lit] at hlength
    omega
  · exact List.append_cancel_right h

/-- The streams of a result are the first 24000 bytes that were read of each. -/
theorem shellResult_streams {call : ShellCall} (r : CallRun call) (st : Step) (startTime endTime : Bytes)
    (hcap : kMaxStdoutLength ≤ call.maxCaptureBytes) :
    let result := shellResult st startTime endTime r.outcome.result
    let shown := (r.read .err).take kMaxStdoutLength
    result.standardOutput = (r.read .out).take kMaxStdoutLength ∧
      result.standardError = shown ++ harnessError r.outcome.result shown := by
  obtain ⟨hout, herr⟩ := runShell_captured r.sys _ _ _ _ _ _ _ _ _ _ r.ran
  have hclipOut := clip_captured call.maxCaptureBytes (r.read .out) hcap
  have hclipErr := clip_captured call.maxCaptureBytes (r.read .err) hcap
  rw [← hout] at hclipOut
  rw [← herr] at hclipErr
  refine ⟨hclipOut, ?_⟩
  unfold shellResult harnessError
  dsimp only
  rw [hclipErr]
  by_cases hcancelled : r.outcome.result.cancelled = true
  · simp [hcancelled]
  by_cases herror : r.outcome.result.error = []
  · simp [hcancelled, herror]
    split_ifs <;> rfl
  · simp [hcancelled, herror]

/-- A shell step announces what it left out exactly when both its streams fit. -/
theorem announced_shellResult {call : ShellCall} (r : CallRun call) (st : Step) (startTime endTime : Bytes)
    (hcap : kMaxStdoutLength ≤ call.maxCaptureBytes) :
    Announced r (shellResult st startTime endTime r.outcome.result) ↔ ∀ s, Fits (r.read s) := by
  obtain ⟨hout, herr⟩ := shellResult_streams r st startTime endTime hcap
  constructor
  · intro h
    obtain ⟨shown, htruthful, hshown⟩ := h.error
    rw [herr] at hshown
    intro s
    cases s with
    | out => exact (truthful_take _).mp (hout ▸ h.output)
    | err => exact (truthful_take _).mp (append_harnessError_inj _ hshown ▸ htruthful)
  · intro h
    refine ⟨?_, _, (truthful_take _).mpr (h .err), herr⟩
    rw [hout]
    exact (truthful_take _).mpr (h .out)

/-! ## The calls of a document -/

/-- A call captures at least what is shown. -/
theorem shellCall_capture {strtod : Bytes → Double × ℕ} {maxCapture : ℕ} {parameters docParameters : Value}
    {st : Step} {call : ShellCall}
    (hcall : shellCall strtod maxCapture parameters docParameters st = some call) :
    kMaxStdoutLength ≤ call.maxCaptureBytes := by
  unfold shellCall at hcall
  dsimp only at hcall
  split_ifs at hcall
  cases hcall
  exact le_max_right _ _

section Run

variable (strtod : Bytes → Double × ℕ) (m : CallMachine) (maxCapture : ℕ)

/-- A step whose command was run shows its streams. -/
def AnnouncedStep (parameters docParameters : Value) (s : ℕ × Step) (result : StepResult) : Prop :=
  ∀ call, shellCall strtod maxCapture parameters docParameters s.2 = some call →
    Announced (m.run s.1 call) result

/-- No stream of the step's command is cut, but behind a marker. -/
def FitsStep (parameters docParameters : Value) (s : ℕ × Step) : Prop :=
  ∀ call, shellCall strtod maxCapture parameters docParameters s.2 = some call →
    ∀ stream, Fits ((m.run s.1 call).read stream)

/-- A built step is announced exactly when it fits. -/
theorem announcedStep_iff (parameters docParameters : Value) (s : ℕ × Step) (result : StepResult)
    (h : Built strtod m.host maxCapture parameters docParameters s.1 s.2 result) :
    AnnouncedStep strtod m maxCapture parameters docParameters s result ↔
      FitsStep strtod m maxCapture parameters docParameters s := by
  apply forall₂_congr
  intro call hcall
  cases h with
  | skipped startTime endTime hpre => simp [shellCall, hpre] at hcall
  | unsupported startTime endTime hpre haction => simp [shellCall, hpre, haction] at hcall
  | noCommands startTime endTime hpre haction hnone =>
    rw [hnone] at hcall
    cases hcall
  | called startTime endTime call' hcall' =>
    rw [hcall'] at hcall
    cases hcall
    exact announced_shellResult (m.run s.1 call) s.2 startTime endTime (shellCall_capture hcall')

/-- **No stream is cut silently** exactly when no command that the agent runs writes more than
24000 bytes to a pipe (or has a marker of its own before the cut).
SRC: runner.cpp:292-304, exec.cpp:110-164, util.cpp:280-284 -/
theorem announced_iff (document parameters : Value) (log : Log) :
    let docParameters := (document.find (lit "parameters")).getD .null
    let steps := reachedSteps strtod m.host maxCapture document parameters log
    List.Forall₂ (AnnouncedStep strtod m maxCapture parameters docParameters) steps
        (runDocument strtod m.host maxCapture document parameters log).1.steps ↔
      ∀ s ∈ steps, FitsStep strtod m maxCapture parameters docParameters s :=
  forall₂_iff (announcedStep_iff strtod m maxCapture parameters _)
    (runDocument_built strtod m.host maxCapture document parameters log)

end Run

/-! ## A long output -/

/-- Every command writes 24001 letters. -/
def pouringMachine : CallMachine where
  nowMs _ := 0
  run _ call := pouringCall 97 (List.replicate 24000 97) call

/-- A stream of one letter ends with no marker. -/
theorem not_marked_replicate (n : ℕ) : ¬Marked (List.replicate n 97) := by
  have hletters (pat : Bytes) (b : UInt8) (hmem : b ∈ pat) (hb : b ≠ 97) :
      ¬pat <:+ List.replicate n 97 := by
    intro hsuffix
    exact hb (List.eq_of_mem_replicate (hsuffix.subset hmem))
  rintro (h | h | h)
  · exact hletters Exec.truncationMarker 45 (by decide) (by decide) h
  · exact hletters kTruncateOut 45 (by decide) (by decide) h
  · exact hletters kTruncateError 45 (by decide) (by decide) h

/-- The pouring call writes more than fits. -/
theorem pouringCall_not_fits (call : ShellCall) :
    ¬Fits ((pouringCall 97 (List.replicate 24000 97) call).read .out) := by
  have hread : (pouringCall 97 (List.replicate 24000 97) call).read .out = List.replicate 24001 97 := rfl
  have hmax : kMaxStdoutLength = 24000 := rfl
  rw [hread, Fits, hmax, List.length_replicate, List.take_replicate]
  intro h
  apply h.elim
  · omega
  · exact not_marked_replicate _

/-- The example's long output is cut without a word. -/
theorem long_not_announced :
    ¬List.Forall₂ (AnnouncedStep (fun _ => (.nan, 0)) pouringMachine 0 .null
        ((echoDocument.find (lit "parameters")).getD .null))
      (reachedSteps (fun _ => (.nan, 0)) pouringMachine.host 0 echoDocument .null Log.empty)
      (runDocument (fun _ => (.nan, 0)) pouringMachine.host 0 echoDocument .null Log.empty).1.steps := by
  intro h
  have hfits := (forall₂_iff (announcedStep_iff _ _ _ _ _)
    (runDocument_built _ pouringMachine.host 0 echoDocument .null Log.empty)).mp h
  obtain ⟨call, hcall⟩ := echo_called
  exact pouringCall_not_fits call (hfits _ (echo_reached _ _ _ _) call hcall .out)

end HaikuAgent.Analysis.StreamClips
