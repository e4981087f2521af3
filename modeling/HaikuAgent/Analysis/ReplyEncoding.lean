import HaikuAgent.Analysis.ReplyText
import HaikuAgent.Analysis.ShellCapture
import HaikuAgent.Model.Runner

/-!
# When a reply is UTF-8

The children of a document write UTF-8 text; the agent cuts it by bytes, in four places: what
it has read when it stops reading, the first 24000 bytes of each pipe, and the two parts that
`truncate_output` keeps. `Uncut` says that none of these cuts falls inside a character. With
names and error texts that are UTF-8 themselves, that is when the reply is
(`reply_utf8_iff`).
-/

set_option autoImplicit false

namespace HaikuAgent.Analysis.ReplyEncoding

open HaikuAgent.Foundation
open HaikuAgent.Model
open HaikuAgent.Model.Json
open HaikuAgent.Model.Runner
open HaikuAgent.Analysis.ReplyText
open HaikuAgent.Analysis.ShellCapture

/-! ## The commands of a document and their output -/

/-- A call of `run_shell` that returned, on a machine of any kind, and the bytes that it read. -/
structure CallRun (call : ShellCall) where
  W : Type
  sys : Exec.Sys W
  cancel : Bool
  fuel : ℕ
  before : W
  after : W
  read : Record
  outcome : Exec.Outcome
  ran : Exec.runShell (recording sys) call.script call.timeoutSeconds call.workingDir
    call.maxCaptureBytes cancel fuel (before, Record.empty) = some ((after, read), outcome)

/-- The clock, and what becomes of every call of `run_shell`. -/
structure CallMachine where
  nowMs : ℕ → ℤ
  run : ℕ → ∀ call : ShellCall, CallRun call

def CallMachine.host (m : CallMachine) : Host := ⟨m.nowMs, fun n call => (m.run n call).outcome.result⟩

/-- A call whose child writes UTF-8 text. -/
structure ShellRun (call : ShellCall) extends CallRun call where
  text : Exec.Stream → Bytes
  textUtf8 : ∀ s, Utf8 (text s)
  reads : ∀ s, read s <+: text s

/-- A machine on which every child does. -/
structure Machine where
  nowMs : ℕ → ℤ
  run : ℕ → ∀ call : ShellCall, ShellRun call

def Machine.host (m : Machine) : Host := CallMachine.host ⟨m.nowMs, fun n call => (m.run n call).toCallRun⟩

/-- What a child wrote, how much of it was read, and how the call ended. -/
structure Transcript where
  text : Exec.Stream → Bytes
  size : Exec.Stream → ℕ
  error : Bytes
  cancelled : Bool

def ShellRun.transcript {call : ShellCall} (r : ShellRun call) : Transcript :=
  { text := r.text
    size := fun s => (r.read s).length
    error := r.outcome.result.error
    cancelled := r.outcome.result.cancelled }

/-- The call that a step makes, if it comes to one. -/
def shellCall (strtod : Bytes → Double × ℕ) (maxCapture : ℕ) (parameters docParameters : Value)
    (st : Step) : Option ShellCall :=
  let inputs := resolve st.inputs parameters docParameters
  let script := join (commandLines inputs) (lit "\n")
  if preconditionExcludesStep st.precondition then none
  else if st.action ≠ kRunShellScript then none
  else if trim script = [] then none
  else some
    { script
      timeoutSeconds := (inputs.numAt strtod (lit "timeoutSeconds") (.finite 3600)).toIntBounded
        (-2147483648) 2147483647
      workingDir := inputs.strAt (lit "workingDirectory") []
      maxCaptureBytes := max maxCapture kMaxStdoutLength }

/-- A step that the agent comes to, with the transcript of its call. -/
abbrev Attempt := Step × Option Transcript

/-- The steps up to the first that is cancelled. -/
def attempts (call : Step → Option ShellCall) (run : ℕ → ShellCall → Transcript) :
    List Step → ℕ → List Attempt
  | [], _ => []
  | st :: rest, n =>
    match call st with
    | none => (st, none) :: attempts call run rest n
    | some c => (st, some (run n c)) ::
        if (run n c).cancelled then [] else attempts call run rest (n + 1)

/-! ## The cuts -/

/-- A cut at `n` does not fall inside a character of `s`. -/
def Boundary (s : Bytes) (n : ℕ) : Prop := ∀ b, s[n]? = some b → isContinuation b = false

/-- How much `truncate_output` keeps of either text, from their sizes. -/
def kept (outSize errSize : ℕ) : ℕ × ℕ :=
  let available := kMaxPluginOutputSize - (if errSize = 0 then 0 else kErrTitle.length)
  let marks := kTruncateOut.length + kTruncateError.length
  if outSize + errSize < available then (outSize, errSize)
  else if available / 2 < outSize ∧ available / 2 < errSize then
    ((available - marks) / 2, (available - marks) / 2)
  else if outSize ≤ available / 2 then (outSize, available - kTruncateError.length - outSize)
  else (available - kTruncateOut.length - errSize, errSize)

namespace Transcript

variable (t : Transcript)

/-- Where the text of a pipe is cut: what has been read, and no more than 24000 bytes. -/
def shown (s : Exec.Stream) : ℕ := min kMaxStdoutLength (t.size s)

/-- The error that is reported: none of a cancelled call. -/
def reported : Bytes := if t.cancelled then [] else t.error

def standardOutput : Bytes := (t.text .out).take (t.shown .out)

def standardError : Bytes :=
  let written := (t.text .err).take (t.shown .err)
  written ++ (if t.reported = [] then [] else (if written = [] then [] else lit "\n") ++ t.reported)

/-- Every cut of the transcript falls between characters. -/
structure Uncut : Prop where
  out : Boundary (t.text .out) (t.shown .out)
  err : Boundary (t.text .err) (t.shown .err)
  error : Utf8 t.reported
  keptOut : Boundary t.standardOutput (kept t.standardOutput.length t.standardError.length).1
  keptErr : Boundary t.standardError (kept t.standardOutput.length t.standardError.length).2

end Transcript

/-- The names of the step are text and its output is cut between characters. -/
structure Readable (a : Attempt) : Prop where
  name : Utf8 a.1.pluginId
  action : Utf8 a.1.action
  output : ∀ t, a.2 = some t → t.Uncut

structure AgentText (agent : AgentInfo) : Prop where
  lang : Utf8 agent.lang
  name : Utf8 agent.name
  os : Utf8 agent.os
  osVer : Utf8 agent.osVer
  version : Utf8 agent.version

/-! ## The texts of a result -/

/-- A prefix of a UTF-8 text is UTF-8 exactly when it ends between two characters. -/
theorem utf8_take_boundary (s : Bytes) (hs : Utf8 s) (n : ℕ) : Utf8 (s.take n) ↔ Boundary s n :=
  utf8_take_iff s hs n

/-- Clipping without a marker keeps the first bytes. -/
theorem clip_nil (s : Bytes) (n : ℕ) : clip s n [] = s.take n := by
  unfold clip
  split_ifs with hfits hzero
  · exact (List.take_of_length_le hfits).symm
  · rfl
  · rw [List.append_nil]
    rfl

/-- The capture limit is beyond the clip. -/
theorem clip_captured (cap : ℕ) (got : Bytes) (hcap : kMaxStdoutLength ≤ cap) :
    clip (captured cap got) kMaxStdoutLength [] = got.take kMaxStdoutLength := by
  rw [clip_nil]
  unfold captured
  split_ifs with hmore
  · rw [List.take_append_of_le_length (by rw [List.length_take]; omega), List.take_take,
      Nat.min_eq_left hcap]
  · rw [List.append_nil, List.take_take, Nat.min_eq_left hcap]

/-- What `truncate_output` writes around the parts that it keeps. -/
theorem truncateOutput_parts (out err : Bytes) : ∃ between after,
    truncateOutput out err kMaxPluginOutputSize =
      out.take (kept out.length err.length).1 ++ (between ++
        (err.take (kept out.length err.length).2 ++ after)) ∧
      Ascii between ∧ Ascii after ∧ (between = [] → err = []) := by
  have hcut : Ascii kTruncateOut := by decide
  have hcutError : Ascii kTruncateError := by decide
  obtain ⟨title, htitle, hascii, hnone, hroom, hroom'⟩ : ∃ title,
      (if 0 < err.length then kErrTitle else []) = title ∧ Ascii title ∧ (title = [] → err = []) ∧
      kMaxPluginOutputSize - title.length =
        kMaxPluginOutputSize - (if err.length = 0 then 0 else kErrTitle.length) ∧
      (if title.length < kMaxPluginOutputSize then kMaxPluginOutputSize - title.length else 0) =
        kMaxPluginOutputSize - title.length := by
    cases err with
    | nil => exact ⟨[], rfl, ascii_nil, fun _ => rfl, rfl, rfl⟩
    | cons b err =>
      refine ⟨kErrTitle, rfl, by decide, fun h => ?_, rfl, rfl⟩
      exact absurd h (by decide)
  have hbound : kErrTitle.length = 24 ∧ kTruncateOut.length = 23 ∧ kTruncateError.length = 23 ∧
    kMaxPluginOutputSize = 2500 := ⟨rfl, rfl, rfl, rfl⟩
  unfold truncateOutput kept
  dsimp only
  rw [htitle, hroom', ← hroom]
  have hlarge : 2476 ≤ kMaxPluginOutputSize - title.length := by
    rw [hroom]
    split_ifs <;> omega
  generalize kMaxPluginOutputSize - title.length = available at hlarge
  have hsub (n : ℕ) (hn : n ≤ available) : sizeSub available n = available - n := if_pos hn
  have htwice : sizeSub (sizeSub available kTruncateError.length) kTruncateOut.length =
      available - (kTruncateOut.length + kTruncateError.length) := by
    rw [hsub _ (by omega), sizeSub, if_pos (by omega)]
    omega
  rw [htwice, hsub kTruncateError.length (by omega), hsub kTruncateOut.length (by omega)]
  by_cases hfits : out.length + err.length < available
  · rw [if_pos hfits, if_pos hfits, List.take_length, List.take_length]
    exact ⟨title, [], by rw [List.append_nil, List.append_assoc], hascii, ascii_nil, hnone⟩
  rw [if_neg hfits, if_neg hfits]
  by_cases hboth : available / 2 < out.length ∧ available / 2 < err.length
  · rw [if_pos hboth, if_pos hboth]
    refine ⟨kTruncateOut ++ title, kTruncateError, ?_, hcut.append hascii, hcutError, ?_⟩
    · simp only [List.append_assoc]
    · exact fun h => hnone (List.append_eq_nil_iff.mp h).2
  rw [if_neg hboth, if_neg hboth]
  by_cases hle : out.length ≤ available / 2
  · rw [if_pos hle, if_pos hle, if_pos (by omega), List.take_length]
    refine ⟨title, kTruncateError, ?_, hascii, hcutError, hnone⟩
    rw [← List.take_eq_take_min, List.append_assoc, List.append_assoc]
  · rw [if_neg hle, if_neg hle, if_pos (by omega), List.take_length]
    refine ⟨kTruncateOut ++ title, [], ?_, hcut.append hascii, ascii_nil, ?_⟩
    · rw [← List.take_eq_take_min, List.append_nil]
      simp only [List.append_assoc]
    · exact fun h => hnone (List.append_eq_nil_iff.mp h).2

/-- A truncated output is UTF-8 exactly when both cuts fall between characters. -/
theorem utf8_truncateOutput_iff (out err : Bytes) (hout : Utf8 out) (herr : Utf8 err) :
    Utf8 (truncateOutput out err kMaxPluginOutputSize) ↔
      Boundary out (kept out.length err.length).1 ∧ Boundary err (kept out.length err.length).2 := by
  obtain ⟨between, after, heq, hbetween, hafter, hnone⟩ := truncateOutput_parts out err
  have hend (s : Bytes) : Utf8 (s ++ after) ↔ Utf8 s := by
    rw [utf8_append_iff s after fun b hb => not_continuation_ascii b (hafter b (List.mem_of_mem_head? hb))]
    exact and_iff_left (utf8_ascii after hafter)
  rw [heq, ← utf8_take_boundary out hout, ← utf8_take_boundary err herr]
  by_cases hempty : between = []
  · subst hempty
    rw [hnone rfl, List.take_nil, List.nil_append, List.nil_append, hend]
    exact (and_iff_left utf8_nil).symm
  · rw [utf8_separated_text between hempty hbetween, hend]

/-! ## The results of the steps -/

/-- A padded number is ASCII. -/
theorem ascii_padded (width : ℕ) (n : ℤ) : Ascii (Time.padded width n) :=
  ((ascii_sign _).append (ascii_replicate _ 48 (by decide))).append (ascii_toStringNat _)

/-- A date is ASCII. -/
theorem ascii_isoDate (tm : Time.Tm) : Ascii (Time.isoDate tm) :=
  ((((ascii_padded 4 _).append (by decide)).append (ascii_padded 2 _)).append (by decide)).append
    (ascii_padded 2 _)

/-- A time of day is ASCII when its separator is. -/
theorem ascii_isoTime (sep : Bytes) (hsep : Ascii sep) (tm : Time.Tm) : Ascii (Time.isoTime sep tm) :=
  ((((ascii_padded 2 _).append hsep).append (ascii_padded 2 _)).append hsep).append (ascii_padded 2 _)

/-- A time stamp is ASCII. -/
theorem ascii_iso8601 (epochMs : ℤ) : Ascii (Time.iso8601 epochMs) :=
  (((((ascii_isoDate _).append (by decide)).append (ascii_isoTime _ (by decide) _)).append
    (by decide)).append (ascii_padded 3 _)).append (by decide)

/-- A time stamp with dashes is ASCII. -/
theorem ascii_isoDash (epochMs : ℤ) : Ascii (Time.isoDash epochMs) :=
  (((((ascii_isoDate _).append (by decide)).append (ascii_isoTime _ (by decide) _)).append
    (by decide)).append (ascii_padded 3 _)).append (by decide)

/-- The members of a result that are text from outside. -/
structure TextFields (s : StepResult) : Prop where
  pluginId : Utf8 s.pluginId
  action : Utf8 s.action
  output : Utf8 s.output
  standardOutput : Utf8 s.standardOutput
  standardError : Utf8 s.standardError

/-- The members of a result that the agent writes itself. -/
structure OwnFields (s : StepResult) : Prop where
  status : Ascii s.status
  startTime : Ascii s.startTime
  endTime : Ascii s.endTime
  bucket : s.outputS3Bucket = []
  keyPrefix : s.outputS3KeyPrefix = []

/-- The status of a step is clean exactly when the texts of the step are UTF-8. -/
theorem clean_stepStatus (s : StepResult) (h : OwnFields s) :
    Utf8 s.pluginId ∧ Clean (stepStatus s) ↔ TextFields s := by
  unfold stepStatus
  rw [clean_record _ [lit "status", lit "code", lit "name", lit "output", lit "startDateTime",
    lit "endDateTime", lit "outputS3BucketName", lit "outputS3KeyPrefix", lit "stepName",
    lit "standardOutput", lit "standardError"] rfl (by decide)]
  simp only [List.map_cons, List.map_nil, List.forall_mem_cons, clean_string, h.bucket, h.keyPrefix]
  have hnone : ∀ v ∈ ([] : List Value), Clean v := fun v hv => absurd hv List.not_mem_nil
  constructor
  · rintro ⟨hname, -, -, haction, houtput, -, -, -, -, -, hout, herr, -⟩
    exact ⟨hname, haction, houtput, hout, herr⟩
  · intro ht
    exact ⟨ht.pluginId, utf8_ascii _ h.status, clean_number _ _, ht.action, ht.output,
      utf8_ascii _ h.startTime, utf8_ascii _ h.endTime, utf8_nil, utf8_nil, ht.pluginId,
      ht.standardOutput, ht.standardError, hnone⟩

/-- The result of a step that the agent came to. -/
structure Shown (a : Attempt) (s : StepResult) : Prop where
  pluginId : s.pluginId = a.1.pluginId
  own : OwnFields s
  text : TextFields s ↔ Readable a

/-- A step that was not run is readable when its name and its action are. -/
theorem readable_none (st : Step) : Readable (st, none) ↔ Utf8 st.pluginId ∧ Utf8 st.action :=
  ⟨fun h => ⟨h.name, h.action⟩, fun h => ⟨h.1, h.2, fun _ ht => nomatch ht⟩⟩

/-- A skipped step shows its own name. -/
theorem shown_skipped (st : Step) (startTime endTime : Bytes) (hstart : Ascii startTime)
    (hend : Ascii endTime) : Shown (st, none) (skipped st.pluginId st.action startTime endTime) := by
  have hstatus : Ascii (lit "Skipped") := by decide
  have hreason : Utf8 (skipped [] [] [] []).output := utf8_ascii _ (by decide)
  refine ⟨rfl, ⟨hstatus, hstart, hend, rfl, rfl⟩, ?_⟩
  rw [readable_none]
  exact ⟨fun h => ⟨h.pluginId, h.action⟩, fun h => ⟨h.1, h.2, hreason, hreason, utf8_nil⟩⟩

/-- An unsupported step shows its own name and action. -/
theorem shown_unsupported (st : Step) (startTime endTime : Bytes) (hstart : Ascii startTime)
    (hend : Ascii endTime) : Shown (st, none) (unsupported st.pluginId st.action startTime endTime) := by
  have hstatus : Ascii (lit "Failed") := by decide
  refine ⟨rfl, ⟨hstatus, hstart, hend, rfl, rfl⟩, ?_⟩
  rw [readable_none]
  constructor
  · exact fun h => ⟨h.pluginId, h.action⟩
  · rintro ⟨hname, haction⟩
    have htext : Utf8 (unsupported st.pluginId st.action startTime endTime).output := by
      refine ((Spelled.append (Spelled.append (Spelled.append ?_ haction) ?_) ?_)).append ?_ <;>
        exact utf8_ascii _ (by decide)
    exact ⟨hname, haction, htext, utf8_nil, htext⟩

/-- A step without commands shows its own name and action. -/
theorem shown_noCommands (st : Step) (startTime endTime : Bytes) (hstart : Ascii startTime)
    (hend : Ascii endTime) : Shown (st, none) (noCommands st startTime endTime) := by
  have hstatus : Ascii (lit "Failed") := by decide
  have hreason : Utf8 (noCommands st startTime endTime).output :=
    utf8_ascii (lit "no commands to run (runCommand resolved to empty)") (by decide)
  refine ⟨rfl, ⟨hstatus, hstart, hend, rfl, rfl⟩, ?_⟩
  rw [readable_none]
  exact ⟨fun h => ⟨h.pluginId, h.action⟩, fun h => ⟨h.1, h.2, hreason, utf8_nil, hreason⟩⟩

section Transcript

variable {call : ShellCall} (r : ShellRun call)

/-- What was read of a pipe is the beginning of its text. -/
theorem read_eq (s : Exec.Stream) : r.read s = (r.text s).take (r.read s).length :=
  List.prefix_iff_eq_take.mp (r.reads s)

/-- The reported standard output is what the transcript shows of it. -/
theorem clip_stdout (hcap : kMaxStdoutLength ≤ call.maxCaptureBytes) :
    clip r.outcome.result.stdoutData kMaxStdoutLength [] = r.transcript.standardOutput := by
  have hcaptured := (runShell_captured r.sys _ _ _ _ _ _ _ _ _ _ r.ran).1
  rw [hcaptured, clip_captured _ _ hcap, read_eq r .out, List.take_take]
  rfl

/-- The reported standard error is the first bytes of what the shell wrote to it. -/
theorem clip_stderr (hcap : kMaxStdoutLength ≤ call.maxCaptureBytes) :
    clip r.outcome.result.stderrData kMaxStdoutLength [] =
      (r.text .err).take (r.transcript.shown .err) := by
  have hcaptured := (runShell_captured r.sys _ _ _ _ _ _ _ _ _ _ r.ran).2
  rw [hcaptured, clip_captured _ _ hcap, read_eq r .err, List.take_take]
  rfl

/-- The standard output is UTF-8 exactly when what is shown of it ends between characters. -/
theorem utf8_standardOutput_iff :
    Utf8 r.transcript.standardOutput ↔ Boundary (r.text .out) (r.transcript.shown .out) :=
  utf8_take_boundary _ (r.textUtf8 .out) _

/-- A text followed by a reported line is UTF-8 exactly when both are. -/
theorem utf8_reported_iff (written reported : Bytes) :
    Utf8 (written ++ (if reported = [] then [] else (if written = [] then [] else lit "\n") ++ reported)) ↔
      Utf8 written ∧ Utf8 reported := by
  by_cases hnone : reported = []
  · rw [if_pos hnone, hnone, List.append_nil]
    exact (and_iff_left utf8_nil).symm
  rw [if_neg hnone]
  by_cases hempty : written = []
  · rw [if_pos hempty, hempty]
    exact (and_iff_right utf8_nil).symm
  · rw [if_neg hempty]
    exact utf8_separated 10 (by decide) written reported

/-- The standard error is UTF-8 when its cut falls between characters and the reported line is UTF-8. -/
theorem utf8_standardError_iff :
    Utf8 r.transcript.standardError ↔
      Boundary (r.text .err) (r.transcript.shown .err) ∧ Utf8 r.transcript.reported := by
  unfold Transcript.standardError
  dsimp only
  rw [utf8_reported_iff]
  exact and_congr_left fun _ => utf8_take_boundary _ (r.textUtf8 .err) _

/-- The text that a call leaves is UTF-8 where no cut is inside a character. -/
theorem uncut_iff :
    r.transcript.Uncut ↔ Utf8 r.transcript.standardOutput ∧ Utf8 r.transcript.standardError ∧
      Utf8 (truncateOutput r.transcript.standardOutput r.transcript.standardError kMaxPluginOutputSize) := by
  constructor
  · intro h
    have hout := (utf8_standardOutput_iff r).mpr h.out
    have herr := (utf8_standardError_iff r).mpr ⟨h.err, h.error⟩
    exact ⟨hout, herr, (utf8_truncateOutput_iff _ _ hout herr).mpr ⟨h.keptOut, h.keptErr⟩⟩
  · rintro ⟨hout, herr, houtput⟩
    obtain ⟨hkeptOut, hkeptErr⟩ := (utf8_truncateOutput_iff _ _ hout herr).mp houtput
    obtain ⟨hboundary, herror⟩ := (utf8_standardError_iff r).mp herr
    exact ⟨(utf8_standardOutput_iff r).mp hout, hboundary, herror, hkeptOut, hkeptErr⟩

/-- The status, the code and the error text of a call, as `run_document` sets them. -/
def callStatus (er : Exec.Result) (standardError : Bytes) : Bytes × ℤ × Bytes :=
  let nonzero := if er.exitCode = 0 then 1 else er.exitCode
  if er.cancelled then (lit "Cancelled", nonzero, standardError)
  else if er.error ≠ [] then
    (lit "Failed", nonzero, standardError ++ (if standardError = [] then [] else lit "\n") ++ er.error)
  else if er.timedOut then (lit "TimedOut", nonzero, standardError)
  else (if er.exitCode = 0 then lit "Success" else lit "Failed", er.exitCode, standardError)

/-- The standard error of the call is that of its transcript. -/
theorem callStatus_error :
    (callStatus r.outcome.result ((r.text .err).take (r.transcript.shown .err))).2.2 =
      r.transcript.standardError := by
  unfold Transcript.standardError Transcript.reported callStatus
  show _ = (r.text .err).take (r.transcript.shown .err) ++ (if (if r.outcome.result.cancelled then [] else
    r.outcome.result.error) = [] then [] else _ ++ (if r.outcome.result.cancelled then [] else _))
  dsimp only
  by_cases hcancelled : r.outcome.result.cancelled = true
  · rw [if_pos hcancelled, if_pos hcancelled, if_pos rfl, List.append_nil]
  rw [if_neg hcancelled, if_neg hcancelled]
  by_cases herror : r.outcome.result.error = []
  · rw [if_neg (not_not.mpr herror), if_pos herror, List.append_nil]
    split_ifs <;> rfl
  · rw [if_pos herror, if_neg herror, if_neg hcancelled, List.append_assoc]
    rfl

/-- The status of a call is ASCII. -/
theorem ascii_callStatus (er : Exec.Result) (standardError : Bytes) :
    Ascii (callStatus er standardError).1 := by
  unfold callStatus
  dsimp only
  split_ifs
  all_goals
    dsimp only
    decide

/-- The result of a shell step shows what its transcript holds. -/
theorem shown_shellResult (st : Step) (startTime endTime : Bytes) (hstart : Ascii startTime)
    (hend : Ascii endTime) (hcap : kMaxStdoutLength ≤ call.maxCaptureBytes) :
    Shown (st, some r.transcript) (shellResult st startTime endTime r.outcome.result) := by
  have hout := clip_stdout r hcap
  have herr := callStatus_error r
  rw [← clip_stderr r hcap] at herr
  have hfields : TextFields (shellResult st startTime endTime r.outcome.result) ↔
      Utf8 st.pluginId ∧ Utf8 st.action ∧ r.transcript.Uncut := by
    rw [uncut_iff, ← hout, ← herr]
    constructor
    · exact fun h => ⟨h.pluginId, h.action, h.standardOutput, h.standardError, h.output⟩
    · exact fun ⟨hname, haction, hout, herr, houtput⟩ => ⟨hname, haction, houtput, hout, herr⟩
  refine ⟨rfl, ⟨ascii_callStatus _ _, hstart, hend, rfl, rfl⟩, hfields.trans ?_⟩
  constructor
  · rintro ⟨hname, haction, huncut⟩
    refine ⟨hname, haction, fun t ht => ?_⟩
    cases ht
    exact huncut
  · exact fun h => ⟨h.name, h.action, h.output _ rfl⟩

end Transcript

/-! ## The loop over the steps -/

section Run

variable (strtod : Bytes → Double × ℕ) (m : Machine) (maxCapture : ℕ) (parameters docParameters : Value)

/-- The transcripts of the machine's calls. -/
def Machine.transcript (n : ℕ) (call : ShellCall) : Transcript := (m.run n call).transcript

/-- A document's status stays ASCII. -/
theorem ascii_combineStatus (document step : Bytes) (h : Ascii document) :
    Ascii (combineStatus document step) :=
  ascii_ite _ (by decide) (ascii_ite _ (by decide) h)

/-- A round whose step makes no call. -/
theorem runStep_none (st : Step) (status : Bytes) (log : Log) (hstatus : Ascii status)
    (hcall : shellCall strtod maxCapture parameters docParameters st = none) :
    let round := runStep strtod m.host maxCapture parameters docParameters st status log
    Shown (st, none) round.result ∧ Ascii round.status ∧ round.stop = false ∧
      round.log.calls = log.calls := by
  have hfailed : Ascii (lit "Failed") := by decide
  unfold shellCall at hcall
  unfold runStep
  dsimp only at hcall ⊢
  by_cases hpre : preconditionExcludesStep st.precondition = true
  · rw [if_pos hpre]
    exact ⟨shown_skipped st _ _ (ascii_iso8601 _) (ascii_iso8601 _), hstatus, rfl, rfl⟩
  rw [if_neg hpre] at hcall ⊢
  by_cases haction : st.action ≠ kRunShellScript
  · rw [if_pos haction]
    exact ⟨shown_unsupported st _ _ (ascii_iso8601 _) (ascii_iso8601 _), hfailed, rfl, rfl⟩
  rw [if_neg haction] at hcall ⊢
  by_cases hscript : trim (join (commandLines (resolve st.inputs parameters docParameters)) (lit "\n")) = []
  · rw [if_pos hscript]
    exact ⟨shown_noCommands st _ _ (ascii_iso8601 _) (ascii_iso8601 _), hfailed, rfl, rfl⟩
  · rw [if_neg hscript] at hcall
    cases hcall

/-- A round whose step makes a call. -/
theorem runStep_some (st : Step) (status : Bytes) (log : Log) (call : ShellCall) (hstatus : Ascii status)
    (hcall : shellCall strtod maxCapture parameters docParameters st = some call) :
    let round := runStep strtod m.host maxCapture parameters docParameters st status log
    let t := m.transcript log.calls.length call
    Shown (st, some t) round.result ∧ Ascii round.status ∧ round.stop = t.cancelled ∧
      round.log.calls.length = log.calls.length + 1 := by
  unfold shellCall at hcall
  unfold runStep
  dsimp only at hcall ⊢
  split_ifs at hcall with hpre haction hscript
  rw [if_neg hpre, if_neg haction, if_neg hscript]
  cases hcall
  refine ⟨?_, ascii_combineStatus _ _ hstatus, rfl, List.length_append⟩
  exact shown_shellResult _ st _ _ (ascii_iso8601 _) (ascii_iso8601 _) (Nat.le_max_right _ _)

/-- Every step of the loop shows its transcript, and the document's status stays ASCII. -/
theorem runSteps_spec (steps : List Step) (status : Bytes) (log : Log) (hstatus : Ascii status) :
    let outcome := (runSteps strtod m.host maxCapture parameters docParameters steps status log).1
    List.Forall₂ Shown (attempts (shellCall strtod maxCapture parameters docParameters) m.transcript steps
      log.calls.length) outcome.steps ∧ Ascii outcome.status ∧ outcome.trace = [] := by
  induction steps generalizing status log with
  | nil => exact ⟨List.Forall₂.nil, hstatus, rfl⟩
  | cons st rest ih =>
    unfold runSteps attempts
    dsimp only
    cases hcall : shellCall strtod maxCapture parameters docParameters st with
    | none =>
      obtain ⟨hshown, hround, hstop, hcalls⟩ :=
        runStep_none strtod m maxCapture parameters docParameters st status log hstatus hcall
      obtain ⟨hrest, hfinal, htrace⟩ := ih _ _ hround
      rw [hstop, if_neg Bool.false_ne_true]
      rw [hcalls] at hrest
      exact ⟨List.Forall₂.cons hshown hrest, hfinal, htrace⟩
    | some call =>
      obtain ⟨hshown, hround, hstop, hcalls⟩ :=
        runStep_some strtod m maxCapture parameters docParameters st status log call hstatus hcall
      dsimp only
      rw [hstop]
      cases hcancelled : (m.transcript log.calls.length call).cancelled with
      | true => exact ⟨List.Forall₂.cons hshown List.Forall₂.nil, hround, rfl⟩
      | false =>
        obtain ⟨hrest, hfinal, htrace⟩ := ih _ _ hround
        rw [hcalls] at hrest
        exact ⟨List.Forall₂.cons hshown hrest, hfinal, htrace⟩

end Run

/-! ## The reply -/

/-- What stands in a table after an entry was set is that entry or stood there before. -/
theorem mem_of_mem_setEntry {α : Type} (table : List (Bytes × α)) (key : Bytes) (v : α)
    (entry : Bytes × α) (h : entry ∈ setEntry table key v) : entry = (key, v) ∨ entry ∈ table := by
  induction table with
  | nil => exact Or.inl (List.mem_singleton.mp h)
  | cons first rest ih =>
    unfold setEntry at h
    split_ifs at h
    · exact (List.mem_cons.mp h).imp_right (List.mem_cons_of_mem _)
    · exact List.mem_cons.mp h
    · rcases List.mem_cons.mp h with hfirst | hrest
      · exact Or.inr (hfirst ▸ List.mem_cons_self)
      · exact (ih hrest).imp_right (List.mem_cons_of_mem _)

/-- The statuses that are counted are those of the steps. -/
theorem statusCounts_keys (steps : List StepResult) (h : ∀ s ∈ steps, Ascii s.status) :
    ∀ entry ∈ statusCounts steps, Ascii entry.1 := by
  induction steps using List.reverseRecOn with
  | nil => exact fun _ hentry => absurd hentry List.not_mem_nil
  | append_singleton steps last ih =>
    intro entry hentry
    unfold statusCounts at hentry ih
    rw [List.foldl_append, List.foldl_cons, List.foldl_nil] at hentry
    rcases mem_of_mem_setEntry _ _ _ _ hentry with rfl | hmem
    · exact h last (List.mem_append_right _ (List.mem_singleton_self _))
    · exact ih (fun s hs => h s (List.mem_append_left _ hs)) entry hmem

/-- The counts of the statuses are clean. -/
theorem clean_counts (steps : List StepResult) (h : ∀ s ∈ steps, Ascii s.status) :
    Clean (.obj ((statusCounts steps).map fun (status, n) => (status, intNumber n))) := by
  rw [Clean, cleanEntries_iff]
  intro entry hentry
  obtain ⟨count, hcount, rfl⟩ := List.mem_map.mp hentry
  exact ⟨utf8_ascii _ (statusCounts_keys steps h count hcount), clean_number _ _⟩

/-- The agent's part of the reply is clean exactly when its texts are UTF-8. -/
theorem clean_agent (agent : AgentInfo) :
    Clean (objOf [(lit "lang", .string agent.lang), (lit "name", .string agent.name),
      (lit "os", .string agent.os), (lit "osver", .string agent.osVer),
      (lit "ver", .string agent.version)]) ↔ AgentText agent := by
  rw [clean_record _ [lit "lang", lit "name", lit "os", lit "osver", lit "ver"] rfl (by decide)]
  simp only [List.map_cons, List.map_nil, List.forall_mem_cons, clean_string]
  constructor
  · rintro ⟨hlang, hname, hos, hosVer, hversion, -⟩
    exact ⟨hlang, hname, hos, hosVer, hversion⟩
  · exact fun h => ⟨h.lang, h.name, h.os, h.osVer, h.version, fun v hv => absurd hv List.not_mem_nil⟩

/-- A reply is UTF-8 when the agent's own strings are, and the steps that it lists. -/
theorem utf8_replyPayload_iff (agent : AgentInfo) (status trace : Bytes) (steps : List StepResult)
    (nowMs : ℤ) (as : List Attempt) (hstatus : Ascii status) (htrace : Ascii trace)
    (hsteps : List.Forall₂ Shown as steps) :
    Utf8 (replyPayload agent status trace steps nowMs) ↔
      AgentText agent ∧ ∀ a, Latest (fun a => a.1.pluginId) as a → Readable a := by
  have hstatuses : ∀ s ∈ steps, Ascii s.status := by
    have hboth := hsteps.flip.imp fun s a h => And.intro h.own.status h
    exact ((List.forall₂_and_left _ _).mp hboth).1
  have hruntime : Clean (objOf (steps.map fun s => (s.pluginId, stepStatus s))) ↔
      ∀ a, Latest (fun a => a.1.pluginId) as a → Readable a := by
    rw [clean_objOf_iff]
    apply forall_latest_iff
    refine List.forall₂_map_left_iff.mpr (hsteps.flip.imp ?_)
    intro s a h
    exact ⟨h.pluginId, (clean_stepStatus s h.own).trans h.text⟩
  unfold replyPayload replyValue
  dsimp only
  rw [utf8_dump_iff, clean_record _ [lit "additionalInfo", lit "documentStatus",
    lit "documentTraceOutput", lit "runtimeStatus"] rfl (by decide)]
  simp only [List.map_cons, List.map_nil, List.forall_mem_cons, clean_string]
  rw [hruntime, clean_record _ [lit "agent", lit "dateTime", lit "runId", lit "runtimeStatusCounts"] rfl
    (by decide)]
  simp only [List.map_cons, List.map_nil, List.forall_mem_cons, clean_string, clean_agent]
  have hnone : ∀ v ∈ ([] : List Value), Clean v := fun v hv => absurd hv List.not_mem_nil
  constructor
  · rintro ⟨⟨hagent, -⟩, -, -, hsteps, -⟩
    exact ⟨hagent, hsteps⟩
  · rintro ⟨hagent, hsteps⟩
    exact ⟨⟨hagent, utf8_ascii _ (ascii_iso8601 _), utf8_ascii _ (ascii_isoDash _),
      clean_counts steps hstatuses, hnone⟩, utf8_ascii _ hstatus, utf8_ascii _ htrace, hsteps, hnone⟩

/-- The attempts at the steps of a document. -/
def documentAttempts (strtod : Bytes → Double × ℕ) (m : Machine) (maxCapture : ℕ)
    (document parameters : Value) (log : Log) : List Attempt :=
  attempts (shellCall strtod maxCapture parameters ((document.find (lit "parameters")).getD .null))
    m.transcript (documentSteps document) log.calls.length

/-- A whole document: every result shows its transcript, and the document's status is ASCII. -/
theorem runDocument_shown (strtod : Bytes → Double × ℕ) (m : Machine) (maxCapture : ℕ)
    (document parameters : Value) (log : Log) :
    let outcome := (runDocument strtod m.host maxCapture document parameters log).1
    List.Forall₂ Shown (documentAttempts strtod m maxCapture document parameters log) outcome.steps ∧
      Ascii outcome.status ∧ Ascii outcome.trace := by
  unfold runDocument documentAttempts
  cases documentSteps document with
  | nil =>
    have hstatus : Ascii (lit "Failed") := by decide
    have htrace : Ascii (lit "document contains no runnable steps (no mainSteps or runtimeConfig)") := by
      decide
    exact ⟨List.Forall₂.nil, hstatus, htrace⟩
  | cons st rest =>
    obtain ⟨hsteps, hstatus, htrace⟩ := runSteps_spec strtod m maxCapture parameters
      ((document.find (lit "parameters")).getD .null) (st :: rest) (lit "Success") log (by decide)
    refine ⟨hsteps, hstatus, ?_⟩
    dsimp only
    rw [htrace]
    exact ascii_nil

/-- Exactly when the reply to a command is UTF-8, its children writing UTF-8: the agent's own
strings are, and each step that the reply lists is readable. -/
theorem reply_utf8_iff (strtod : Bytes → Double × ℕ) (m : Machine) (maxCapture : ℕ)
    (document parameters : Value) (log : Log) (agent : AgentInfo) (nowMs : ℤ) :
    let outcome := (runDocument strtod m.host maxCapture document parameters log).1
    Utf8 (replyPayload agent outcome.status outcome.trace outcome.steps nowMs) ↔
      AgentText agent ∧ ∀ a, Latest (fun a => a.1.pluginId)
        (documentAttempts strtod m maxCapture document parameters log) a → Readable a := by
  obtain ⟨hsteps, hstatus, htrace⟩ := runDocument_shown strtod m maxCapture document parameters log
  exact utf8_replyPayload_iff agent _ _ _ nowMs _ hstatus htrace hsteps

/-! ## A reply that is not UTF-8 -/

/-- A child that writes its output at once and exits. The state tells whether it was read. -/
def pouring (b : UInt8) (bs : Bytes) : Exec.Sys Bool where
  spawn w _ _ := (.ok (), w)
  now w := (0, w)
  poll w outOpen errOpen _ := (.ready outOpen errOpen, w)
  read w s :=
    match s, w with
    | .out, false => (.data b bs, true)
    | _, _ => (.eof, w)
  cancelRequested w := (false, w)
  kill w _ := w
  waitpid w := (.exited 0, w)
  sleep w := w

/-- The drain loop's variables once the child's output has been read and its pipes are closed. -/
def poured (cap : ℕ) (b : UInt8) (bs : Bytes) : Exec.Drain :=
  { Exec.Drain.init with
    stdoutData := (Exec.capture cap [] false (b :: bs)).1
    outClipped := (Exec.capture cap [] false (b :: bs)).2
    outOpen := false
    errOpen := false }

/-- No child is killed while it pours out its text. -/
theorem escalate_pouring (b : UInt8) (bs : Bytes) (deadline : ℤ) (k : Bool × Record) (d : Exec.Drain)
    (hdeadline : 0 < deadline) (hterm : d.killedTerm = false) :
    Exec.escalate (recording (pouring b bs)) deadline false k d = (k, d, true) := by
  have hlate : decide (deadline ≤ 0) = false := decide_eq_false (not_le.mpr hdeadline)
  unfold Exec.escalate recording beside pouring
  simp [hlate, hterm]

/-- One pass of the drain loop is followed by the rest of the loop. -/
theorem drainLoop_pass {W : Type} (sys : Exec.Sys W) (deadline : ℤ) (cap : ℕ) (cancel : Bool) (fuel : ℕ)
    (w w' : W) (d d' : Exec.Drain) (hopen : (d.outOpen || d.errOpen) = true)
    (hpass : Exec.drainPass sys deadline cap cancel w d = (w', d', true)) :
    Exec.drainLoop sys deadline cap cancel (fuel + 1) w d =
      Exec.drainLoop sys deadline cap cancel fuel w' d' := by
  rw [Exec.drainLoop, if_pos hopen]
  rw [hpass]

/-- The first pass reads the output and finds the other pipe closed. -/
theorem drainPass_pouring (b : UInt8) (bs : Bytes) (cap : ℕ) (deadline : ℤ) (hdeadline : 0 < deadline) :
    Exec.drainPass (recording (pouring b bs)) deadline cap false (false, Record.empty) Exec.Drain.init =
      ((true, Record.empty.read .out (.data b bs)), { poured cap b bs with outOpen := true }, true) :=
  escalate_pouring b bs deadline _ _ hdeadline rfl

/-- The second pass finds the end of the output. -/
theorem drainPass_poured (b : UInt8) (bs : Bytes) (cap : ℕ) (deadline : ℤ) (r : Record)
    (hdeadline : 0 < deadline) :
    Exec.drainPass (recording (pouring b bs)) deadline cap false (true, r)
        { poured cap b bs with outOpen := true } =
      ((true, r), poured cap b bs, true) :=
  escalate_pouring b bs deadline _ _ hdeadline rfl

/-- A run of the pouring child reads its text and ends. -/
theorem pouring_ran (b : UInt8) (bs : Bytes) (call : ShellCall) :
    Exec.runShell (recording (pouring b bs)) call.script call.timeoutSeconds call.workingDir
        call.maxCaptureBytes false 2 (false, Record.empty) =
      some ((true, Record.empty.read .out (.data b bs)),
        Exec.conclude (poured call.maxCaptureBytes b bs) (.exited 0)) := by
  have hdeadline : 0 < 0 + Exec.effectiveTimeout call.timeoutSeconds * 1000 := by
    have hpositive : 0 < Exec.effectiveTimeout call.timeoutSeconds := by
      unfold Exec.effectiveTimeout Exec.kDefaultTimeoutSeconds
      split_ifs <;> omega
    omega
  have hloop : Exec.drainLoop (recording (pouring b bs))
      (0 + Exec.effectiveTimeout call.timeoutSeconds * 1000) call.maxCaptureBytes false 2
      (false, Record.empty) Exec.Drain.init =
        some ((true, Record.empty.read .out (.data b bs)), poured call.maxCaptureBytes b bs) := by
    rw [drainLoop_pass _ _ _ _ _ _ _ _ _ rfl (drainPass_pouring b bs _ _ hdeadline),
      drainLoop_pass _ _ _ _ _ _ _ _ _ rfl (drainPass_poured b bs _ _ _ hdeadline)]
    rfl
  rw [runShell_eq]
  show afterSpawn (recording (pouring b bs)) call.timeoutSeconds call.maxCaptureBytes false 2
    (false, Record.empty) = _
  unfold afterSpawn
  show Option.bind (Exec.drainLoop (recording (pouring b bs))
    (0 + Exec.effectiveTimeout call.timeoutSeconds * 1000) _ false 2 (false, Record.empty) _) _ = _
  rw [hloop]
  rfl

/-- A call whose child writes its output in one piece. -/
def pouringCall (b : UInt8) (bs : Bytes) (call : ShellCall) : CallRun call where
  W := Bool
  sys := pouring b bs
  cancel := false
  fuel := 2
  before := false
  after := true
  read := Record.empty.read .out (.data b bs)
  outcome := Exec.conclude (poured call.maxCaptureBytes b bs) (.exited 0)
  ran := pouring_ran b bs call

/-- The output is UTF-8 text. -/
def pouringRun (b : UInt8) (bs : Bytes) (h : Utf8 (b :: bs)) (call : ShellCall) : ShellRun call where
  toCallRun := pouringCall b bs call
  text := Record.empty.read .out (.data b bs)
  textUtf8 s := by
    cases s with
    | out => exact h
    | err => exact utf8_nil
  reads s := List.prefix_refl _

/-- 2476 letters, a character of two bytes, and 30 letters. -/
def longText : Bytes := List.replicate 2476 97 ++ ([0xC3, 0xA9] ++ List.replicate 30 98)

/-- The long text is UTF-8. -/
theorem longText_utf8 : Utf8 longText := by
  have hletters (n : ℕ) (b : UInt8) (hb : b < 0x80) : Utf8 (List.replicate n b) :=
    utf8_ascii _ (ascii_replicate n b hb)
  have hchar : Utf8 [0xC3, 0xA9] := ⟨['é'], by decide⟩
  exact (hletters 2476 97 (by decide)).append (hchar.append (hletters 30 98 (by decide)))

/-- The long text begins with a letter. -/
theorem longText_cons : longText = 97 :: longText.tail := by
  unfold longText
  rw [List.replicate_succ]
  rfl

/-- Every call writes the long text. -/
def longMachine : Machine where
  nowMs _ := 0
  run _ call := pouringRun 97 longText.tail (longText_cons ▸ longText_utf8) call

def echoStep : Step :=
  { pluginId := kRunShellScript
    action := kRunShellScript
    inputs := .obj [(lit "runCommand", .arr [.string (lit "x")])]
    precondition := .null }

/-- A document of one step. -/
def echoDocument : Value :=
  .obj [(lit "mainSteps", .arr
    [.obj [(lit "action", .string kRunShellScript),
      (lit "inputs", .obj [(lit "runCommand", .arr [.string (lit "x")])])]])]

def longTranscript : Transcript :=
  { text := Record.empty.read .out (.data 97 longText.tail)
    size := fun s => (Record.empty.read .out (.data 97 longText.tail) s).length
    error := []
    cancelled := false }

/-- The long text is longer than a plugin's output may be. -/
theorem longText_length : longText.length = 2508 := by
  unfold longText
  rw [List.length_append, List.length_append, List.length_replicate, List.length_replicate]
  rfl

/-- The long text is within the capture limit and shown whole. -/
theorem longTranscript_standardOutput : longTranscript.standardOutput = longText := by
  have htext : longTranscript.text .out = longText := longText_cons.symm
  have hsize : longTranscript.size .out = longText.length := congrArg List.length htext
  unfold Transcript.standardOutput Transcript.shown
  rw [htext, hsize, longText_length, List.take_of_length_le]
  rw [longText_length]
  decide

/-- The last byte that is kept is the first of the character. -/
theorem longTranscript_kept :
    longTranscript.standardOutput[(kept longTranscript.standardOutput.length
      longTranscript.standardError.length).1]? = some 0xA9 := by
  have hkept : kept 2508 0 = (2477, 0) := by decide
  have herror : longTranscript.standardError = [] := rfl
  rw [longTranscript_standardOutput, longText_length, herror, List.length_nil, hkept]
  unfold longText
  rw [List.getElem?_append_right (by rw [List.length_replicate]; decide), List.length_replicate]
  rfl

/-- The reply is cut at byte 2477, inside the character. -/
theorem long_reply_not_utf8 :
    let outcome := (runDocument (fun _ => (.nan, 0)) longMachine.host 0 echoDocument .null Log.empty).1
    ¬Utf8 (replyPayload ⟨[], [], [], [], []⟩ outcome.status outcome.trace outcome.steps 0) := by
  obtain ⟨hsteps, hstatus, htrace⟩ :=
    runDocument_shown (fun _ => (.nan, 0)) longMachine 0 echoDocument .null Log.empty
  intro outcome hreply
  obtain ⟨-, hreadable⟩ := (utf8_replyPayload_iff _ _ _ _ _ _ hstatus htrace hsteps).mp hreply
  have hattempts : documentAttempts (fun _ => (.nan, 0)) longMachine 0 echoDocument .null Log.empty =
      [(echoStep, some longTranscript)] := by
    have hdocument : documentSteps echoDocument = [echoStep] := by rfl
    obtain ⟨call, hcall⟩ : ∃ call,
        shellCall (fun _ => (.nan, 0)) 0 .null ((echoDocument.find (lit "parameters")).getD .null)
          echoStep = some call := by
      unfold shellCall
      dsimp only
      rw [if_neg (by decide), if_neg (by decide), if_neg (by decide)]
      exact ⟨_, rfl⟩
    unfold documentAttempts attempts
    rw [hdocument]
    dsimp only
    rw [hcall]
    rfl
  rw [hattempts] at hreadable
  have hstep := hreadable (echoStep, some longTranscript) ⟨[], [], rfl, fun _ h => absurd h List.not_mem_nil⟩
  have huncut := hstep.output _ rfl
  have hcut : isContinuation 0xA9 = false := huncut.keptOut 0xA9 longTranscript_kept
  exact absurd hcut (by decide)

end HaikuAgent.Analysis.ReplyEncoding
