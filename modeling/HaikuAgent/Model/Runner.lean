import HaikuAgent.Model.Exec
import HaikuAgent.Model.Json
import HaikuAgent.Model.Time

/-!
# Running a document (`runner.cpp`)

Placeholder resolution, the steps of a document, their results and the reply
payload. The machine a document runs on is a `Host`: what the n-th clock reading
gives, and what the n-th call of `exec::run_shell` returns. `Log` counts the
readings and keeps the calls, so a result about the log is one about what the
shell was given.
-/

set_option autoImplicit false

namespace HaikuAgent.Model.Runner

open HaikuAgent.Foundation
open HaikuAgent.Model.Json

/-- SRC: runner.cpp:16-21 -/
def kMaxPluginOutputSize : ℕ := 2500
def kMaxStdoutLength : ℕ := 24000
def kErrTitle : Bytes := lit "\n----------ERROR-------\n"
def kTruncateOut : Bytes := lit "\n---Output truncated---"
def kTruncateError : Bytes := lit "\n---Error truncated----"
def kRunShellScript : Bytes := lit "aws:runShellScript"

/-- SRC: runner.h:19-25 -/
structure AgentInfo where
  name : Bytes
  version : Bytes
  lang : Bytes
  os : Bytes
  osVer : Bytes

/-- SRC: runner.h:27-45 -/
structure StepResult where
  pluginId : Bytes
  action : Bytes
  status : Bytes
  code : ℤ
  output : Bytes
  standardOutput : Bytes
  standardError : Bytes
  fullStdout : Bytes
  fullStderr : Bytes
  outputS3Bucket : Bytes
  outputS3KeyPrefix : Bytes
  startTime : Bytes
  endTime : Bytes
  deriving DecidableEq

/-- The member initialisers of `StepResult`. -/
def StepResult.init : StepResult :=
  { pluginId := []
    action := []
    status := []
    code := 0
    output := []
    standardOutput := []
    standardError := []
    fullStdout := []
    fullStderr := []
    outputS3Bucket := []
    outputS3KeyPrefix := []
    startTime := []
    endTime := [] }

/-- SRC: runner.h:47-51 -/
structure DocumentOutcome where
  status : Bytes
  steps : List StepResult
  trace : Bytes
  deriving DecidableEq

/-! ## The host -/

/-- The arguments of one call of `exec::run_shell`, its cancel token apart. -/
structure ShellCall where
  script : Bytes
  timeoutSeconds : ℤ
  workingDir : Bytes
  maxCaptureBytes : ℕ
  deriving DecidableEq

/-- What the clock and the shell answer, by the number of the reading or call. -/
structure Host where
  nowMs : ℕ → ℤ
  shell : ℕ → ShellCall → Exec.Result

/-- How often the clock was read, and the shell calls so far. -/
structure Log where
  readings : ℕ
  calls : List ShellCall
  deriving DecidableEq

def Log.empty : Log := ⟨0, []⟩

/-- `util::now_epoch_ms()`. -/
def Host.now (host : Host) (log : Log) : ℤ × Log :=
  (host.nowMs log.readings, { log with readings := log.readings + 1 })

/-- `exec::run_shell(...)`. -/
def Host.runShell (host : Host) (log : Log) (call : ShellCall) : Exec.Result × Log :=
  (host.shell log.calls.length call, { log with calls := log.calls ++ [call] })

/-! ## Placeholders -/

/-- What a placeholder naming `v` is replaced by inside a string.
SRC: runner.cpp:44-52 -/
def scalarText (v : Value) : Bytes :=
  match v with
  | .arr elems => join (elems.map (Value.str [])) (lit "\n")
  | v => v.str (if v.isNumber then dump v else [])

/-- `substitute_scalar` from position `i` on. Every round moves past a `}}`, so
`in.size()` rounds are enough.
SRC: runner.cpp:24-57 -/
def substituteFrom (input : Bytes) (params : List (Bytes × Value)) : ℕ → ℕ → Bytes
  | 0, _ => []
  | rounds + 1, i =>
    if i < input.length then
      match find input (lit "\x7b\x7b") i with
      | none => input.drop i
      | some openAt =>
        match find input (lit "\x7d\x7d") openAt with
        | none => input.drop i
        | some closeAt =>
          let key := trim (slice input (openAt + 2) (closeAt - openAt - 2))
          slice input i (openAt - i) ++
            (match findEntry params key with
             | none => slice input openAt (closeAt + 2 - openAt)
             | some v => scalarText v) ++
            substituteFrom input params rounds (closeAt + 2)
    else []

/-- SRC: runner.cpp:24-57 -/
def substituteScalar (input : Bytes) (params : List (Bytes × Value)) : Bytes :=
  substituteFrom input params input.length 0

/-- SRC: runner.cpp:60-72 -/
def parameterTable (parameters docParameters : Value) : List (Bytes × Value) :=
  let table := match docParameters with
    | .obj entries => entries.foldl (fun table kv =>
        match kv.2.find (lit "default") with
        | some d => setEntry table kv.1 d
        | none => table) []
    | _ => []
  match parameters with
  | .obj entries => entries.foldl (fun table kv => setEntry table kv.1 kv.2) table
  | _ => table

/-- The list named by a string that is exactly one placeholder.
SRC: runner.cpp:173-178 -/
def wholeList (table : List (Bytes × Value)) (input : Bytes) : Option (List Value) :=
  let s := trim input
  if 4 < s.length ∧ startsWith s (lit "\x7b\x7b") ∧
      rfind s (lit "\x7d\x7d") = some (s.length - 2) then
    match findEntry table (trim (slice s 2 (s.length - 4))) with
    | some (.arr elems) => some elems
    | _ => none
  else none

mutual

/-- The recursive walk of `resolve`.
SRC: runner.cpp:171-195 -/
def walk (table : List (Bytes × Value)) : Value → Value
  | .string s =>
    match wholeList table s with
    | some elems => .arr elems
    | none => .string (substituteScalar s table)
  | .arr elems => .arr (walkElems table elems)
  | .obj entries => .obj (walkEntries table entries)
  | .null => .null
  | .bool b => .bool b
  | .number n integral => .number n integral

def walkElems (table : List (Bytes × Value)) : List Value → List Value
  | [] => []
  | v :: rest => walk table v :: walkElems table rest

def walkEntries (table : List (Bytes × Value)) : List (Bytes × Value) → List (Bytes × Value)
  | [] => []
  | (key, v) :: rest => (key, walk table v) :: walkEntries table rest

end

/-- SRC: runner.cpp:165-197 -/
def resolve (node parameters docParameters : Value) : Value :=
  walk (parameterTable parameters docParameters) node

/-! ## Steps -/

/-- SRC: runner.cpp:75-84 -/
def commandLines (inputs : Value) : List Bytes :=
  match inputs.find (lit "runCommand") with
  | some (.arr elems) => elems.map (Value.str [])
  | some (.string s) => [s]
  | _ => []

/-- SRC: runner.cpp:91-101 -/
def preconditionExcludesStep (precondition : Value) : Bool :=
  match precondition with
  | .obj _ =>
    match precondition.find (lit "StringEquals") with
    | some (.arr [first, second]) =>
      let var := lower (trim (first.str []))
      let val := lower (trim (second.str []))
      let (var, val) := if val = lit "platformtype" then (val, var) else (var, val)
      if var ≠ lit "platformtype" ∧ var ≠ lit "\x7b\x7bplatformtype\x7d\x7d" ∧
          var ≠ lit "\x7b\x7b platformtype \x7d\x7d" then false
      else val ≠ lit "linux"
    | _ => false
  | _ => false

/-- SRC: runner.cpp:103-116 -/
def skipped (pluginId action startTime endTime : Bytes) : StepResult :=
  let output := lit ("Step execution skipped due to unsatisfied preconditions: " ++
    "'\"StringEquals\": [platformType, Linux]'.")
  { StepResult.init with
    pluginId, action, startTime, endTime, output
    status := lit "Skipped"
    standardOutput := output }

/-- SRC: runner.cpp:118-135 -/
def unsupported (pluginId action startTime endTime : Bytes) : StepResult :=
  let text := lit "plugin '" ++ action ++
    lit "' is not supported on Haiku. haiku-mgmt-agent implements " ++ kRunShellScript ++
    lit (" only (see BRIEF.md section 2: Session Manager, inventory and self-update are out of " ++
      "scope).")
  { StepResult.init with
    pluginId, action, startTime, endTime
    status := lit "Failed"
    code := 1
    standardError := text
    output := text }

/-- SRC: runner.cpp:139-163 -/
def truncateOutput (stdoutData stderrData : Bytes) (capacity : ℕ) : Bytes :=
  let errTitle := if 0 < stderrData.length then kErrTitle else []
  let available := if errTitle.length < capacity then capacity - errTitle.length else 0
  if stdoutData.length + stderrData.length < available then stdoutData ++ errTitle ++ stderrData
  else
    let half := available / 2
    if half < stdoutData.length ∧ half < stderrData.length then
      let truncateSize := sizeSub (sizeSub available kTruncateError.length) kTruncateOut.length
      stdoutData.take (truncateSize / 2) ++ kTruncateOut ++ errTitle ++
        stderrData.take (truncateSize / 2) ++ kTruncateError
    else if stdoutData.length ≤ half then
      let truncateSize := sizeSub available kTruncateError.length
      let keep := if stdoutData.length < truncateSize then truncateSize - stdoutData.length else 0
      stdoutData ++ errTitle ++ stderrData.take (min keep stderrData.length) ++ kTruncateError
    else
      let truncateSize := sizeSub available kTruncateOut.length
      let keep := if stderrData.length < truncateSize then truncateSize - stderrData.length else 0
      stdoutData.take (min keep stdoutData.length) ++ kTruncateOut ++ errTitle ++ stderrData

/-- SRC: runner.cpp:208-213 -/
structure Step where
  pluginId : Bytes
  action : Bytes
  inputs : Value
  precondition : Value

/-- The step list: `mainSteps`, or the `runtimeConfig` of schema 1.2.
SRC: runner.cpp:214-243 -/
def documentSteps (document : Value) : List Step :=
  match document.find (lit "mainSteps") with
  | some (.arr elems) => elems.map fun s =>
    let action := s.strAt (lit "action") []
    { pluginId := s.strAt (lit "name") action
      action
      inputs := (s.find (lit "inputs")).getD .null
      precondition := (s.find (lit "precondition")).getD .null }
  | _ =>
    match document.find (lit "runtimeConfig") with
    | some (.obj entries) => entries.map fun (name, config) =>
      { pluginId := name
        action := name
        inputs := match config.find (lit "properties") with
          | some (.arr (first :: _)) => first
          | some props => props
          | none => .null
        precondition := .null }
    | _ => []

/-- The result of a step whose `run_shell` returned `er`.
SRC: runner.cpp:292-320 -/
def shellResult (st : Step) (startTime endTime : Bytes) (er : Exec.Result) : StepResult :=
  let standardOutput := clip er.stdoutData kMaxStdoutLength []
  let standardError := clip er.stderrData kMaxStdoutLength []
  let nonzero := if er.exitCode = 0 then 1 else er.exitCode
  let (status, code, standardError) :=
    if er.cancelled then (lit "Cancelled", nonzero, standardError)
    else if er.error ≠ [] then
      (lit "Failed", nonzero,
        standardError ++ (if standardError = [] then [] else lit "\n") ++ er.error)
    else if er.timedOut then (lit "TimedOut", nonzero, standardError)
    else (if er.exitCode = 0 then lit "Success" else lit "Failed", er.exitCode, standardError)
  { StepResult.init with
    pluginId := st.pluginId
    action := st.action
    status, code, startTime, endTime, standardOutput, standardError
    fullStdout := er.stdoutData
    fullStderr := er.stderrData
    output := truncateOutput standardOutput standardError kMaxPluginOutputSize }

/-- The step whose commands resolve to nothing.
SRC: runner.cpp:271-282 -/
def noCommands (st : Step) (startTime endTime : Bytes) : StepResult :=
  let text := lit "no commands to run (runCommand resolved to empty)"
  { StepResult.init with
    pluginId := st.pluginId
    action := st.action
    status := lit "Failed"
    code := 1
    startTime, endTime
    standardError := text
    output := text }

/-- What a step does to the status of the document.
SRC: runner.cpp:321-324 -/
def combineStatus (document step : Bytes) : Bytes :=
  if step = lit "Cancelled" then lit "Cancelled"
  else if step ≠ lit "Success" ∧ document ≠ lit "Cancelled" then lit "Failed"
  else document

/-- What one round of the loop over the steps leaves: the step's result, the document
status, whether the loop stops there, and the log. -/
structure Round where
  result : StepResult
  status : Bytes
  stop : Bool
  log : Log

variable (strtod : Bytes → Double × ℕ) (host : Host)

/-- One round of the loop over the steps.
SRC: runner.cpp:252-335 -/
def runStep (maxCapture : ℕ) (parameters docParameters : Value) (st : Step) (status : Bytes)
    (log : Log) : Round :=
  let (started, log) := host.now log
  let startTime := Time.iso8601 started
  if preconditionExcludesStep st.precondition then
    let (ended, log) := host.now log
    { result := skipped st.pluginId st.action startTime (Time.iso8601 ended)
      status
      stop := false
      log }
  else if st.action ≠ kRunShellScript then
    let (ended, log) := host.now log
    { result := unsupported st.pluginId st.action startTime (Time.iso8601 ended)
      status := lit "Failed"
      stop := false
      log }
  else
    let inputs := resolve st.inputs parameters docParameters
    let script := join (commandLines inputs) (lit "\n")
    if trim script = [] then
      let (ended, log) := host.now log
      { result := noCommands st startTime (Time.iso8601 ended)
        status := lit "Failed"
        stop := false
        log }
    else
      let timeout := (inputs.numAt strtod (lit "timeoutSeconds") (.finite 3600)).toIntBounded
        (-2147483648) 2147483647
      let (er, log) := host.runShell log
        { script
          timeoutSeconds := timeout
          workingDir := inputs.strAt (lit "workingDirectory") []
          maxCaptureBytes := max maxCapture kMaxStdoutLength }
      let (ended, log) := host.now log
      let sr := shellResult st startTime (Time.iso8601 ended) er
      { result := sr
        status := combineStatus status sr.status
        stop := er.cancelled
        log }

/-- The loop over the steps.
SRC: runner.cpp:252-340 -/
def runSteps (maxCapture : ℕ) (parameters docParameters : Value) :
    List Step → Bytes → Log → DocumentOutcome × Log
  | [], status, log => (⟨status, [], []⟩, log)
  | st :: rest, status, log =>
    let round := runStep strtod host maxCapture parameters docParameters st status log
    if round.stop then (⟨round.status, [round.result], []⟩, round.log)
    else
      let (outcome, log) := runSteps maxCapture parameters docParameters rest round.status round.log
      ({ outcome with steps := round.result :: outcome.steps }, log)

/-- `run_document`.
SRC: runner.cpp:199-343 -/
def runDocument (maxCapture : ℕ) (document parameters : Value) (log : Log) : DocumentOutcome × Log :=
  match documentSteps document with
  | [] =>
    (⟨lit "Failed", [],
      lit "document contains no runnable steps (no mainSteps or runtimeConfig)"⟩, log)
  | steps =>
    runSteps strtod host maxCapture parameters ((document.find (lit "parameters")).getD .null) steps
      (lit "Success") log

/-! ## The reply -/

/-- `counts.object[s.status] = prev + 1`, over the steps.
SRC: runner.cpp:356-361 -/
def statusCounts (steps : List StepResult) : List (Bytes × ℤ) :=
  steps.foldl (fun counts s =>
    setEntry counts s.status ((findEntry counts s.status).getD 0 + 1)) []

/-- SRC: runner.cpp:371-383 -/
def stepStatus (s : StepResult) : Value :=
  objOf
    [(lit "status", .string s.status),
     (lit "code", intNumber s.code),
     (lit "name", .string s.action),
     (lit "output", .string s.output),
     (lit "startDateTime", .string s.startTime),
     (lit "endDateTime", .string s.endTime),
     (lit "outputS3BucketName", .string s.outputS3Bucket),
     (lit "outputS3KeyPrefix", .string s.outputS3KeyPrefix),
     (lit "stepName", .string s.pluginId),
     (lit "standardOutput", .string s.standardOutput),
     (lit "standardError", .string s.standardError)]

/-- The payload of a reply, at the clock reading `nowMs`.
SRC: runner.cpp:345-389 -/
def replyValue (agent : AgentInfo) (documentStatus trace : Bytes) (steps : List StepResult)
    (nowMs : ℤ) : Value :=
  let agentObj := objOf
    [(lit "lang", .string agent.lang),
     (lit "name", .string agent.name),
     (lit "os", .string agent.os),
     (lit "osver", .string agent.osVer),
     (lit "ver", .string agent.version)]
  let counts := Value.obj ((statusCounts steps).map fun (status, n) => (status, intNumber n))
  let additional := objOf
    [(lit "agent", agentObj),
     (lit "dateTime", .string (Time.iso8601 nowMs)),
     (lit "runId", .string (Time.isoDash nowMs)),
     (lit "runtimeStatusCounts", counts)]
  let runtime := objOf (steps.map fun s => (s.pluginId, stepStatus s))
  objOf
    [(lit "additionalInfo", additional),
     (lit "documentStatus", .string documentStatus),
     (lit "documentTraceOutput", .string trace),
     (lit "runtimeStatus", runtime)]

/-- `reply_payload`.
SRC: runner.cpp:345-391 -/
def replyPayload (agent : AgentInfo) (documentStatus trace : Bytes) (steps : List StepResult)
    (nowMs : ℤ) : Bytes :=
  dump (replyValue agent documentStatus trace steps nowMs)

end HaikuAgent.Model.Runner
