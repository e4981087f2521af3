import HaikuAgent.Model.Http
import HaikuAgent.Model.Runner

/-!
# Patch Manager on pkgman (`patch.cpp`)

`runBaseline` in the stages of `patch::run_baseline`, each a function on `Run`, the
local variables of the source. `out` and `errout` are kept as the list of the
strings appended to them. The shell and the clock are the `Host`; `credentials`
says whether `creds->get` succeeds and `put` is the answer to `aws::put_inventory`.
-/

set_option autoImplicit false

namespace HaikuAgent.Model.Patch

open HaikuAgent.Foundation
open HaikuAgent.Model.Json
open HaikuAgent.Model.Runner

/-- SRC: patch.cpp:17-23 -/
def kMaxComplianceRows : ℕ := 1000
def kRefreshTimeoutSeconds : ℤ := 300
def kScanTimeoutSeconds : ℤ := 600
def kInstallTimeoutSeconds : ℤ := 3300

/-- SRC: patch.h:36-41 -/
structure Update where
  kind : Bytes
  name : Bytes
  fromVersion : Bytes
  toVersion : Bytes
  deriving DecidableEq

/-- SRC: patch.h:55-60 -/
structure Params where
  operation : Bytes
  rebootOption : Bytes
  snapshotId : Bytes
  error : Bytes
  deriving DecidableEq

/-- SRC: patch.h:64-75 -/
structure Report where
  operation : Bytes
  operationStart : Bytes
  operationEnd : Bytes
  snapshotId : Bytes
  executionId : Bytes
  rebootOption : Bytes
  installedCount : ℤ
  missing : List Update
  installed : List Update
  pendingReboot : Bool

/-- SRC: patch.cpp:27-29 -/
def needsReboot (packageName : Bytes) : Bool :=
  packageName = lit "haiku" ∨ packageName = lit "haiku_loader"

/-- SRC: patch.cpp:31-36 -/
def paramStr (parameters : Value) (key : Bytes) : Bytes :=
  match parameters.find key with
  | none => []
  | some (.arr []) => []
  | some (.arr (first :: _)) => first.str []
  | some v => v.str []

/-- SRC: patch.cpp:38-46 -/
def listUpdates (updates : List Update) : Bytes :=
  updates.flatMap fun u =>
    lit "  " ++ u.name ++ lit ": " ++
      (if u.fromVersion = [] then [] else u.fromVersion ++ lit " -> ") ++ u.toVersion ++ lit "\n"

/-- SRC: patch.cpp:48-58 -/
def complianceRow (u : Update) (state installedTime : Bytes) : Value :=
  objOf
    [(lit "Title", .string (u.name ++ lit "-" ++ u.toVersion)),
     (lit "KBId", .string u.name),
     (lit "Classification", .string []),
     (lit "Severity", .string []),
     (lit "State", .string state),
     (lit "InstalledTime", .string installedTime)]

/-- SRC: patch.cpp:62-67 -/
def isPatchDocument (documentName : Bytes) : Bool :=
  documentName = lit "AWS-RunPatchBaseline" ∨ documentName = lit "AWS-RunPatchBaselineAssociation"

/-- SRC: patch.cpp:69-80 -/
def splitNameVersion (s : Bytes) : Bytes × Bytes :=
  match find s (lit "-") 0 with
  | none => (s, [])
  | some dash => (s.take dash, s.drop (dash + 1))

/-- One line of `parse_pkgman_transaction`, trimmed.
SRC: patch.cpp:85-119 -/
def parseTransactionLine (line : Bytes) : Option Update :=
  match [lit "upgrade", lit "install", lit "downgrade"].find? fun k =>
      startsWith line (k ++ lit " package ") with
  | none => none
  | some kind =>
    let line := line.drop (kind ++ lit " package ").length
    let line := match find line (lit " from repository ") 0 with
      | some repo => line.take repo
      | none => line
    let line := trim line
    let separator := match find line (lit " to version ") 0 with
      | some pos => some (pos, 12)
      | none => (find line (lit " to ") 0).map fun pos => (pos, 4)
    let u : Update := match separator with
      | none =>
        let (name, version) := splitNameVersion line
        { kind, name, fromVersion := [], toVersion := version }
      | some (pos, len) =>
        let (name, version) := splitNameVersion (trim (line.take pos))
        let target := trim (line.drop (pos + len))
        { kind
          name
          fromVersion := version
          toVersion := if startsWith target (name ++ lit "-") then target.drop (name.length + 1)
            else target }
    if u.name = [] then none else some u

/-- SRC: patch.cpp:82-122 -/
def parsePkgmanTransaction (pkgmanOutput : Bytes) : List Update :=
  (split pkgmanOutput 10).filterMap fun line => parseTransactionLine (trim line)

/-- SRC: patch.cpp:124-140 -/
def parseParams (parameters : Value) : Params :=
  let op := lower (trim (paramStr parameters (lit "Operation")))
  if op = lit "scan" ∨ op = lit "install" then
    let reboot := lower (trim (paramStr parameters (lit "RebootOption")))
    { operation := if op = lit "scan" then lit "Scan" else lit "Install"
      rebootOption := if reboot = lit "noreboot" then lit "NoReboot" else lit "RebootIfNeeded"
      snapshotId := paramStr parameters (lit "SnapshotId")
      error := [] }
  else
    { operation := []
      rebootOption := []
      snapshotId := []
      error := lit "Operation must be Scan or Install (got '" ++
        paramStr parameters (lit "Operation") ++ lit "')" }

/-- SRC: patch.cpp:142-198 -/
def inventoryItems (r : Report) (captureTime : Bytes) : Value :=
  let pending := r.installed.countP fun u => needsReboot u.name
  let summary := objOf
    [(lit "BaselineId", .string (lit "haiku-pkgman")),
     (lit "SnapshotId", .string r.snapshotId),
     (lit "PatchGroup", .string []),
     (lit "InstalledCount", .string (toStringInt r.installedCount)),
     (lit "InstalledOtherCount", .string (lit "0")),
     (lit "InstalledPendingRebootCount", .string (toStringNat pending)),
     (lit "InstalledRejectedCount", .string (lit "0")),
     (lit "NotApplicableCount", .string (lit "0")),
     (lit "MissingCount", .string (toStringNat r.missing.length)),
     (lit "FailedCount", .string (lit "0")),
     (lit "OperationType", .string r.operation),
     (lit "OperationStartTime", .string r.operationStart),
     (lit "OperationEndTime", .string r.operationEnd),
     (lit "RebootOption", .string r.rebootOption),
     (lit "ExecutionId", .string r.executionId)]
  let summaryItem := objOf
    [(lit "TypeName", .string (lit "AWS:PatchSummary")),
     (lit "SchemaVersion", .string (lit "1.0")),
     (lit "CaptureTime", .string captureTime),
     (lit "Content", .arr [summary])]
  let rows :=
    (r.installed.map fun u => complianceRow u
      (if needsReboot u.name then lit "InstalledPendingReboot" else lit "Installed") captureTime) ++
    r.missing.map fun u => complianceRow u (lit "Missing") []
  let complianceItem := objOf
    [(lit "TypeName", .string (lit "AWS:PatchCompliance")),
     (lit "SchemaVersion", .string (lit "1.0")),
     (lit "CaptureTime", .string captureTime),
     (lit "Content", .arr (rows.take kMaxComplianceRows))]
  .arr [summaryItem, complianceItem]

/-! ## The run -/

/-- The members of `Context` the run depends on, and what the services answer.
SRC: patch.h:82-89 -/
structure Context where
  commandId : Bytes
  reportInventory : Bool
  credentials : Bool
  put : Value → Http.Response

/-- The local variables of `run_baseline`; `inventory` is what was sent to `PutInventory`. -/
structure Run where
  out : List Bytes
  errout : List Bytes
  failed : Bool
  cancelled : Bool
  rep : Report
  inventory : Option Value
  log : Log

variable (host : Host)

/-- The lambda `sh`.
SRC: patch.cpp:212-216 -/
def sh (script : Bytes) (timeout : ℤ) (run : Run) : Exec.Result × Run :=
  let (r, log) := host.runShell run.log
    { script
      timeoutSeconds := timeout
      workingDir := []
      maxCaptureBytes := kMaxStdoutLength }
  (r, { run with log, cancelled := run.cancelled || r.cancelled })

def refreshScript : Bytes := lit "pkgman refresh"
def listScript : Bytes := lit "echo n | pkgman update"
def installScript : Bytes := lit "pkgman update -y"
def countScript : Bytes := lit "ls -1 /system/packages 2>/dev/null | grep -c '\\.hpkg$'"

def upToDate : Bytes := lit "no updates available; system is up to date\n"

/-- SRC: patch.h:64-75, patch.cpp:208-210 -/
def Run.init (log : Log) : Run :=
  { out := []
    errout := []
    failed := false
    cancelled := false
    rep :=
      { operation := []
        operationStart := []
        operationEnd := []
        snapshotId := []
        executionId := []
        rebootOption := []
        installedCount := 0
        missing := []
        installed := []
        pendingReboot := false }
    inventory := none
    log }

/-- SRC: patch.cpp:223-231 -/
def start (ctx : Context) (p : Params) (run : Run) : Run :=
  let (now, log) := host.now run.log
  { run with
    out := run.out ++ [lit "Haiku patch baseline via pkgman: operation=" ++ p.operation ++
      lit " reboot-option=" ++ p.rebootOption ++ lit "\n"]
    rep := { run.rep with
      operation := p.operation
      operationStart := Time.iso8601Seconds (now / 1000)
      snapshotId := p.snapshotId
      executionId := ctx.commandId
      rebootOption := p.rebootOption }
    log }

/-- SRC: patch.cpp:234-245 -/
def refresh (run : Run) : Run :=
  let (r, run) := sh host refreshScript kRefreshTimeoutSeconds run
  if run.cancelled then run
  else if r.exitCode = 0 then { run with out := run.out ++ [lit "repositories refreshed\n"] }
  else
    { run with errout := run.errout ++
        [lit "warning: pkgman refresh failed (exit " ++ toStringInt r.exitCode ++ lit "): " ++
          clip (trim r.stderrData) 300 (lit "...") ++
          lit "; scanning against cached repository data\n"] }

/-- What a dry run's output lists. -/
def listed (r : Exec.Result) : List Update :=
  parsePkgmanTransaction (r.stdoutData ++ lit "\n" ++ r.stderrData)

/-- The dry run, and the updates it lists.
SRC: patch.cpp:247-258 -/
def listAvailable (run : Run) : List Update × Run :=
  if run.cancelled then ([], run)
  else
    let (r, run) := sh host listScript kScanTimeoutSeconds run
    if run.cancelled then ([], run)
    else if r.error ≠ [] then
      ([], { run with
        failed := true
        errout := run.errout ++ [lit "could not list available updates: " ++ r.error ++ lit "\n"] })
    else (listed r, run)

/-- What the result `r` of the install means.
SRC: patch.cpp:265-274 -/
def noteInstall (available : List Update) (r : Exec.Result) (run : Run) : Run :=
  if r.exitCode = 0 then
    { run with
      rep := { run.rep with installed := available }
      out := run.out ++ [lit "installed " ++ (toStringNat available.length ++ lit " update(s)\n")] }
  else
    { run with
      failed := true
      errout := run.errout ++
        [lit "pkgman update failed (exit " ++ toStringInt r.exitCode ++ lit "): " ++
          clip (trim (r.stdoutData ++ r.stderrData)) 800 (lit "...") ++ lit "\n"] }

/-- The second dry run.
SRC: patch.cpp:275-278 -/
def rescan (run : Run) : Run :=
  let (r2, run) := sh host listScript kScanTimeoutSeconds run
  if run.cancelled then run else { run with rep := { run.rep with missing := listed r2 } }

/-- SRC: patch.cpp:261-279 -/
def install (available : List Update) (run : Run) : Run :=
  let (r, run) := sh host installScript kInstallTimeoutSeconds
    { run with
      out := run.out ++ [toStringNat available.length ++ (lit " update(s) to install:\n" ++
        listUpdates available)] }
  if run.cancelled then run else rescan host (noteInstall available r run)

/-- SRC: patch.cpp:281-287 -/
def reportAvailable (available : List Update) (run : Run) : Run :=
  { run with
    rep := { run.rep with missing := available }
    out := run.out ++
      [if available = [] then upToDate
       else toStringNat available.length ++ (lit " update(s) available (Missing):\n" ++
         listUpdates available)] }

/-- SRC: patch.cpp:260-288 -/
def apply (operation : Bytes) (available : List Update) (run : Run) : Run :=
  if run.cancelled || run.failed then run
  else if operation = lit "Install" ∧ available ≠ [] then install host available run
  else reportAvailable available run

/-- SRC: patch.cpp:290-298 -/
def noteReboot (run : Run) : Run :=
  if run.rep.installed.any fun u => needsReboot u.name then
    { run with
      rep := { run.rep with pendingReboot := true }
      errout := run.errout ++
        [lit ("note: a haiku system package was updated; it takes effect on the next " ++
          "reboot (reported as InstalledPendingReboot; the agent does not reboot " ++
          "the instance)\n")] }
  else run

/-- SRC: patch.cpp:300-304 -/
def countInstalled (run : Run) : Run :=
  if run.cancelled then run
  else
    let (r, run) := sh host countScript 60 run
    let (now, log) := host.now run.log
    { run with
      log
      rep := { run.rep with
        installedCount := atoi (trim r.stdoutData)
        operationEnd := Time.iso8601Seconds (now / 1000) } }

/-- SRC: patch.cpp:306-324 -/
def report (ctx : Context) (run : Run) : Run :=
  if run.cancelled || !ctx.reportInventory then run
  else
    let items := inventoryItems run.rep run.rep.operationEnd
    let resp := if ctx.credentials then ctx.put items
      else { Http.Response.init with error := lit "no credentials available" }
    let run := { run with inventory := if ctx.credentials then some items else none }
    if resp.ok then
      { run with out := run.out ++
          [lit "compliance reported to SSM inventory (AWS:PatchSummary: " ++
            toStringNat run.rep.missing.length ++ lit " missing, " ++
            toStringNat run.rep.installed.length ++ lit " installed this run)\n"] }
    else
      { run with
        failed := true
        errout := run.errout ++
          [lit "PutInventory failed: status=" ++ toStringInt resp.status ++ lit " " ++ resp.error ++
            lit " " ++ clip resp.body 400 (lit "...") ++ lit "\n"] }

/-- The part of `run_baseline` between the first and the last clock reading.
SRC: patch.cpp:218-325 -/
def baseline (ctx : Context) (parameters : Value) (log : Log) : Run :=
  let p := parseParams parameters
  if p.error ≠ [] then
    { Run.init log with
      failed := true
      errout := [p.error ++ lit "\n"] }
  else
    let (available, run) := listAvailable host (refresh host (start host ctx p (Run.init log)))
    report ctx (countInstalled host (noteReboot (apply host p.operation available run)))

/-- SRC: patch.cpp:328-343 -/
def finish (startTime endTime : Bytes) (run : Run) : StepResult :=
  let out := run.out.flatten
  let errout := run.errout.flatten
  let standardOutput := clip out kMaxStdoutLength []
  let standardError := clip errout kMaxStdoutLength []
  { StepResult.init with
    pluginId := lit "PatchLinux"
    action := lit "aws:runShellScript"
    startTime, endTime
    fullStdout := out
    fullStderr := errout
    standardOutput, standardError
    status := if run.cancelled then lit "Cancelled" else if run.failed then lit "Failed"
      else lit "Success"
    code := if run.cancelled || run.failed then 1 else 0
    output := truncateOutput standardOutput standardError kMaxPluginOutputSize }

/-- What `run_baseline` returns, and what it did on the way. -/
structure BaselineResult where
  outcome : DocumentOutcome
  run : Run

/-- `run_baseline`.
SRC: patch.cpp:200-348 -/
def runBaseline (ctx : Context) (parameters : Value) (log : Log) : BaselineResult :=
  let (started, log) := host.now log
  let run := baseline host ctx parameters log
  let (ended, log) := host.now run.log
  let sr := finish (Time.iso8601 started) (Time.iso8601 ended) run
  { outcome := ⟨sr.status, [sr], []⟩
    run := { run with log } }

end HaikuAgent.Model.Patch
