import HaikuAgent.Model.Util

/-!
# Running a shell script with a hard timeout (`exec.cpp`)

`runShell` is the parent's side of `exec::run_shell`: the drain loop over the two
pipes with its timeout and cancel escalation, then the bounded reap loop. Every
system call goes through `Sys W`, an interface over an arbitrary state `W` of the
outside world, so a result about all of `Sys` is one about every behaviour of the
kernel and of the child.

The loops take fuel; `none` means that it ran out before the call returned. The
signals sent are recorded in order, with the clock reading they were sent at.
-/

set_option autoImplicit false

namespace HaikuAgent.Model.Exec

open HaikuAgent.Foundation

def kDefaultTimeoutSeconds : ℤ := 3600
def kGraceSeconds : ℤ := 5

/-- SRC: exec.h:13-22 -/
structure Result where
  exitCode : ℤ
  timedOut : Bool
  cancelled : Bool
  signalled : Bool
  signalNumber : ℕ
  stdoutData : Bytes
  stderrData : Bytes
  error : Bytes
  deriving DecidableEq

/-- The member initialisers of `Result`. -/
def Result.init : Result :=
  { exitCode := -1
    timedOut := false
    cancelled := false
    signalled := false
    signalNumber := 0
    stdoutData := []
    stderrData := []
    error := [] }

inductive Stream where
  | out
  | err
  deriving DecidableEq

inductive Signal where
  | term
  | kill
  deriving DecidableEq

/-- `poll`: an error other than `EINTR`, `EINTR`, or which of the two pipes is ready
(neither when the wait ran out). -/
inductive PollResult where
  | failed (reason : Bytes)
  | interrupted
  | ready (out err : Bool)

/-- `read`: at least one byte, end of file, `EINTR`/`EAGAIN`, or another error. -/
inductive ReadResult where
  | data (b : UInt8) (bs : Bytes)
  | eof
  | again
  | failed

/-- `waitpid(pid, &status, WNOHANG)`. -/
inductive WaitResult where
  | running
  | exited (code : UInt8)
  | signalled (sig : ℕ)
  | interrupted
  | failed (reason : Bytes)

/-- The system calls of `run_shell`, as seen by the parent. `spawn` is
`pipe`/`pipe`/`fork`; its error is the text the source reports. -/
structure Sys (W : Type) where
  spawn : W → (script workingDir : Bytes) → Except Bytes Unit × W
  now : W → ℤ × W
  poll : W → (outOpen errOpen : Bool) → (waitMs : ℤ) → PollResult × W
  read : W → Stream → ReadResult × W
  cancelRequested : W → Bool × W
  kill : W → Signal → W
  waitpid : W → WaitResult × W
  sleep : W → W

/-- The local variables of the drain loop; `signals` records the `kill` calls. -/
structure Drain where
  stdoutData : Bytes
  stderrData : Bytes
  error : Bytes
  timedOut : Bool
  cancelled : Bool
  killedTerm : Bool
  killedKill : Bool
  killDeadline : ℤ
  outOpen : Bool
  errOpen : Bool
  outClipped : Bool
  errClipped : Bool
  signals : List (Signal × ℤ)

/-- SRC: exec.cpp:87-90 -/
def Drain.init : Drain :=
  { stdoutData := []
    stderrData := []
    error := []
    timedOut := false
    cancelled := false
    killedTerm := false
    killedKill := false
    killDeadline := 0
    outOpen := true
    errOpen := true
    outClipped := false
    errClipped := false
    signals := [] }

/-- `sink->append(...)` under the capture limit: the sink and its clip flag.
SRC: exec.cpp:117-123 -/
def capture (maxCaptureBytes : ℕ) (sink : Bytes) (clipped : Bool) (got : Bytes) : Bytes × Bool :=
  if sink.length < maxCaptureBytes then
    let room := maxCaptureBytes - sink.length
    (sink ++ got.take room, if room < got.length then true else clipped)
  else (sink, true)

variable {W : Type}

/-- One ready descriptor of a pass.
SRC: exec.cpp:110-129 -/
def readStep (sys : Sys W) (maxCaptureBytes : ℕ) (s : Stream) (w : W) (d : Drain) : W × Drain :=
  match sys.read w s with
  | (.data b bs, w) =>
    match s with
    | .out =>
      let (sink, clipped) := capture maxCaptureBytes d.stdoutData d.outClipped (b :: bs)
      (w, { d with stdoutData := sink, outClipped := clipped })
    | .err =>
      let (sink, clipped) := capture maxCaptureBytes d.stderrData d.errClipped (b :: bs)
      (w, { d with stderrData := sink, errClipped := clipped })
  | (.eof, w) | (.failed, w) =>
    match s with
    | .out => (w, { d with outOpen := false })
    | .err => (w, { d with errOpen := false })
  | (.again, w) => (w, d)

/-- The second half of a pass: escalate if the deadline has passed or a cancel was
requested. The flag says whether the loop goes on.
SRC: exec.cpp:132-157 -/
def escalate (sys : Sys W) (deadline : ℤ) (cancel : Bool) (w : W) (d : Drain) : W × Drain × Bool :=
  let (now, w) := sys.now w
  let (requested, w) := if cancel then sys.cancelRequested w else (false, w)
  let cancelNow := requested && !d.killedTerm
  if cancelNow || (!d.killedTerm && decide (deadline ≤ now)) then
    let d := if cancelNow then { d with cancelled := true } else { d with timedOut := true }
    (sys.kill w .term,
      { d with
        killedTerm := true
        killDeadline := now + kGraceSeconds * 1000
        signals := d.signals ++ [(.term, now)] }, true)
  else if d.killedTerm && !d.killedKill && decide (d.killDeadline ≤ now) then
    (sys.kill w .kill,
      { d with killedKill := true, signals := d.signals ++ [(.kill, now)] }, false)
  else (w, d, true)

/-- The argument of `poll`.
SRC: exec.cpp:99-102 -/
def waitMs (deadline now : ℤ) (d : Drain) : ℤ :=
  min 1000 (max 0 ((if d.killedTerm then d.killDeadline else deadline) - now))

/-- One pass of the drain loop.
SRC: exec.cpp:92-158 -/
def drainPass (sys : Sys W) (deadline : ℤ) (maxCaptureBytes : ℕ) (cancel : Bool) (w : W)
    (d : Drain) : W × Drain × Bool :=
  let (now, w) := sys.now w
  match sys.poll w d.outOpen d.errOpen (waitMs deadline now d) with
  | (.failed reason, w) => (w, { d with error := lit "poll: " ++ reason }, false)
  | (.interrupted, w) => escalate sys deadline cancel w d
  | (.ready out err, w) =>
    let (w, d1) := if d.outOpen && out then readStep sys maxCaptureBytes .out w d else (w, d)
    let (w, d2) := if d.errOpen && err then readStep sys maxCaptureBytes .err w d1 else (w, d1)
    escalate sys deadline cancel w d2

/-- `while (out_open || err_open)`.
SRC: exec.cpp:92-158 -/
def drainLoop (sys : Sys W) (deadline : ℤ) (maxCaptureBytes : ℕ) (cancel : Bool) :
    ℕ → W → Drain → Option (W × Drain)
  | fuel, w, d =>
    if d.outOpen || d.errOpen then
      match fuel with
      | 0 => none
      | fuel + 1 =>
        match drainPass sys deadline maxCaptureBytes cancel w d with
        | (w, d, true) => drainLoop sys deadline maxCaptureBytes cancel fuel w d
        | (w, d, false) => some (w, d)
    else some (w, d)

/-- How the reap loop ends: the wait status, or the error text; and the signals it sent. -/
inductive Reaped where
  | exited (code : UInt8)
  | signalled (sig : ℕ)
  | failed (error : Bytes)
  | gaveUp (now : ℤ)

/-- The reap loop.
SRC: exec.cpp:170-188 -/
def reapLoop (sys : Sys W) (reapDeadline : ℤ) : ℕ → W → Option (W × Reaped)
  | 0, _ => none
  | fuel + 1, w =>
    match sys.waitpid w with
    | (.exited code, w) => some (w, .exited code)
    | (.signalled sig, w) => some (w, .signalled sig)
    | (.interrupted, w) => reapLoop sys reapDeadline fuel w
    | (.failed reason, w) => some (w, .failed (lit "waitpid: " ++ reason))
    | (.running, w) =>
      let (now, w) := sys.now w
      if reapDeadline < now then some (sys.kill w .kill, .gaveUp now)
      else reapLoop sys reapDeadline fuel (sys.sleep w)

/-- SRC: exec.cpp:163-164 -/
def truncationMarker : Bytes := lit "\n--output truncated--"

/-- SRC: exec.cpp:184 -/
def reapError : Bytes :=
  lit "child did not reap within 10s after exit/kill (see TESTING.md, open question 5)"

/-- What a call leaves behind: its result and the signals it sent. -/
structure Outcome where
  result : Result
  signals : List (Signal × ℤ)
  deriving DecidableEq

/-- The result assembled after the drain loop.
SRC: exec.cpp:163-164 -/
def drained (d : Drain) : Result :=
  { Result.init with
    timedOut := d.timedOut
    cancelled := d.cancelled
    error := d.error
    stdoutData := d.stdoutData ++ (if d.outClipped then truncationMarker else [])
    stderrData := d.stderrData ++ (if d.errClipped then truncationMarker else []) }

/-- The end of `run_shell`: the reap loop's outcome becomes the result.
SRC: exec.cpp:172-196 -/
def conclude (d : Drain) : Reaped → Outcome
  | .exited code => ⟨{ drained d with exitCode := code.toNat }, d.signals⟩
  | .signalled sig =>
    ⟨{ drained d with signalled := true, signalNumber := sig, exitCode := 128 + sig }, d.signals⟩
  | .failed error => ⟨{ drained d with error := error }, d.signals⟩
  | .gaveUp now => ⟨{ drained d with error := reapError }, d.signals ++ [(.kill, now)]⟩

/-- `timeout_seconds <= 0` means the default.
SRC: exec.cpp:27 -/
def effectiveTimeout (timeoutSeconds : ℤ) : ℤ :=
  if timeoutSeconds ≤ 0 then kDefaultTimeoutSeconds else timeoutSeconds

/-- `run_shell`; `cancel` is false when the source's pointer is null.
SRC: exec.cpp:24-197 -/
def runShell (sys : Sys W) (script : Bytes) (timeoutSeconds : ℤ) (workingDir : Bytes)
    (maxCaptureBytes : ℕ) (cancel : Bool) (fuel : ℕ) (w : W) : Option (W × Outcome) :=
  match sys.spawn w script workingDir with
  | (.error reason, w) => some (w, ⟨{ Result.init with error := reason }, []⟩)
  | (.ok (), w) =>
    let (start, w) := sys.now w
    let deadline := start + effectiveTimeout timeoutSeconds * 1000
    match drainLoop sys deadline maxCaptureBytes cancel fuel w Drain.init with
    | none => none
    | some (w, d) =>
      let (reapStart, w) := sys.now w
      match reapLoop sys (reapStart + 10000) fuel w with
      | none => none
      | some (w, reaped) => some (w, conclude d reaped)

/-! ## The array of descriptors

`drainPass` names the two pipes. The source puts those that are open into an array and tells them
apart by `out_idx`; these are the same reads with the array. -/

/-- The array that `poll` is called with, and what it says of each entry.
SRC: exec.cpp:93-97 -/
def pollFds (d : Drain) (out err : Bool) : List (Stream × Bool) :=
  (if d.outOpen then [(.out, out)] else []) ++ (if d.errOpen then [(.err, err)] else [])

/-- SRC: exec.cpp:95-96 -/
def outIdx (d : Drain) : ℤ := if d.outOpen then 0 else -1

/-- One round of the loop over the array: the descriptor is the entry's, the sink and the pipe to
close are told by the index.
SRC: exec.cpp:110-129 -/
def readEntry (sys : Sys W) (maxCaptureBytes : ℕ) (fds : List (Stream × Bool)) (out : ℤ)
    (s : W × Drain) (i : ℕ) : W × Drain :=
  let (w, d) := s
  match fds[i]? with
  | some (fd, true) =>
    match sys.read w fd with
    | (.data b bs, w) =>
      if (i : ℤ) = out then
        let (sink, clipped) := capture maxCaptureBytes d.stdoutData d.outClipped (b :: bs)
        (w, { d with stdoutData := sink, outClipped := clipped })
      else
        let (sink, clipped) := capture maxCaptureBytes d.stderrData d.errClipped (b :: bs)
        (w, { d with stderrData := sink, errClipped := clipped })
    | (.eof, w) | (.failed, w) =>
      if (i : ℤ) = out then (w, { d with outOpen := false }) else (w, { d with errOpen := false })
    | (.again, w) => (w, d)
  | _ => (w, d)

/-- `drainPass` with the array.
SRC: exec.cpp:92-158 -/
def drainPassIndexed (sys : Sys W) (deadline : ℤ) (maxCaptureBytes : ℕ) (cancel : Bool) (w : W)
    (d : Drain) : W × Drain × Bool :=
  let (now, w) := sys.now w
  match sys.poll w d.outOpen d.errOpen (waitMs deadline now d) with
  | (.failed reason, w) => (w, { d with error := lit "poll: " ++ reason }, false)
  | (.interrupted, w) => escalate sys deadline cancel w d
  | (.ready out err, w) =>
    let fds := pollFds d out err
    let read := (List.range fds.length).foldl (readEntry sys maxCaptureBytes fds (outIdx d)) (w, d)
    escalate sys deadline cancel read.1 read.2

end HaikuAgent.Model.Exec
