import Mathlib.Data.Finset.Basic
import HaikuAgent.Model.Sessions

/-!
# The control channel (`session.cpp`, `main.cpp`)

The session thread: `session::run` and the loop of `main` that calls it again after the
channel was lost. `step` is one pass of the loop the thread is in, and a `Pass` holds
what it meets. What `run` keeps between two calls is nothing: `seen` is its local set.
A worker is recorded in the `log` with the number of the call that started it.
-/

set_option autoImplicit false

namespace HaikuAgent.Model.ControlChannel

open HaikuAgent.Foundation
open HaikuAgent.Model.Json
open HaikuAgent.Model.Mgs
open HaikuAgent.Model.Sessions (StartRequest Recv Inbound inbound)

/-- SRC: session.cpp:31 -/
def kPingIntervalSeconds : ℤ := 45

/-- The two payloads that are parsed in a row: the envelope's content is JSON in a string.
SRC: session.cpp:497-515 -/
def startTask (strtod : Bytes → Double × ℕ) (mgsPayload : Bytes) : Except Bytes Value :=
  let (envelope, err) := parse strtod mgsPayload
  if err ≠ [] ∨ ¬envelope.isObj then .error (lit "interactive_shell payload is not JSON: " ++ err)
  else
    let inner := envelope.strAt (lit "content") []
    let inner := if inner = [] then envelope.strAt (lit "Content") [] else inner
    let (task, err) := parse strtod inner
    if err ≠ [] ∨ ¬task.isObj then .error (lit "interactive_shell Content is not JSON: " ++ err)
    else .ok task

/-- `parse_start_request`: the request with its KMS key id, or its error.
SRC: session.cpp:495-533 -/
def parseStartRequest (strtod : Bytes → Double × ℕ) (mgsPayload : Bytes) :
    Except Bytes (StartRequest × Bytes) :=
  match startTask strtod mgsPayload with
  | .error err => .error err
  | .ok task =>
    let none : StartRequest :=
      { sessionId := task.strAt (lit "SessionId") []
        sessionType := []
        runAsEnabled := false
        runAsUser := []
        shellCommands := [] }
    let (sr, kmsKeyId) :=
      match task.find (lit "DocumentContent") with
      | some (.obj content) =>
        let doc := Value.obj content
        let sr := { none with sessionType := doc.strAt (lit "sessionType") [] }
        match doc.find (lit "inputs") with
        | some (.obj entries) =>
          let inputs := Value.obj entries
          let commands :=
            match inputs.find (lit "shellProfile") with
            | some (.obj profile) => (Value.obj profile).strAt (lit "linux") []
            | _ => []
          ({ sr with
              runAsEnabled := ((inputs.find (lit "runAsEnabled")).map (Value.bl false)).getD false
              runAsUser := inputs.strAt (lit "runAsDefaultUser") []
              shellCommands := commands },
            inputs.strAt (lit "kmsKeyId") [])
        | _ => (sr, [])
      | _ => (none, [])
    if sr.sessionId = [] then .error (lit "interactive_shell payload has no SessionId")
    else .ok (sr, kmsKeyId)

/-- What the session thread does. -/
inductive Action where
  | ping
  /-- a `run_session` worker is started by the `call`-th call of `run` -/
  | start (call : ℕ) (sr : StartRequest)
  /-- `main` waits before it calls `run` again -/
  | wait (seconds : ℤ)

inductive Phase where
  /-- `main` is about to call `run` -/
  | between
  /-- `run` is in its loop -/
  | serving
  /-- the thread has stopped -/
  | ended
  /-- an exception has left `run` -/
  | thrown
  deriving DecidableEq

/-- What one pass of a loop meets. -/
structure Pass where
  stop : Bool
  /-- the control channel was created and opened -/
  opened : Bool
  now : ℤ
  /-- the clock reading after a ping -/
  pingedAt : ℤ
  recv : Recv

structure SessionThread where
  phase : Phase
  /-- how many calls of `run` were made -/
  calls : ℕ
  /-- `seen_sessions` of the call being made -/
  seen : Finset Bytes
  nextPing : ℤ
  backoff : ℤ
  log : List Action

namespace SessionThread

/-- SRC: main.cpp:786 -/
def init : SessionThread :=
  { phase := .between
    calls := 0
    seen := ∅
    nextPing := 0
    backoff := 2
    log := [] }

def record (s : SessionThread) (a : Action) : SessionThread := { s with log := s.log ++ [a] }

/-- What `main` does when `run` has returned `ok`. The two checks of the stop flag around
the wait both end the thread; the next pass makes them.
SRC: main.cpp:791-796 -/
def runReturned (s : SessionThread) (ok : Bool) : SessionThread :=
  let s := s.record (.wait (if ok then 2 else s.backoff))
  { s with
    phase := .between
    backoff := if ok then 2 else min (s.backoff * 2) 60 }

/-- What `run` does before its loop.
SRC: main.cpp:787-790, session.cpp:580-628 -/
def callRun (s : SessionThread) (p : Pass) : SessionThread :=
  if p.stop then { s with phase := .ended }
  else
    let s := { s with calls := s.calls + 1 }
    if !p.opened then s.runReturned false
    else
      { s with
        phase := .serving
        seen := ∅
        nextPing := p.now + kPingIntervalSeconds }

/-- A StartSession message.
SRC: session.cpp:651-683 -/
def handleShell (strtod : Bytes → Double × ℕ) (s : SessionThread) (payload : Bytes) :
    SessionThread :=
  match parseStartRequest strtod payload with
  | .error _ => s
  | .ok (sr, kmsKeyId) =>
    if sr.sessionType ≠ [] ∧ sr.sessionType ≠ lit "Standard_Stream" then s
    else if kmsKeyId ≠ [] then s
    else if sr.sessionId ∈ s.seen then s
    else
      { s with
        seen := insert sr.sessionId s.seen
        log := s.log ++ [.start s.calls sr] }

/-- SRC: session.cpp:630-634 -/
def keepAlive (s : SessionThread) (p : Pass) : SessionThread :=
  if s.nextPing ≤ p.now then { s.record .ping with nextPing := p.pingedAt + kPingIntervalSeconds }
  else s

/-- One pass of the loop of `run`. On the stop flag `run` waits for the sessions, and
`main` then leaves its own loop on the same flag.
SRC: session.cpp:629-692 -/
def serve (strtod : Bytes → Double × ℕ) (s : SessionThread) (p : Pass) : SessionThread :=
  if p.stop then { s with phase := .ended }
  else
    let s := s.keepAlive p
    match inbound p.recv with
    | .closed => s.runReturned false
    | .nothing => s
    | .thrown => { s with phase := .thrown }
    | .message m =>
      if m.messageType = kMsgInteractiveShell then s.handleShell strtod m.payload
      else if m.messageType = kMsgChannelClosed then s.runReturned true
      else s

/-- One pass of the loop that the session thread is in. -/
def step (strtod : Bytes → Double × ℕ) (s : SessionThread) (p : Pass) : SessionThread :=
  match s.phase with
  | .between => s.callRun p
  | .serving => s.serve strtod p
  | _ => s

end SessionThread

end HaikuAgent.Model.ControlChannel
