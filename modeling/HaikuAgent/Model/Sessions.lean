import HaikuAgent.Model.JsonParse
import HaikuAgent.Model.Mgs
import HaikuAgent.Model.Outbox
import HaikuAgent.Model.WebSocket

/-!
# Interactive sessions (`session.cpp`)

`run_session` as a machine: `start` is what it does before its first loop, and `step` is
one pass of the loop it is in. A `Pass` holds what the pass meets (the stop flag, its
clock readings, what the pty and the channel give); an `Env` holds what making a
message needs. The session records what it does, in order, in its `log`.

A list of pty results is what the successive calls of `read` or `write` return in the
pass; a pass that asks for more than the list holds has not come to its end.
-/

set_option autoImplicit false

namespace HaikuAgent.Model.Sessions

open HaikuAgent.Foundation
open HaikuAgent.Model.Json
open HaikuAgent.Model.Mgs

/-- SRC: session.cpp:32-36 -/
def kHandshakeTimeoutSeconds : ℤ := 20
def kIdleTimeoutSeconds : ℤ := 20 * 60

/-- The members of `StartRequest` that a session uses.
SRC: session.h:68-78 -/
structure StartRequest where
  sessionId : Bytes
  sessionType : Bytes
  runAsEnabled : Bool
  runAsUser : Bytes
  shellCommands : Bytes

structure Env where
  strtod : Bytes → Double × ℕ
  sha256Raw : Bytes → Vector UInt8 32
  agentVersion : Bytes
  /-- the clock when the message of a given number is made -/
  createdMs : ℕ → ℤ
  /-- the clock when its frame is buffered -/
  bufferedMs : ℕ → ℤ
  uuid : ℕ → Bytes
  /-- what `ws.send` returns for it -/
  sendOk : ℕ → Bool

/-- What a session does. -/
inductive Action where
  /-- a stream-data message is sent -/
  | stream (m : AgentMessage)
  /-- a control message is sent -/
  | control (m : AgentMessage)
  /-- an inbound message is acknowledged -/
  | acknowledge (inbound : AgentMessage)
  /-- a buffered frame is sent again -/
  | resend (frame : Bytes)
  /-- an inbound message is taken: the handshake response, or input in order -/
  | accept (inbound : AgentMessage)
  | spawn (commands : Bytes) (runAs : Bool) (user : Bytes)
  | resize (cols rows : ℤ)
  | write (bytes : Bytes)
  deriving DecidableEq

inductive Phase where
  | handshake
  | main
  /-- `run_session` has returned -/
  | ended
  /-- a pass has not come to its end -/
  | stuck
  /-- an exception has left `run_session` -/
  | thrown
  deriving DecidableEq

/-- The locals of `run_session`. -/
structure Session where
  phase : Phase
  outSeq : ℤ
  outbox : Outbox
  handshakeSeq : ℤ
  hsDeadline : ℤ
  nextExpected : ℤ
  lastClientActivity : ℤ
  /-- how many messages were made -/
  sends : ℕ
  log : List Action
  deriving DecidableEq

def Session.init : Session :=
  { phase := .handshake
    outSeq := 0
    outbox := .empty
    handshakeSeq := -1
    hsDeadline := 0
    nextExpected := 0
    lastClientActivity := 0
    sends := 0
    log := [] }

def Session.record (s : Session) (a : Action) : Session := { s with log := s.log ++ [a] }

/-! ## Messages out -/

/-- `static_cast<double>` of an `int64_t`: 53 significant bits, ties to even. -/
def doubleOfInt (n : ℤ) : Double :=
  if n.natAbs ≤ 2 ^ 53 then .finite n
  else
    let unit : ℚ := 2 ^ (Nat.log 2 n.natAbs - 52)
    .finite (roundHalfEven (n / unit) * unit)

/-- An `AgentMessage` with what is stamped on the message of number `n`. -/
def Env.message (env : Env) (n : ℕ) (messageType : Bytes) (sequence : ℤ) (flags : UInt64)
    (payloadType : UInt32) (payload : Bytes) : AgentMessage :=
  { messageType
    schemaVersion := 1
    createdMs := (Int64.ofInt (env.createdMs n)).toUInt64
    sequence := Int64.ofInt sequence
    flags
    messageId := env.uuid n
    payloadType
    payload }

namespace Session

/-- `send_stream`, with what it returns.
SRC: session.cpp:49-68 -/
def sendStream (env : Env) (s : Session) (payloadType : UInt32) (data : Bytes) : Bool × Session :=
  let m := env.message s.sends kMsgOutputStreamData s.outSeq (if s.outSeq = 0 then 1 else 0)
    payloadType data
  (env.sendOk s.sends,
    { s.record (.stream m) with
      outSeq := s.outSeq + 1
      outbox := s.outbox.add s.outSeq (serialize env.sha256Raw m) (env.bufferedMs s.sends)
      sends := s.sends + 1 })

/-- `send_control`; what it returns is not looked at.
SRC: session.cpp:92-104 -/
def sendControl (env : Env) (s : Session) (messageType payload : Bytes) : Session :=
  { s.record (.control (env.message s.sends messageType 0 3 0 payload)) with sends := s.sends + 1 }

/-- The payload of an acknowledge.
SRC: session.cpp:107-111 -/
def ackPayload (inbound : AgentMessage) : Bytes :=
  dump (objOf
    [(lit "AcknowledgedMessageType", .string inbound.messageType),
     (lit "AcknowledgedMessageId", .string inbound.messageId),
     (lit "AcknowledgedMessageSequenceNumber", .number (doubleOfInt inbound.sequence.toInt) true),
     (lit "IsSequentialMessage", .bool true)])

/-- SRC: session.cpp:106-114 -/
def sendAck (env : Env) (s : Session) (inbound : AgentMessage) : Session :=
  (s.record (.acknowledge inbound)).sendControl env kMsgAcknowledge (ackPayload inbound)

/-- `pump_outbox` at the clock reading `nowMs`, with what it returns.
SRC: session.cpp:72-81 -/
def pumpOutbox (s : Session) (nowMs : ℤ) : Bool × Session :=
  let (frame, dead, outbox) := s.outbox.dueResend nowMs
  if dead then (false, { s with outbox })
  else
    match frame with
    | some frame => (true, { s.record (.resend frame) with outbox })
    | none => (true, { s with outbox })

/-- SRC: session.cpp:84-89 -/
def handleAck (env : Env) (s : Session) (m : AgentMessage) : Session :=
  let (v, jerr) := parse env.strtod m.payload
  if jerr = [] ∧ v.isObj then
    let seq := (v.numAt env.strtod (lit "AcknowledgedMessageSequenceNumber") (.finite (-1))).toIntBounded
      (-2 ^ 63) (2 ^ 63 - 1)
    { s with outbox := s.outbox.ack seq }
  else s

end Session

/-! ## Handshake payloads -/

/-- SRC: session.cpp:535-552 -/
def buildHandshakeRequest (agentVersion sessionType : Bytes) (properties : Value) : Bytes :=
  let action := objOf
    [(lit "ActionType", .string (lit "SessionType")),
     (lit "ActionParameters", objOf
       [(lit "SessionType", .string sessionType), (lit "Properties", properties)])]
  dump (objOf
    [(lit "AgentVersion", .string agentVersion), (lit "RequestedClientActions", .arr [action])])

/-- SRC: session.cpp:324-326 -/
def handshakeComplete : Bytes :=
  dump (objOf [(lit "HandshakeTimeToComplete", intNumber 0), (lit "CustomerMessage", .string [])])

/-- The check of one processed action.
SRC: session.cpp:567-575 -/
def actionOk (strtod : Bytes → Double × ℕ) (a : Value) : Bool :=
  let status := a.strAt (lit "ActionStatus") []
  status = lit "1" || lower status = lit "success" ||
    a.numAt strtod (lit "ActionStatus") (.finite 0) = .finite 1

/-- `handshake_response_ok`: the client's version, or the error.
SRC: session.cpp:554-578 -/
def handshakeResponseOk (strtod : Bytes → Double × ℕ) (responseJson : Bytes) : Except Bytes Bytes :=
  let (v, jerr) := parse strtod responseJson
  if jerr ≠ [] ∨ ¬v.isObj then .error (lit "handshake response is not JSON: " ++ jerr)
  else
    match v.find (lit "ProcessedClientActions") with
    | some (.arr actions) =>
      match actions.find? fun a => !actionOk strtod a with
      | some a =>
        .error (a.strAt (lit "ActionType") [] ++ lit " failed on client: " ++ a.strAt (lit "Error") [])
      | none => .ok (v.strAt (lit "ClientVersion") [])
    | _ => .error (lit "handshake response has no ProcessedClientActions")

/-! ## What a pass meets -/

/-- What one `read` of the pty returns: bytes, `0`, a transient error, or another one. -/
inductive PtyRead where
  | data (first : UInt8) (rest : Bytes)
  | eof
  | again
  | failed

/-- What one `write` to the pty returns. -/
inductive PtyWrite where
  | count (n : ℕ)
  | again
  | failed

/-- What `ws.recv` returns. -/
inductive Recv where
  | closed
  | nothing
  | frame (f : WebSocket.Frame)

/-- What one pass of a loop meets. -/
structure Pass where
  stop : Bool
  /-- the clock reading of the loop's deadline check -/
  now : ℤ
  /-- the clock reading of `pump_outbox` -/
  pumpMs : ℤ
  reads : List PtyRead
  recv : Recv
  /-- the clock reading that dates the client's activity -/
  activity : ℤ
  /-- the error of `spawn_shell`, if it fails -/
  spawnError : Option Bytes
  writes : List PtyWrite
  /-- the exit status that `waitpid` reports, if the shell exited -/
  exitStatus : Option ℤ

/-- What the channel gives a pass. -/
inductive Inbound where
  | closed
  | nothing
  | thrown
  | message (m : AgentMessage)

/-- The member initialisers of `AgentMessage`.
SRC: mgs.h:48-57 -/
def blankMessage : AgentMessage := ⟨[], 1, 0, 0, 0, [], 0, []⟩

/-- SRC: session.cpp:290-300, 393-405 -/
def inbound : Recv → Inbound
  | .closed => .closed
  | .nothing => .nothing
  | .frame f =>
    match deserialize f.payload blankMessage [] with
    | .error _ => .thrown
    | .ok (false, _, _) => .nothing
    | .ok (true, m, _) => .message m

namespace Session

/-! ## The handshake -/

/-- What `run_session` does before its first loop; `opened` says that the data channel was
created and opened, `now` is the clock reading of the handshake's deadline.
SRC: session.cpp:200-276 -/
def start (env : Env) (sr : StartRequest) (opened : Bool) (now : ℤ) : Session :=
  if !opened then { init with phase := .ended }
  else
    let state := objOf
      [(lit "SchemaVersion", intNumber 1), (lit "SessionState", .string (lit "Connected")),
       (lit "SessionId", .string sr.sessionId)]
    let s := init.sendControl env kMsgAgentSessionState (dump state)
    match s.sendStream env kPayloadHandshakeRequest
        (buildHandshakeRequest env.agentVersion sr.sessionType (.obj [])) with
    | (false, s) => { s with phase := .ended }
    | (true, s) => { s with hsDeadline := now + kHandshakeTimeoutSeconds }

/-- What follows the handshake loop when the response was accepted.
SRC: session.cpp:322-351 -/
def startShell (env : Env) (sr : StartRequest) (s : Session) (p : Pass) : Session :=
  let (_, s) := s.sendStream env kPayloadHandshakeComplete handshakeComplete
  let s := s.record (.spawn sr.shellCommands sr.runAsEnabled sr.runAsUser)
  match p.spawnError with
  | some err =>
    let (_, s) := s.sendStream env kPayloadStdErr
      (lit "Failed to start shell: " ++ err ++ lit "\r\n")
    { s with phase := .ended }
  | none =>
    { s with
      phase := .main
      nextExpected := s.handshakeSeq + 1
      lastClientActivity := p.activity }

/-- The messages of the handshake loop.
SRC: session.cpp:301-319 -/
def handleHandshake (env : Env) (sr : StartRequest) (s : Session) (p : Pass) (m : AgentMessage) :
    Session :=
  if m.messageType = kMsgAcknowledge then s.handleAck env m
  else if m.messageType = kMsgInputStreamData ∧ m.payloadType = kPayloadHandshakeResponse then
    let s := s.sendAck env m
    match handshakeResponseOk env.strtod m.payload with
    | .error _ => { s with phase := .ended }
    | .ok _ =>
      let s := { s.record (.accept m) with handshakeSeq := m.sequence.toInt }
      s.startShell env sr p
  else if m.messageType = kMsgChannelClosed then { s with phase := .ended }
  else s.sendAck env m

/-- One pass of the handshake loop.
SRC: session.cpp:277-320 -/
def handshakePass (env : Env) (sr : StartRequest) (s : Session) (p : Pass) : Session :=
  if p.stop then { s with phase := .ended }
  else if s.hsDeadline < p.now then { s with phase := .ended }
  else
    match s.pumpOutbox p.pumpMs with
    | (false, s) => { s with phase := .ended }
    | (true, s) =>
      match inbound p.recv with
      | .closed => { s with phase := .ended }
      | .nothing => s
      | .thrown => { s with phase := .thrown }
      | .message m => s.handleHandshake env sr p m

/-! ## The shell -/

/-- What follows the main loop.
SRC: session.cpp:452-467 -/
def teardown (env : Env) (sr : StartRequest) (s : Session) (p : Pass) : Session :=
  let (_, s) := s.sendStream env kPayloadExitCode (toStringInt (p.exitStatus.getD 1))
  let state := objOf
    [(lit "SchemaVersion", intNumber 1), (lit "SessionState", .string (lit "Terminating")),
     (lit "SessionId", .string sr.sessionId)]
  let s := s.sendControl env kMsgAgentSessionState (dump state)
  { s with phase := .ended }

/-- The loop that drains the pty: whether the main loop keeps running, or `none` when the
loop has not come to its end.
SRC: session.cpp:367-386 -/
def drain (env : Env) (s : Session) (running : Bool) : List PtyRead → Option Bool × Session
  | [] => (none, s)
  | .data first rest :: reads =>
    let (ok, s) := s.sendStream env kPayloadOutput (first :: rest)
    -- a failed send ends the session, but not this loop
    s.drain env (running && ok) reads
  | .again :: _ => (some running, s)
  | .eof :: _ => (some false, s)
  | .failed :: _ => (some false, s)

/-- The loop that writes keystrokes to the pty: whether the main loop keeps running, or
`none` when the loop has not come to its end.
SRC: session.cpp:436-447 -/
def writeKeys (s : Session) (keys : Bytes) : List PtyWrite → Option Bool × Session
  | [] => (if keys = [] then some true else none, s)
  | w :: writes =>
    if keys = [] then (some true, s)
    else
      match w with
      | .count 0 => (some false, s)
      | .count n =>
        (s.record (.write (keys.take n))).writeKeys (keys.drop n) writes
      | .again => s.writeKeys keys writes
      | .failed => (some false, s)

/-- Input in order.
SRC: session.cpp:428-449 -/
def applyInput (env : Env) (sr : StartRequest) (s : Session) (p : Pass) (m : AgentMessage) : Session :=
  if m.payloadType = kPayloadSize then
    let (sz, jerr) := parse env.strtod m.payload
    if jerr = [] then
      let uint32 (d : Double) := d.toIntBounded 0 (2 ^ 32 - 1)
      let cols := uint32 (sz.numAt env.strtod (lit "cols") (.finite 80))
      let rows := uint32 (sz.numAt env.strtod (lit "rows") (.finite 24))
      s.record (.resize (cols % 2 ^ 16) (rows % 2 ^ 16))
    else s
  else if m.payloadType = kPayloadOutput then
    match s.writeKeys m.payload p.writes with
    | (some true, s) => s
    | (some false, s) => s.teardown env sr p
    | (none, s) => { s with phase := .stuck }
  else s

/-- The messages of the main loop.
SRC: session.cpp:404-449 -/
def handleMain (env : Env) (sr : StartRequest) (s : Session) (p : Pass) (m : AgentMessage) : Session :=
  let s := { s with lastClientActivity := p.activity }
  if m.messageType = kMsgChannelClosed then s.teardown env sr p
  else if m.messageType = kMsgAcknowledge then s.handleAck env m
  else if m.messageType ≠ kMsgInputStreamData then s.sendAck env m
  else
    let s := s.sendAck env m
    if m.sequence.toInt ≠ s.nextExpected then s
    else
      let s := { s.record (.accept m) with nextExpected := s.nextExpected + 1 }
      s.applyInput env sr p m

/-- One pass of the main loop.
SRC: session.cpp:353-450 -/
def mainPass (env : Env) (sr : StartRequest) (s : Session) (p : Pass) : Session :=
  if p.stop then s.teardown env sr p
  else
    match s.pumpOutbox p.pumpMs with
    | (false, s) => s.teardown env sr p
    | (true, s) =>
      if kIdleTimeoutSeconds < p.now - s.lastClientActivity then s.teardown env sr p
      else
        match s.drain env true p.reads with
        | (none, s) => { s with phase := .stuck }
        | (some false, s) => s.teardown env sr p
        | (some true, s) =>
          match inbound p.recv with
          | .closed => s.teardown env sr p
          | .nothing => s
          | .thrown => { s with phase := .thrown }
          | .message m => s.handleMain env sr p m

/-- One pass of the loop that `run_session` is in. -/
def step (env : Env) (sr : StartRequest) (s : Session) (p : Pass) : Session :=
  match s.phase with
  | .handshake => s.handshakePass env sr p
  | .main => s.mainPass env sr p
  | _ => s

end Session

end HaikuAgent.Model.Sessions
