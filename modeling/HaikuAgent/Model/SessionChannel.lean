import HaikuAgent.Model.Sessions
import HaikuAgent.Model.WebSocket

/-!
# A session on its channel (`session.cpp`)

`run_session` with the `ws::Client` that it talks through. A message is one call of `ws.send`, in the
order of the session's log, and what a pass receives is what `ws.recv` makes of what the socket gives.
What `ws.send` returns for a message of the session is told by its `Env`.
-/

set_option autoImplicit false

namespace HaikuAgent.Model.SessionChannel

open HaikuAgent.Foundation
open HaikuAgent.Model.Json
open HaikuAgent.Model.Mgs
open HaikuAgent.Model.Sessions
open HaikuAgent.Model.WebSocket

/-! ## What is sent -/

/-- The frame that goes to `ws.send`. -/
def frameOf (env : Env) : Action → Option Bytes
  | .stream m => some (serialize env.sha256Raw m)
  | .control m => some (serialize env.sha256Raw m)
  | .resend frame => some frame
  | _ => none

/-- The frames given to `ws.send`. -/
def frames (env : Env) (s : Session) : List Bytes := s.log.filterMap (frameOf env)

/-- Those that `t` has sent after it was `s`. -/
def framesSince (env : Env) (s t : Session) : List Bytes := (t.log.drop s.log.length).filterMap (frameOf env)

/-- `ws.send(ws::kOpBinary, …)` of one frame after the other. -/
def sendEach (link : Link) (c : Client) (frames : List Bytes) : Client :=
  frames.foldl (fun c frame => (c.send link kOpBinary frame).2) c

/-- What is stamped on an OpenDataChannel message. -/
structure Opening where
  requestId : Bytes
  token : Bytes
  instanceId : Bytes
  clientId : Bytes

/-- SRC: session.cpp:234-239 -/
def Opening.text (o : Opening) : Bytes :=
  dump (objOf
    [(lit "MessageSchemaVersion", .string (lit "1.0")), (lit "RequestId", .string o.requestId),
     (lit "TokenValue", .string o.token), (lit "ClientInstanceId", .string o.instanceId),
     (lit "ClientId", .string o.clientId)])

/-! ## What is received -/

/-- What a call of `ws.recv` gives its caller, if it returns. -/
def recvOf : Received → Option Recv
  | .message f => some (.frame f)
  | .timeout => some .nothing
  | .failed _ => some .closed
  | .waiting => none

/-- A phase that is one of the loops of `run_session`. -/
def Goes (phase : Phase) : Prop := phase = .handshake ∨ phase = .main

instance decidableGoes (phase : Phase) : Decidable (Goes phase) := inferInstanceAs (Decidable (_ ∨ _))

/-- The pass, given this by its `ws.recv`. -/
def given (p : Pass) (recv : Recv) : Pass := { p with recv }

/-! ## The session and its client -/

/-- A session, its client, and what the reads of the client's socket will give. -/
structure DataChannel where
  session : Session
  client : Client
  script : List ReadResult

namespace DataChannel

/-- What `run_session` does up to its loops, on a client that has connected.
SRC: session.cpp:231-276 -/
def start (link : Link) (env : Env) (sr : StartRequest) (o : Opening) (now : ℤ) (c : Client)
    (script : List ReadResult) : DataChannel :=
  match c.send link kOpText o.text with
  | (some _, c) => ⟨Session.start env sr false now, c, script⟩
  | (none, c) =>
    let s := Session.start env sr true now
    ⟨s, sendEach link c (frames env s), script⟩

/-- The session as it comes to `ws.recv`: up to there a pass goes as one to which the channel gives
nothing. -/
def quiet (env : Env) (sr : StartRequest) (w : DataChannel) (p : Pass) : Session :=
  w.session.step env sr (given p .nothing)

/-- The client as it comes to `ws.recv`. -/
def sending (link : Link) (env : Env) (sr : StartRequest) (w : DataChannel) (p : Pass) : Client :=
  sendEach link w.client (framesSince env w.session (w.quiet env sr p))

/-- What follows `ws.recv`. -/
def receive (link : Link) (env : Env) (sr : StartRequest) (w : DataChannel) (p : Pass) :
    Received × Client × List ReadResult → DataChannel
  | (received, c, script) =>
    let s := w.quiet env sr p
    match recvOf received with
    | none => ⟨{ s with phase := .stuck }, c, script⟩
    | some recv =>
      let t := w.session.step env sr (given p recv)
      ⟨t, sendEach link c (framesSince env s t), script⟩

/-- One pass of the loop that `run_session` is in; its `recv` is not looked at. It comes to `ws.recv` if
it has not left its loop by then.
SRC: session.cpp:277-320, 353-450 -/
def step (link : Link) (env : Env) (sr : StartRequest) (w : DataChannel) (p : Pass) : DataChannel :=
  let s := w.quiet env sr p
  let c := w.sending link env sr p
  if Goes w.session.phase ∧ s.phase = w.session.phase then w.receive link env sr p (c.recv link w.script)
  else ⟨s, c, w.script⟩

end DataChannel

end HaikuAgent.Model.SessionChannel
