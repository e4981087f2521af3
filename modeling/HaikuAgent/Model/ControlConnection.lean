import HaikuAgent.Model.ControlChannel
import HaikuAgent.Model.SessionChannel

/-!
# The session thread on its control channel (`session.cpp`)

The session thread with the `ws::Client` of the call of `run` that it is in. Each call that comes to
open the channel has a client of its own, which has connected; where what its socket gives ends, the
reads time out.
-/

set_option autoImplicit false

namespace HaikuAgent.Model.ControlConnection

open HaikuAgent.Foundation
open HaikuAgent.Model.Json
open HaikuAgent.Model.ControlChannel
open HaikuAgent.Model.Sessions (Recv)
open HaikuAgent.Model.SessionChannel (recvOf)
open HaikuAgent.Model.WebSocket

/-- What is stamped on an OpenControlChannel message. -/
structure Opening where
  requestId : Bytes
  token : Bytes
  agentVersion : Bytes

/-- SRC: session.cpp:615-620 -/
def Opening.text (o : Opening) : Bytes :=
  dump (objOf
    [(lit "MessageSchemaVersion", .string (lit "1.0")), (lit "RequestId", .string o.requestId),
     (lit "TokenValue", .string o.token), (lit "AgentVersion", .string o.agentVersion),
     (lit "PlatformType", .string (lit "Linux"))])

/-- A client that has connected, and what the reads of its socket will give. -/
structure Channel where
  link : Link
  client : Client
  script : List ReadResult

namespace Channel

def send (ch : Channel) (opcode : UInt8) (payload : Bytes) : Option Bytes × Channel :=
  let (err, client) := ch.client.send ch.link opcode payload
  (err, { ch with client })

/-- `ws.recv`. -/
def recv (ch : Channel) : Recv × Channel :=
  let (received, client, script) := ch.client.recv ch.link ch.script
  ((recvOf received).getD .nothing, { ch with client, script })

end Channel

/-- What one pass of the thread meets, and the channel of a call of `run` that it makes; the `recv` of
the pass is not looked at, and its `opened` says that the channel was created and has connected. -/
structure Turn where
  pass : Pass
  opening : Opening
  channel : Channel

/-- The session thread, and the channel of the call of `run` that it is in. -/
structure OnChannel where
  thread : SessionThread
  channel : Channel

/-- One pass of the loop that the thread is in.
SRC: session.cpp:613-692 -/
def OnChannel.step (strtod : Bytes → Double × ℕ) (w : OnChannel) (t : Turn) : OnChannel :=
  match w.thread.phase with
  | .between =>
    if t.pass.stop ∨ !t.pass.opened then { w with thread := w.thread.step strtod t.pass }
    else
      let (err, channel) := t.channel.send kOpText t.opening.text
      ⟨w.thread.step strtod { t.pass with opened := err.isNone }, channel⟩
  | .serving =>
    if t.pass.stop then
      ⟨w.thread.step strtod t.pass, { w.channel with client := w.channel.client.close w.channel.link }⟩
    else
      let channel := if w.thread.nextPing ≤ t.pass.now then (w.channel.send kOpPing []).2 else w.channel
      let (recv, channel) := channel.recv
      ⟨w.thread.step strtod { t.pass with recv }, channel⟩
  | _ => w

end HaikuAgent.Model.ControlConnection
