import Mathlib.Data.Finset.Basic
import Mathlib.Data.List.AList
import HaikuAgent.Model.JsonParse
import HaikuAgent.Model.Patch

/-!
# The agent and its commands (`main.cpp`)

The poll thread handles one message at a time; every accepted command gets a worker
thread of its own. `step` is one move of the whole: a delivery handled to its end,
a worker's run up to and including its final reply, or a worker's last act,
`inflight.done`. The poll thread alone touches `seen`, and `inflight` is behind a
mutex with one operation in each move, so these moves interleave as the source's do.

An `Attempt` is what came of one use of the credentials and the service; the calls
that reached the service are returned with the new state.
-/

set_option autoImplicit false

namespace HaikuAgent.Model.Commands

open HaikuAgent.Foundation
open HaikuAgent.Model.Json
open HaikuAgent.Model.Runner

/-- SRC: main.cpp:59-62, runner.h:57 -/
def kDedupHistory : ℕ := 512
def kS3CaptureBytes : ℕ := 8 * 1024 * 1024
def defaultMaxCapture : ℕ := 24000

/-- SRC: main.cpp:66-67 -/
def kSendCommandTopic : Bytes := lit "aws.ssm.sendCommand"
def kCancelCommandTopic : Bytes := lit "aws.ssm.cancelCommand"

/-- `aws.ssm.<command-id>.<instance-id>`.
SRC: main.cpp:138-142 -/
def commandIdFrom (messageId : Bytes) : Bytes :=
  let parts := split messageId 46
  if parts.length < 2 then messageId else parts.getD (parts.length - 2) []

/-! ## Remembered commands -/

/-- SRC: main.cpp:146-164 -/
structure SeenCommands where
  set : Finset Bytes
  order : List Bytes

namespace SeenCommands

def empty : SeenCommands := ⟨∅, []⟩

/-- SRC: main.cpp:148 -/
def seen (s : SeenCommands) (id : Bytes) : Bool := id ∈ s.set

/-- SRC: main.cpp:149-157 -/
def add (s : SeenCommands) (id : Bytes) : SeenCommands :=
  if id ∈ s.set then s
  else
    let set := insert id s.set
    let order := s.order ++ [id]
    if kDedupHistory < order.length then
      { set := set.erase (order.headD [])
        order := order.tail }
    else { set, order }

end SeenCommands

/-! ## Commands in flight -/

/-- A cancel token, by the number of the `make_shared` that made it. -/
abbrev Token := ℕ

/-- SRC: main.cpp:168-205 -/
structure InFlight where
  map : AList fun _ : Bytes => Token
  count : ℤ

namespace InFlight

def empty : InFlight := ⟨∅, 0⟩

/-- SRC: main.cpp:170-176 -/
def add (f : InFlight) (commandId : Bytes) (token : Token) : InFlight :=
  { map := f.map.insert commandId token
    count := f.count + 1 }

/-- SRC: main.cpp:177-182 -/
def done (f : InFlight) (commandId : Bytes) : InFlight :=
  { map := f.map.erase commandId
    count := f.count - 1 }

/-- The token `cancel` requests, if there is one.
SRC: main.cpp:183-189 -/
def cancel (f : InFlight) (commandId : Bytes) : Option Token := f.map.lookup commandId

/-- The tokens `cancel_all` requests.
SRC: main.cpp:190-193 -/
def cancelAll (f : InFlight) : List Token := f.map.entries.map Sigma.snd

end InFlight

/-! ## The agent -/

/-- What a worker thread captures, and whether it has made its final reply. -/
structure Worker where
  messageId : Bytes
  commandId : Bytes
  document : Value
  parameters : Value
  s3Bucket : Bytes
  s3Prefix : Bytes
  documentName : Bytes
  token : Token
  replied : Bool

/-- The members the command handling changes, the running workers and the tokens on
which a cancel has been requested.
SRC: main.cpp:207-213 -/
structure Agent where
  seen : SeenCommands
  inflight : InFlight
  workers : List Worker
  requested : Finset Token
  nextToken : Token

def Agent.init : Agent :=
  { seen := .empty
    inflight := .empty
    workers := []
    requested := ∅
    nextToken := 0 }

/-- What does not change while the agent runs. -/
structure Config where
  strtod : Bytes → Double × ℕ
  info : AgentInfo
  instanceId : Bytes

/-! ## Service calls -/

/-- What came of one call: `creds->get` failed and it was not made, or its response. -/
inductive Attempt where
  | noCredentials
  | answered (resp : Http.Response)

def Attempt.accepted : Attempt → Bool
  | .noCredentials => false
  | .answered resp => resp.ok

inductive Call where
  | sendReply (what messageId payload : Bytes) (resp : Http.Response)
  | acknowledge (messageId : Bytes) (resp : Http.Response)
  | failMessage (messageId failureType : Bytes) (resp : Http.Response)
  | putObject (bucket key body : Bytes) (resp : Http.Response)

/-- The labels of the replies, as they are logged.
SRC: main.cpp:308, 323, 331, 373 -/
def replyFailed : Bytes := lit "SendReply(Failed)"
def replyInProgress : Bytes := lit "SendReply(InProgress)"
def replyFinal : Bytes := lit "SendReply(final)"

/-- `Agent::send_reply` with a reply payload made at `nowMs`.
SRC: main.cpp:232-242 -/
def sendReply (cfg : Config) (what messageId status trace : Bytes) (steps : List StepResult)
    (nowMs : ℤ) : Attempt → List Call
  | .noCredentials => []
  | .answered resp =>
    [.sendReply what messageId (replyPayload cfg.info status trace steps nowMs) resp]

def acknowledgeMessage (messageId : Bytes) : Attempt → List Call
  | .noCredentials => []
  | .answered resp => [.acknowledge messageId resp]

def failMessage (messageId failureType : Bytes) : Attempt → List Call
  | .noCredentials => []
  | .answered resp => [.failMessage messageId failureType resp]

/-- One stream of a step, put under `key` unless it is empty.
SRC: main.cpp:261-276 -/
def uploadStream (put : ℕ → Http.Response) (bucket key body : Bytes) (calls : List Call) :
    List Call × Bool :=
  if body = [] then (calls, false)
  else
    let resp := put calls.length
    (calls ++ [.putObject bucket key body resp], resp.ok)

/-- One round of the loop of `upload_outputs`.
SRC: main.cpp:249-281 -/
def uploadStep (cfg : Config) (put : ℕ → Http.Response) (commandId bucket pre : Bytes)
    (acc : List StepResult × List Call) (sr : StepResult) : List StepResult × List Call :=
  let keyPrefix := (if pre = [] then [] else pre ++ lit "/") ++ commandId ++ lit "/" ++
    cfg.instanceId ++ lit "/awsrunShellScript/" ++ sr.pluginId
  let (calls, okOut) := uploadStream put bucket (keyPrefix ++ lit "/stdout") sr.fullStdout acc.2
  let (calls, okErr) := uploadStream put bucket (keyPrefix ++ lit "/stderr") sr.fullStderr calls
  let sr := if okOut || okErr then
      { sr with outputS3Bucket := bucket, outputS3KeyPrefix := keyPrefix }
    else sr
  (acc.1 ++ [sr], calls)

/-- `upload_outputs`; `put` answers the uploads in order.
SRC: main.cpp:246-283 -/
def uploadOutputs (cfg : Config) (put : ℕ → Http.Response) (commandId bucket pre : Bytes)
    (steps : List StepResult) : List StepResult × List Call :=
  if bucket = [] then (steps, [])
  else steps.foldl (uploadStep cfg put commandId bucket pre) ([], [])

/-! ## Messages -/

/-- What the services answer while a message is handled: each handler makes at most one
call of each kind. -/
structure Answers where
  reply : Attempt
  ack : Attempt
  fail : Attempt
  nowMs : ℤ

/-- A payload that cannot be run: reply `Failed`, then fail the message.
SRC: main.cpp:309-318, 324-332 -/
def rejectPayload (cfg : Config) (answers : Answers) (messageId trace : Bytes) : List Call :=
  sendReply cfg replyFailed messageId (lit "Failed") trace [] answers.nowMs answers.reply ++
    failMessage messageId (lit "InternalHandlerException") answers.fail

/-- The checks of `handle_send_command` on the payload: the trace of a payload that is
rejected, or the document and the payload.
SRC: main.cpp:304-332 -/
def acceptPayload (cfg : Config) (msg : Value) : Except Bytes (Value × Value) :=
  let (payload, err) := parse cfg.strtod (msg.strAt (lit "Payload") [])
  if err ≠ [] ∨ ¬payload.isObj then
    .error (lit "haiku-mgmt-agent could not parse the document payload: " ++ err)
  else
    match payload.find (lit "DocumentContent") with
    | some doc =>
      if doc.isObj then .ok (doc, payload)
      else .error (lit "document payload has no DocumentContent object")
    | none => .error (lit "document payload has no DocumentContent object")

/-- The worker of an accepted command, with its token.
SRC: main.cpp:346-357 -/
def makeWorker (messageId commandId : Bytes) (doc payload : Value) (token : Token) : Worker :=
  { messageId
    commandId
    document := doc
    parameters := (payload.find (lit "Parameters")).getD .null
    s3Bucket := payload.strAt (lit "OutputS3BucketName") []
    s3Prefix := payload.strAt (lit "OutputS3KeyPrefix") []
    documentName := payload.strAt (lit "DocumentName") []
    token
    replied := false }

/-- SRC: main.cpp:285-379 -/
def handleSendCommand (cfg : Config) (agent : Agent) (msg : Value) (answers : Answers) :
    Agent × List Call :=
  let messageId := msg.strAt (lit "MessageId") []
  let commandId := commandIdFrom messageId
  if agent.seen.seen commandId then (agent, acknowledgeMessage messageId answers.ack)
  else
    let agent := { agent with seen := agent.seen.add commandId }
    match acceptPayload cfg msg with
    | .error trace => (agent, rejectPayload cfg answers messageId trace)
    | .ok (doc, payload) =>
      let calls := sendReply cfg replyInProgress messageId (lit "InProgress") [] [] answers.nowMs answers.reply ++
        acknowledgeMessage messageId answers.ack
      let token := agent.nextToken
      ({ agent with
          inflight := agent.inflight.add commandId token
          workers := agent.workers ++ [makeWorker messageId commandId doc payload token]
          nextToken := token + 1 }, calls)

/-- The command a cancel message is about.
SRC: main.cpp:382-387 -/
def cancelTarget (cfg : Config) (msg : Value) : Bytes :=
  let messageId := msg.strAt (lit "MessageId") []
  let (payload, _) := parse cfg.strtod (msg.strAt (lit "Payload") [])
  let target := if payload.isObj then payload.strAt (lit "CancelMessageId") [] else []
  commandIdFrom (if target = [] then messageId else target)

/-- SRC: main.cpp:381-400 -/
def handleCancelCommand (cfg : Config) (agent : Agent) (msg : Value) (answers : Answers) :
    Agent × List Call :=
  let messageId := msg.strAt (lit "MessageId") []
  let agent := match agent.inflight.cancel (cancelTarget cfg msg) with
    | some token => { agent with requested := insert token agent.requested }
    | none => agent
  (agent, acknowledgeMessage messageId answers.ack)

/-- SRC: main.cpp:402-425 -/
def handleMessage (cfg : Config) (agent : Agent) (msg : Value) (answers : Answers) :
    Agent × List Call :=
  let messageId := msg.strAt (lit "MessageId") []
  let topic := msg.strAt (lit "Topic") []
  if messageId = [] ∨ topic = [] then (agent, [])
  else if startsWith topic kSendCommandTopic then handleSendCommand cfg agent msg answers
  else if startsWith topic kCancelCommandTopic then handleCancelCommand cfg agent msg answers
  else (agent, failMessage messageId (lit "InternalHandlerException") answers.fail)

/-! ## Workers -/

/-- What a worker meets on its way to the final reply. -/
structure WorkerRun where
  host : Host
  patchCredentials : Bool
  putInventory : Value → Http.Response
  upload : ℕ → Http.Response
  reply : Attempt
  nowMs : ℤ

/-- The outcome of the worker's document.
SRC: main.cpp:358-374 -/
def workerOutcome (cfg : Config) (w : Worker) (run : WorkerRun) : DocumentOutcome :=
  if Patch.isPatchDocument w.documentName then
    (Patch.runBaseline run.host
      { commandId := w.commandId
        reportInventory := true
        credentials := run.patchCredentials
        put := run.putInventory } w.parameters Log.empty).outcome
  else
    (runDocument cfg.strtod run.host (if w.s3Bucket = [] then defaultMaxCapture else kS3CaptureBytes)
      w.document w.parameters Log.empty).1

/-- The worker's calls up to its final reply.
SRC: main.cpp:358-378 -/
def workerCalls (cfg : Config) (w : Worker) (run : WorkerRun) : List Call :=
  let outcome := workerOutcome cfg w run
  let (steps, uploads) := uploadOutputs cfg run.upload w.commandId w.s3Bucket w.s3Prefix outcome.steps
  uploads ++ sendReply cfg replyFinal w.messageId outcome.status outcome.trace steps run.nowMs run.reply

/-! ## The system -/

inductive Event where
  | deliver (msg : Value) (answers : Answers)
  | reply (token : Token) (run : WorkerRun)
  | done (token : Token)
  | cancelAll

/-- The worker holding a token. -/
def workerOf (agent : Agent) (token : Token) : Option Worker :=
  agent.workers.find? fun w => w.token = token

/-- One move of the agent. A worker replies once, and ends after its reply; a move that
is not possible changes nothing. -/
def step (cfg : Config) (agent : Agent) : Event → Agent × List Call
  | .deliver msg answers => handleMessage cfg agent msg answers
  | .reply token run =>
    match workerOf agent token with
    | some w =>
      if w.replied then (agent, [])
      else
        ({ agent with
            workers := agent.workers.map fun x =>
              if x.token = token then { x with replied := true } else x },
          workerCalls cfg w run)
    | none => (agent, [])
  | .done token =>
    match workerOf agent token with
    | some w =>
      if w.replied then
        ({ agent with
            inflight := agent.inflight.done w.commandId
            workers := agent.workers.filter fun x => x.token ≠ token }, [])
      else (agent, [])
    | none => (agent, [])
  | .cancelAll =>
    ({ agent with requested := agent.requested ∪ agent.inflight.cancelAll.toFinset }, [])

end HaikuAgent.Model.Commands
