import HaikuAgent.Analysis.AgentMoves
import HaikuAgent.Analysis.JsonRoundTrip
import HaikuAgent.Analysis.TransferRetries
import HaikuAgent.Model.PollLoop

/-!
# From the service to the worker

An `Order` is a command as the service has it. It reaches the agent in a message of a list of a JSON
text, as JSON in a string of the message, whatever else these texts hold (`Carries`). `place` is what
it means for the agent, without any text: a poll does for each order of its answer what `place` says,
once and in order, whatever the workers do meanwhile (`polls_place`).
-/

set_option autoImplicit false

namespace HaikuAgent.Analysis.OrdersDelivered

open HaikuAgent.Foundation
open HaikuAgent.Model
open HaikuAgent.Model.Json
open HaikuAgent.Model.Commands
open HaikuAgent.Model.PollLoop
open HaikuAgent.Interface.JsonText
open HaikuAgent.Analysis.AgentMoves
open HaikuAgent.Analysis.JsonGrammar (parse_of_means)
open HaikuAgent.Analysis.JsonRoundTrip
open HaikuAgent.Analysis.TransferRetries (noDigests)

/-! ## Orders and their text -/

/-- A command; its ids hold no dot. -/
structure Order where
  commandId : Bytes
  instanceId : Bytes
  documentName : Bytes
  s3Bucket : Bytes
  s3Prefix : Bytes
  document : List (Bytes × Value)
  parameters : List (Bytes × Value)
  command_dotless : (46 : UInt8) ∉ commandId
  instance_dotless : (46 : UInt8) ∉ instanceId

def Order.messageId (o : Order) : Bytes := lit "aws.ssm." ++ o.commandId ++ lit "." ++ o.instanceId

/-- What the payload says of the order, among other fields. -/
structure Describes (payload : Value) (o : Order) : Prop where
  document : payload.find (lit "DocumentContent") = some (.obj o.document)
  parameters : payload.find (lit "Parameters") = some (.obj o.parameters)
  documentName : TextField payload (lit "DocumentName") o.documentName
  bucket : TextField payload (lit "OutputS3BucketName") o.s3Bucket
  keyPrefix : TextField payload (lit "OutputS3KeyPrefix") o.s3Prefix

/-- The message carries the order: JSON in one of its strings, among other fields. -/
structure Carries (strtod : Bytes → Double × ℕ) (message : Value) (o : Order) : Prop where
  messageId : message.find (lit "MessageId") = some (.string o.messageId)
  topic : ∃ rest, message.find (lit "Topic") = some (.string (kSendCommandTopic ++ rest))
  payload : ∃ text payload, message.find (lit "Payload") = some (.string text) ∧ Means strtod text payload ∧
    Describes payload o

/-- A message as it is meant: an order, or one that carries none. -/
inductive Mail (strtod : Bytes → Double × ℕ) where
  | order (o : Order)
  | other (message : Value) (hcarries : ∀ o, ¬Carries strtod message o)

/-- The message is the mail. -/
def Mail.Brings {strtod : Bytes → Double × ℕ} : Mail strtod → Value → Prop
  | .order o, message => Carries strtod message o
  | .other m _, message => message = m

/-- The text is a JSON answer to `GetMessages` with these messages in it. -/
def HoldsMail (strtod : Bytes → Double × ℕ) (text : Bytes) (mail : List (Mail strtod)) : Prop :=
  ∃ answer messages, Means strtod text answer ∧ answer.find (lit "Messages") = some (.arr messages) ∧
    List.Forall₂ Mail.Brings mail messages

/-- The worker of an order. -/
def Order.worker (o : Order) (token : Token) : Worker :=
  { messageId := o.messageId
    commandId := o.commandId
    document := .obj o.document
    parameters := .obj o.parameters
    s3Bucket := o.s3Bucket
    s3Prefix := o.s3Prefix
    documentName := o.documentName
    token
    replied := false }

/-- What an order means for the agent: a new command gets a worker. -/
def place (agent : Agent) (o : Order) : Agent :=
  if o.commandId ∈ agent.seen.set then agent
  else
    { agent with
      seen := agent.seen.add o.commandId
      inflight := agent.inflight.add o.commandId agent.nextToken
      workers := agent.workers ++ [o.worker agent.nextToken]
      nextToken := agent.nextToken + 1 }

/-! ## What is read -/

/-- The command id is read out of the message id. -/
theorem commandIdFrom_messageId (o : Order) : commandIdFrom o.messageId = o.commandId := by
  have htext : o.messageId = lit "aws" ++ 46 :: (lit "ssm" ++ 46 :: (o.commandId ++ 46 :: o.instanceId)) := by
    have hhead : lit "aws.ssm." = lit "aws" ++ 46 :: (lit "ssm" ++ [46]) := by decide
    have hdot : lit "." = [46] := by decide
    unfold Order.messageId
    rw [hhead, hdot]
    simp only [List.append_assoc, List.cons_append, List.nil_append]
  have hsplit : split o.messageId 46 = [lit "aws", lit "ssm", o.commandId, o.instanceId] := by
    rw [htext, split, List.splitOn_append_cons_self_of_not_mem (by decide),
      List.splitOn_append_cons_self_of_not_mem (by decide),
      List.splitOn_append_cons_self_of_not_mem o.command_dotless, List.splitOn_eq_singleton o.instance_dotless]
  rw [commandIdFrom, hsplit]
  rfl

/-- A key that holds a string is read as that string. -/
theorem strAt_of_find {v : Value} {key s : Bytes} (h : v.find key = some (.string s)) : v.strAt key [] = s :=
  TextField.strAt (.inl h)

section Reading

variable {strtod : Bytes → Double × ℕ} {message : Value} {o : Order}

/-- The message is handled as a command with the order's id. -/
theorem sendCommandId_carries (h : Carries strtod message o) : sendCommandId message = some o.commandId := by
  obtain ⟨rest, htopic⟩ := h.topic
  have hhead : lit "aws.ssm." = 97 :: lit "ws.ssm." := by decide
  rw [sendCommandId, strAt_of_find h.messageId, strAt_of_find htopic, if_pos, commandIdFrom_messageId]
  refine ⟨?_, List.isPrefixOf_iff_prefix.mpr (List.prefix_append _ _)⟩
  unfold Order.messageId
  rw [hhead]
  exact List.cons_ne_nil _ _

/-- The payload is accepted, with the document in it. -/
theorem acceptPayload_carries {cfg : Config} (hcfg : cfg.strtod = strtod) (h : Carries strtod message o) :
    ∃ payload, acceptPayload cfg message = .ok (.obj o.document, payload) ∧ Describes payload o := by
  obtain ⟨text, payload, hfield, hmeans, hdescribes⟩ := h.payload
  refine ⟨payload, ?_, hdescribes⟩
  have hobj : payload.isObj = true := by
    cases payload with
    | obj entries => rfl
    | null => cases hdescribes.document
    | bool b => cases hdescribes.document
    | number n integral => cases hdescribes.document
    | string s => cases hdescribes.document
    | arr elems => cases hdescribes.document
  unfold acceptPayload
  rw [hcfg, strAt_of_find hfield, parse_of_means strtod hmeans]
  dsimp only
  rw [if_neg (by simp [hobj]), hdescribes.document]
  rfl

/-- The worker has what the order says. -/
theorem makeWorker_carries (h : Carries strtod message o) {payload : Value} (hpayload : Describes payload o)
    (token : Token) :
    makeWorker (message.strAt (lit "MessageId") []) o.commandId (.obj o.document) payload token = o.worker token := by
  unfold makeWorker Order.worker
  rw [strAt_of_find h.messageId, hpayload.parameters, hpayload.documentName.strAt, hpayload.bucket.strAt,
    hpayload.keyPrefix.strAt]
  rfl

/-- **The step**: an order delivered as text is placed. -/
theorem next_carries {cfg : Config} (hcfg : cfg.strtod = strtod) (agent : Agent) (h : Carries strtod message o)
    (answers : Answers) : next cfg agent (.deliver message answers) = place agent o := by
  have hid := sendCommandId_carries h
  unfold place
  split_ifs with hseen
  · have hmove := step_moves cfg agent (.deliver message answers)
    unfold next
    generalize step cfg agent (.deliver message answers) = outcome at hmove ⊢
    obtain ⟨agent', calls⟩ := outcome
    dsimp only at hmove ⊢
    cases hmove with
    | duplicate => rfl
    | reject _ _ id _ hid' hnew =>
      rw [hid] at hid'
      cases hid'
      exact absurd hseen hnew
    | start _ _ id _ _ hid' hnew =>
      rw [hid] at hid'
      cases hid'
      exact absurd hseen hnew
    | cancel _ _ _ hid' =>
      rw [hid] at hid'
      cases hid'
    | other => rfl
    | idle => rfl
  · obtain ⟨payload, haccepted, hdescribes⟩ := acceptPayload_carries hcfg h
    unfold next
    rw [step_start cfg agent message answers o.commandId _ _ hid hseen haccepted, makeWorker_carries h hdescribes]

end Reading

/-! ## A poll -/

/-- What happens while a poll handles its answer, with the orders as they are meant. -/
inductive Happening where
  | order (o : Order)
  /-- a message that carries no order, or a move of a worker or of another thread -/
  | other (e : Event)

def happen (cfg : Config) (agent : Agent) : Happening → Agent
  | .order o => place agent o
  | .other e => next cfg agent e

/-- What a message makes happen, the services giving these answers while it is handled. -/
def Mail.happening {strtod : Bytes → Double × ℕ} (answers : Answers) : Mail strtod → Happening
  | .order o => .order o
  | .other m _ => .other (.deliver m answers)

/-- The messages of an answer up to a stop, each after what others do before it. -/
def placed {strtod : Bytes → Double × ℕ} (c : Cycle) : ℕ → List (Mail strtod) → List Happening
  | _, [] => []
  | i, m :: mail =>
    if c.stop i then [] else (c.others i).map .other ++ m.happening (c.answers i) :: placed c (i + 1) mail

/-- Passes without an event are the agent's own moves. -/
theorem run_others (cfg : Config) (agent : Agent) (events : List Event) :
    runFrom (happen cfg) agent (events.map .other) = runFrom (next cfg) agent events := by
  induction events generalizing agent with
  | nil => rfl
  | cons e events ih => exact ih (next cfg agent e)

/-- A message does what it means. -/
theorem next_brings {cfg : Config} (agent : Agent) {m : Mail cfg.strtod} {message : Value} (h : m.Brings message)
    (answers : Answers) : next cfg agent (.deliver message answers) = happen cfg agent (m.happening answers) := by
  cases m with
  | order o => exact next_carries rfl agent h answers
  | other m' _ => exact congrArg (fun msg => next cfg agent (.deliver msg answers)) h

/-- The loop over the messages does what they mean. -/
theorem run_handled {cfg : Config} (c : Cycle) {mail : List (Mail cfg.strtod)} {messages : List Value}
    (h : List.Forall₂ Mail.Brings mail messages) (i : ℕ) (agent : Agent) :
    runFrom (next cfg) agent (handled c i messages) = runFrom (happen cfg) agent (placed c i mail) := by
  induction h generalizing i agent with
  | nil => rfl
  | cons hfirst _ ih =>
    unfold handled placed
    split_ifs
    · rfl
    · rw [runFrom_append, runFrom_append, run_others, runFrom_cons, runFrom_cons, next_brings _ hfirst]
      exact ih (i + 1) _

/-- The messages that a poll's answer holds; a poll that is not answered has none. -/
def Holds (cfg : Config) (digests : Signing.Digests) (region : Bytes) (cached : CredentialProvider.Credentials)
    (c : Cycle) (mail : List (Mail cfg.strtod)) : Prop :=
  let got := CredentialProvider.get cfg.strtod cached c.call
  if got.ok = true ∧ (getMessages digests region cfg.instanceId got.out c).ok = true then
    HoldsMail cfg.strtod (getMessages digests region cfg.instanceId got.out c).body mail
  else mail = []

/-- What a poll does to the agent is what its messages mean. -/
theorem run_polled {cfg : Config} {digests : Signing.Digests} {region : Bytes}
    {cached : CredentialProvider.Credentials} {c : Cycle} {mail : List (Mail cfg.strtod)}
    (h : Holds cfg digests region cached c mail) (agent : Agent) :
    runFrom (next cfg) agent (pollOnce cfg.strtod digests region cfg.instanceId cached c).events =
      runFrom (happen cfg) agent (placed c 0 mail) := by
  unfold Holds at h
  unfold pollOnce
  dsimp only at h ⊢
  split_ifs at h with hanswered
  · obtain ⟨answer, messages, hmeans, hfield, hbrings⟩ := h
    rw [hanswered.1, hanswered.2, if_neg (by decide), if_neg (by decide), messagesOf, parse_of_means _ hmeans]
    dsimp only
    rw [if_neg (not_not.mpr rfl), hfield]
    exact run_handled c hbrings 0 agent
  · rw [h]
    by_cases hok : (CredentialProvider.get cfg.strtod cached c.call).ok = true
    · have hfailed : ¬(getMessages digests region cfg.instanceId
          (CredentialProvider.get cfg.strtod cached c.call).out c).ok = true := fun hresp => hanswered ⟨hok, hresp⟩
      rw [Bool.not_eq_true] at hfailed
      rw [hok, hfailed, if_neg (by decide), if_pos rfl]
      rfl
    · rw [Bool.not_eq_true] at hok
      rw [hok, if_pos rfl]
      rfl

/-! ## The loop -/

/-- A round of the loop: what workers do while the poll waits, the poll, and what it is answered with. -/
structure Round (cfg : Config) where
  moves : List Event
  turn : Turn
  mail : List (Mail cfg.strtod)

variable {cfg : Config}

/-- The agent and the provider's cache after a round. -/
def Round.next (digests : Signing.Digests) (region : Bytes) (w : Agent × CredentialProvider.Credentials) (r : Round cfg) :
    Agent × CredentialProvider.Credentials :=
  (runFrom (AgentMoves.next cfg) w.1
    (r.moves ++ (r.turn.polled cfg.strtod digests region cfg.instanceId w.2).events),
   r.turn.next cfg.strtod digests region cfg.instanceId w.2)

/-- The round's poll is answered with its messages. -/
def Round.Answered (digests : Signing.Digests) (region : Bytes) (w : Agent × CredentialProvider.Credentials)
    (r : Round cfg) : Prop :=
  Holds cfg digests region (r.turn.cached cfg.strtod w.2) r.turn.cycle r.mail

def Round.happenings (r : Round cfg) : List Happening := r.moves.map .other ++ placed r.turn.cycle 0 r.mail

/-- **The loop places the orders it is answered with**, each once and in order, as they were given
to the service: neither the JSON in JSON that carries them nor what other threads do in between
changes the documents, parameters and names of the workers.
SRC: main.cpp:285-379, 402-458, 804-813 -/
theorem polls_place (cfg : Config) (digests : Signing.Digests) (region : Bytes) (agent : Agent)
    (cached : CredentialProvider.Credentials) (rounds : List (Round cfg))
    (hanswered : AllSteps (Round.next digests region) (Round.Answered digests region) (agent, cached) rounds) :
    (runFrom (Round.next digests region) (agent, cached) rounds).1 =
      runFrom (happen cfg) agent (rounds.flatMap Round.happenings) := by
  induction rounds generalizing agent cached with
  | nil => rfl
  | cons r rounds ih =>
    obtain ⟨hround, hrest⟩ := (allSteps_cons _ _ _ _ _).mp hanswered
    have hfirst : (Round.next digests region (agent, cached) r).1 = runFrom (happen cfg) agent r.happenings := by
      unfold Round.next Round.happenings Turn.polled
      rw [runFrom_append, runFrom_append, run_others]
      exact run_polled hround _
    rw [runFrom_cons, List.flatMap_cons, runFrom_append, ← hfirst]
    exact ih _ _ hrest

/-! ## An order and a cancel -/

def exampleConfig : Config :=
  { strtod := decimalStrtod
    info := ⟨[], [], [], [], []⟩
    instanceId := lit "i-1" }

def exampleOrder : Order :=
  { commandId := lit "c-1"
    instanceId := lit "i-1"
    documentName := lit "AWS-RunShellScript"
    s3Bucket := []
    s3Prefix := []
    document := [(lit "schemaVersion", .string (lit "2.2"))]
    parameters := []
    command_dotless := by decide
    instance_dotless := by decide }

/-- The payload has fields that the agent does not read, and none for S3. -/
def examplePayload : Value :=
  .obj
    [(lit "CloudWatchOutputEnabled", .string (lit "false")), (lit "CommandId", .string (lit "c-1")),
     (lit "DocumentContent", .obj exampleOrder.document), (lit "DocumentName", .string exampleOrder.documentName),
     (lit "Parameters", .obj [])]

def exampleMessage : Value :=
  .obj
    [(lit "CreatedDate", .string (lit "2024-05-01")), (lit "MessageId", .string exampleOrder.messageId),
     (lit "Payload", .string (dump examplePayload)), (lit "Topic", .string (lit "aws.ssm.sendCommand.us.east"))]

/-- A message with another topic. -/
def exampleCancel : Value :=
  .obj [(lit "MessageId", .string exampleOrder.messageId), (lit "Topic", .string (lit "aws.ssm.cancelCommand.us.east"))]

def exampleAnswer : Value :=
  .obj [(lit "Destination", .string (lit "i-1")), (lit "Messages", .arr [exampleMessage, exampleCancel])]

/-- The example message carries the example order. -/
theorem exampleMessage_carries : Carries decimalStrtod exampleMessage exampleOrder := by
  have hpayload : Lossless examplePayload := by
    have hkeys : [lit "CloudWatchOutputEnabled", lit "CommandId", lit "DocumentContent", lit "DocumentName",
        lit "Parameters"].Pairwise (· < ·) := by decide +kernel
    simp only [examplePayload, exampleOrder, Lossless, LosslessEntries, List.map_cons, List.map_nil, and_true, true_and]
    exact ⟨hkeys, List.pairwise_singleton _ _, List.Pairwise.nil⟩
  have htopic : lit "aws.ssm.sendCommand.us.east" = kSendCommandTopic ++ lit ".us.east" := by decide +kernel
  refine ⟨rfl, ⟨lit ".us.east", by rw [← htopic]; rfl⟩, dump examplePayload, examplePayload, rfl,
    means_dump _ decimalStrtod_reads _ hpayload, rfl, rfl, .inl rfl, .inr ⟨rfl, rfl⟩, .inr ⟨rfl, rfl⟩⟩

/-- A cancellation carries no order. -/
theorem exampleCancel_carries (o : Order) : ¬Carries decimalStrtod exampleCancel o := by
  intro h
  obtain ⟨text, payload, hfield, -⟩ := h.payload
  cases hfield

/-- The poll that is answered with both. -/
def exampleRound : Round exampleConfig :=
  { moves := []
    turn :=
      { before := []
        cycle :=
          { started := 0
            ended := 20000
            imds := fun _ => []
            now := 0
            later := 0
            signedAt := 0
            requestId := []
            perform := fun _ => ⟨200, dump exampleAnswer, []⟩
            stop := fun _ => false
            others := fun _ => []
            answers := fun _ => ⟨.noCredentials, .noCredentials, .noCredentials, 0⟩ }
        during := [] }
    mail := [.order exampleOrder, .other exampleCancel exampleCancel_carries] }

/-- The order is placed, and then cancelled. -/
theorem exampleRound_places :
    (runFrom (Round.next noDigests (lit "us-east-1")) (Agent.init, ⟨⟨lit "key", lit "secret", []⟩, 0⟩) [exampleRound]).1 =
      next exampleConfig (place Agent.init exampleOrder)
        (.deliver exampleCancel ⟨.noCredentials, .noCredentials, .noCredentials, 0⟩) := by
  refine polls_place exampleConfig noDigests (lit "us-east-1") Agent.init ⟨⟨lit "key", lit "secret", []⟩, 0⟩
    [exampleRound] ?_
  refine (allSteps_cons _ _ _ _ _).mpr ⟨?_, fun l e hl => absurd (List.prefix_nil.mp hl) (by simp)⟩
  have hanswer : Lossless exampleAnswer := by
    have hkeys : [lit "CreatedDate", lit "MessageId", lit "Payload", lit "Topic"].Pairwise (· < ·) := by decide +kernel
    have hcancel : [lit "MessageId", lit "Topic"].Pairwise (· < ·) := by decide +kernel
    have houter : [lit "Destination", lit "Messages"].Pairwise (· < ·) := by decide +kernel
    simp only [exampleAnswer, exampleMessage, exampleCancel, Lossless, LosslessEntries, LosslessElems, List.map_cons,
      List.map_nil, and_true, true_and]
    exact ⟨houter, hkeys, hcancel⟩
  unfold Round.Answered Holds
  dsimp only
  rw [if_pos ⟨rfl, rfl⟩]
  exact ⟨exampleAnswer, [exampleMessage, exampleCancel], means_dump _ decimalStrtod_reads _ hanswer, rfl,
    .cons exampleMessage_carries (.cons rfl .nil)⟩

end HaikuAgent.Analysis.OrdersDelivered
