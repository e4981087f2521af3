import HaikuAgent.Foundation.Runs
import HaikuAgent.Model.Commands

/-!
# What one move of the agent can do

`Moves` lists the kinds of moves, each with its guard, the state it leaves and the
calls it makes; `step_moves` says that every step is one of them. The invariants of
the modules that follow are proved by cases on `Moves`, and do not unfold `step`.
-/

set_option autoImplicit false

namespace HaikuAgent.Analysis.AgentMoves

open HaikuAgent.Foundation
open HaikuAgent.Model
open HaikuAgent.Model.Json
open HaikuAgent.Model.Commands

/-- The command id of a message that is handled as a `SendCommand`. -/
def sendCommandId (msg : Value) : Option Bytes :=
  if msg.strAt (lit "MessageId") [] ≠ [] ∧ startsWith (msg.strAt (lit "Topic") []) kSendCommandTopic then
    some (commandIdFrom (msg.strAt (lit "MessageId") []))
  else none

/-- The kinds of moves. -/
inductive Moves (cfg : Config) (agent : Agent) : Event → Agent → List Call → Prop where
  /-- a redelivery of a remembered command -/
  | duplicate (msg : Value) (answers : Answers) (id : Bytes) (hid : sendCommandId msg = some id)
      (hseen : id ∈ agent.seen.set) :
      Moves cfg agent (.deliver msg answers) agent
        (acknowledgeMessage (msg.strAt (lit "MessageId") []) answers.ack)
  /-- a command whose payload cannot be run -/
  | reject (msg : Value) (answers : Answers) (id trace : Bytes) (hid : sendCommandId msg = some id)
      (hseen : id ∉ agent.seen.set) (hpayload : acceptPayload cfg msg = .error trace) :
      Moves cfg agent (.deliver msg answers) { agent with seen := agent.seen.add id }
        (rejectPayload cfg answers (msg.strAt (lit "MessageId") []) trace)
  /-- a command that gets a worker -/
  | start (msg : Value) (answers : Answers) (id : Bytes) (doc payload : Value)
      (hid : sendCommandId msg = some id) (hseen : id ∉ agent.seen.set)
      (hpayload : acceptPayload cfg msg = .ok (doc, payload)) :
      Moves cfg agent (.deliver msg answers)
        { agent with
          seen := agent.seen.add id
          inflight := agent.inflight.add id agent.nextToken
          workers := agent.workers ++
            [makeWorker (msg.strAt (lit "MessageId") []) id doc payload agent.nextToken]
          nextToken := agent.nextToken + 1 }
        (sendReply cfg replyInProgress (msg.strAt (lit "MessageId") []) (lit "InProgress") [] []
            answers.nowMs answers.reply ++
          acknowledgeMessage (msg.strAt (lit "MessageId") []) answers.ack)
  /-- a cancel that reaches a token -/
  | cancel (msg : Value) (answers : Answers) (token : Token) (hid : sendCommandId msg = none)
      (htoken : agent.inflight.cancel (cancelTarget cfg msg) = some token) :
      Moves cfg agent (.deliver msg answers)
        { agent with requested := insert token agent.requested }
        (acknowledgeMessage (msg.strAt (lit "MessageId") []) answers.ack)
  /-- any other message: nothing changes, and no reply is sent -/
  | other (msg : Value) (answers : Answers) (calls : List Call) (hid : sendCommandId msg = none)
      (hcalls : ∀ what messageId payload resp, Call.sendReply what messageId payload resp ∉ calls) :
      Moves cfg agent (.deliver msg answers) agent calls
  /-- a worker's final reply -/
  | reply (token : Token) (run : WorkerRun) (w : Worker) (hw : workerOf agent token = some w)
      (hreplied : w.replied = false) :
      Moves cfg agent (.reply token run)
        { agent with
          workers := agent.workers.map fun x =>
            if x.token = token then { x with replied := true } else x }
        (workerCalls cfg w run)
  /-- a worker's end -/
  | finish (token : Token) (w : Worker) (hw : workerOf agent token = some w)
      (hreplied : w.replied = true) :
      Moves cfg agent (.done token)
        { agent with
          inflight := agent.inflight.done w.commandId
          workers := agent.workers.filter fun x => x.token ≠ token } []
  /-- a worker's move that is not possible -/
  | idle (e : Event) (he : ∀ msg answers, e ≠ .deliver msg answers)
      (hreply : ∀ token run w, e = .reply token run → workerOf agent token = some w →
        w.replied = true) : Moves cfg agent e agent []
  | cancelAll :
      Moves cfg agent .cancelAll
        { agent with requested := agent.requested ∪ agent.inflight.cancelAll.toFinset } []

variable (cfg : Config) (agent : Agent)

/-- Neither an acknowledgement nor a failure report of a message is a reply. -/
private theorem not_sendReply_of_mem (messageId : Bytes) (attempt : Attempt) (failureType : Bytes) :
    (∀ what m payload resp, Call.sendReply what m payload resp ∉ acknowledgeMessage messageId attempt) ∧
    (∀ what m payload resp,
      Call.sendReply what m payload resp ∉ failMessage messageId failureType attempt) := by
  cases attempt with
  | noCredentials => simp [acknowledgeMessage, failMessage]
  | answered resp => simp [acknowledgeMessage, failMessage]

/-- A command is rejected, started or known. -/
private theorem handleSendCommand_moves (msg : Value) (answers : Answers) (id : Bytes)
    (hid : sendCommandId msg = some id) (hmsg : commandIdFrom (msg.strAt (lit "MessageId") []) = id) :
    Moves cfg agent (.deliver msg answers) (handleSendCommand cfg agent msg answers).1
      (handleSendCommand cfg agent msg answers).2 := by
  unfold handleSendCommand
  simp only [hmsg]
  by_cases hseen : id ∈ agent.seen.set
  · rw [if_pos (by simpa [SeenCommands.seen] using hseen)]
    exact .duplicate msg answers id hid hseen
  · rw [if_neg (by simpa [SeenCommands.seen] using hseen)]
    cases hpayload : acceptPayload cfg msg with
    | error trace => exact .reject msg answers id trace hid hseen hpayload
    | ok accepted =>
      obtain ⟨doc, payload⟩ := accepted
      exact .start msg answers id doc payload hid hseen hpayload

/-- A message that is no command starts and replies nothing. -/
private theorem handleCancelCommand_moves (msg : Value) (answers : Answers)
    (hid : sendCommandId msg = none) :
    Moves cfg agent (.deliver msg answers) (handleCancelCommand cfg agent msg answers).1
      (handleCancelCommand cfg agent msg answers).2 := by
  unfold handleCancelCommand
  simp only
  cases htoken : agent.inflight.cancel (cancelTarget cfg msg) with
  | none => exact .other msg answers _ hid (not_sendReply_of_mem _ _ []).1
  | some token => exact .cancel msg answers token hid htoken

/-- Every step is one of the moves. -/
theorem step_moves (e : Event) : Moves cfg agent e (step cfg agent e).1 (step cfg agent e).2 := by
  cases e with
  | deliver msg answers =>
    change Moves cfg agent _ (handleMessage cfg agent msg answers).1
      (handleMessage cfg agent msg answers).2
    unfold handleMessage
    simp only
    split_ifs with hempty hsend hcancel
    · refine .other msg answers [] ?_ (by simp)
      have hnot : ¬(msg.strAt (lit "MessageId") [] ≠ [] ∧
          startsWith (msg.strAt (lit "Topic") []) kSendCommandTopic) := by
        rintro ⟨hid, htopic⟩
        rcases hempty with h | h
        · exact hid h
        · rw [h] at htopic
          revert htopic
          decide
      rw [sendCommandId, if_neg hnot]
    · push Not at hempty
      refine handleSendCommand_moves cfg agent msg answers _ ?_ rfl
      rw [sendCommandId, if_pos ⟨hempty.1, hsend⟩]
    · refine handleCancelCommand_moves cfg agent msg answers ?_
      rw [sendCommandId, if_neg (by simp [hsend])]
    · refine .other msg answers _ ?_ (not_sendReply_of_mem _ _ _).2
      rw [sendCommandId, if_neg (by simp [hsend])]
  | reply token run =>
    simp only [step]
    cases hw : workerOf agent token with
    | none =>
      refine .idle _ (by simp) ?_
      intro token' run' w' heq hw'
      cases heq
      rw [hw] at hw'
      cases hw'
    | some w =>
      cases hreplied : w.replied with
      | true =>
        simp only [hreplied, if_true]
        refine .idle _ (by simp) ?_
        intro token' run' w' heq hw'
        cases heq
        rw [hw] at hw'
        cases hw'
        exact hreplied
      | false =>
        simp only [hreplied, Bool.false_eq_true, if_false]
        exact .reply token run w hw hreplied
  | done token =>
    simp only [step]
    cases hw : workerOf agent token with
    | none => exact .idle _ (by simp) (by simp)
    | some w =>
      cases hreplied : w.replied with
      | true =>
        simp only [hreplied, if_true]
        exact .finish token w hw hreplied
      | false =>
        simp only [hreplied, Bool.false_eq_true, if_false]
        exact .idle _ (by simp) (by simp)
  | cancelAll => exact .cancelAll

/-- A new command with a payload that is not accepted is remembered and answered. -/
theorem step_reject (msg : Value) (answers : Answers) (id trace : Bytes)
    (hid : sendCommandId msg = some id) (hseen : id ∉ agent.seen.set)
    (hpayload : acceptPayload cfg msg = .error trace) :
    step cfg agent (.deliver msg answers) =
      ({ agent with seen := agent.seen.add id },
        rejectPayload cfg answers (msg.strAt (lit "MessageId") []) trace) := by
  have hmove := step_moves cfg agent (.deliver msg answers)
  generalize step cfg agent (.deliver msg answers) = outcome at hmove ⊢
  obtain ⟨agent', calls⟩ := outcome
  simp only at hmove
  cases hmove with
  | duplicate _ _ id' hid' hseen' =>
    rw [hid] at hid'
    rw [Option.some.inj hid'] at hseen
    exact absurd hseen' hseen
  | reject _ _ id' trace' hid' hseen' hpayload' =>
    rw [hid] at hid'
    rw [hpayload] at hpayload'
    cases hid'
    cases hpayload'
    rfl
  | start _ _ id' doc' payload' hid' hseen' hpayload' =>
    rw [hpayload] at hpayload'
    cases hpayload'
  | cancel _ _ token hid' htoken =>
    rw [hid] at hid'
    cases hid'
  | other _ _ calls hid' hcalls =>
    rw [hid] at hid'
    cases hid'
  | idle _ he => exact absurd rfl (he msg answers)

/-- A new command with a payload that is accepted gets a worker. -/
theorem step_start (msg : Value) (answers : Answers) (id : Bytes) (doc payload : Value)
    (hid : sendCommandId msg = some id) (hseen : id ∉ agent.seen.set)
    (hpayload : acceptPayload cfg msg = .ok (doc, payload)) :
    step cfg agent (.deliver msg answers) =
      ({ agent with
          seen := agent.seen.add id
          inflight := agent.inflight.add id agent.nextToken
          workers := agent.workers ++
            [makeWorker (msg.strAt (lit "MessageId") []) id doc payload agent.nextToken]
          nextToken := agent.nextToken + 1 },
        sendReply cfg replyInProgress (msg.strAt (lit "MessageId") []) (lit "InProgress") [] []
            answers.nowMs answers.reply ++
          acknowledgeMessage (msg.strAt (lit "MessageId") []) answers.ack) := by
  have hmove := step_moves cfg agent (.deliver msg answers)
  generalize step cfg agent (.deliver msg answers) = outcome at hmove ⊢
  obtain ⟨agent', calls⟩ := outcome
  simp only at hmove
  cases hmove with
  | duplicate _ _ id' hid' hseen' =>
    rw [hid] at hid'
    rw [Option.some.inj hid'] at hseen
    exact absurd hseen' hseen
  | reject _ _ id' trace' hid' hseen' hpayload' =>
    rw [hpayload] at hpayload'
    cases hpayload'
  | start _ _ id' doc' payload' hid' hseen' hpayload' =>
    rw [hid] at hid'
    rw [hpayload] at hpayload'
    cases Option.some.inj hid'
    cases hpayload'
    rfl
  | cancel _ _ token hid' htoken =>
    rw [hid] at hid'
    cases hid'
  | other _ _ calls hid' hcalls =>
    rw [hid] at hid'
    cases hid'
  | idle _ he => exact absurd rfl (he msg answers)

/-- A worker that has not replied replies once. -/
theorem step_reply (token : Token) (run : WorkerRun) (w : Worker)
    (hw : workerOf agent token = some w) (hreplied : w.replied = false) :
    step cfg agent (.reply token run) =
      ({ agent with
          workers := agent.workers.map fun x =>
            if x.token = token then { x with replied := true } else x },
        workerCalls cfg w run) := by
  simp only [step, hw, hreplied, Bool.false_eq_true, if_false]

/-- The state part of `step`. -/
def next (agent : Agent) (e : Event) : Agent := (step cfg agent e).1

end HaikuAgent.Analysis.AgentMoves
