import HaikuAgent.Analysis.WorkerTokens

/-!
# Terminal results

A `Ledger` is the agent with two notes: the commands whose handling has finished, and
the commands for which the service has accepted a terminal reply or a failure.
`ResultsKept` says that a finished command is delivered or can still be: a worker of
it has yet to reply, or a redelivery would be handled anew.

The agent makes each terminal call once. So results are kept in every state of a run
exactly when each of these calls is accepted, up to the cases in which another worker
or an earlier reply makes up for it (`resultsKept_iff`).
-/

set_option autoImplicit false

namespace HaikuAgent.Analysis.TerminalReplies

open HaikuAgent.Foundation
open HaikuAgent.Model
open HaikuAgent.Model.Json
open HaikuAgent.Model.Commands
open HaikuAgent.Model.Runner
open HaikuAgent.Analysis.AgentMoves
open HaikuAgent.Analysis.DedupWindow
open HaikuAgent.Analysis.WorkerTokens

/-! ## The ledger -/

/-- The command a call settles, if it is a terminal one and accepted. -/
def settles : Call → Option Bytes
  | .sendReply what messageId _ resp =>
    if what ≠ replyInProgress ∧ resp.ok then some (commandIdFrom messageId) else none
  | .failMessage messageId _ resp => if resp.ok then some (commandIdFrom messageId) else none
  | _ => none

variable (cfg : Config)

/-- The commands a move finishes: one rejected, or one whose worker makes its final reply. -/
def finishes (agent : Agent) : Event → List Bytes
  | .deliver msg _ =>
    match sendCommandId msg, acceptPayload cfg msg with
    | some id, .error _ => if id ∈ agent.seen.set then [] else [id]
    | _, _ => []
  | .reply token _ =>
    match workerOf agent token with
    | some w => if w.replied then [] else [w.commandId]
    | none => []
  | _ => []

structure Ledger where
  agent : Agent
  finished : Finset Bytes
  delivered : Finset Bytes

def Ledger.init : Ledger := ⟨Agent.init, ∅, ∅⟩

def Ledger.next (l : Ledger) (e : Event) : Ledger :=
  { agent := AgentMoves.next cfg l.agent e
    finished := l.finished ∪ (finishes cfg l.agent e).toFinset
    delivered := l.delivered ∪ ((step cfg l.agent e).2.filterMap settles).toFinset }

/-- A worker of the command has yet to make its final reply. -/
def Pending (agent : Agent) (id : Bytes) : Prop :=
  ∃ w ∈ agent.workers, w.commandId = id ∧ w.replied = false

/-- No terminal result is dropped: a finished command is delivered, pending, or would be
handled anew on redelivery.
SRC: TESTING.md:283-286 -/
def ResultsKept (l : Ledger) : Prop :=
  ∀ id ∈ l.finished, id ∈ l.delivered ∨ Pending l.agent id ∨ id ∉ l.agent.seen.set

/-! ## What the calls of a move settle -/

/-- A final reply settles its command exactly when it is accepted. -/
theorem settles_sendReply (what messageId status trace : Bytes) (steps : List StepResult) (nowMs : ℤ)
    (attempt : Attempt) (hwhat : what ≠ replyInProgress) :
    (sendReply cfg what messageId status trace steps nowMs attempt).filterMap settles =
      if attempt.accepted then [commandIdFrom messageId] else [] := by
  cases attempt with
  | noCredentials => rfl
  | answered resp =>
    cases hok : resp.ok with
    | true => simp [sendReply, settles, Attempt.accepted, hok, hwhat]
    | false => simp [sendReply, settles, Attempt.accepted, hok]

/-- A refusal settles its command exactly when it is accepted. -/
theorem settles_failMessage (messageId failureType : Bytes) (attempt : Attempt) :
    (failMessage messageId failureType attempt).filterMap settles =
      if attempt.accepted then [commandIdFrom messageId] else [] := by
  cases attempt with
  | noCredentials => rfl
  | answered resp =>
    cases hok : resp.ok with
    | true => simp [failMessage, settles, Attempt.accepted, hok]
    | false => simp [failMessage, settles, Attempt.accepted, hok]

/-- A rejected payload settles its command when one of the two calls is accepted. -/
theorem settles_rejectPayload (answers : Answers) (messageId trace id : Bytes) :
    id ∈ (rejectPayload cfg answers messageId trace).filterMap settles ↔
      id = commandIdFrom messageId ∧
        (answers.reply.accepted = true ∨ answers.fail.accepted = true) := by
  rw [rejectPayload, List.filterMap_append, settles_sendReply cfg _ _ _ _ _ _ _ (by decide),
    settles_failMessage, List.mem_append]
  cases answers.reply.accepted <;> cases answers.fail.accepted <;> simp

/-- Uploading a stream settles no command. -/
private theorem settles_uploadStream (put : ℕ → Http.Response) (bucket key body : Bytes)
    (calls : List Call) (h : calls.filterMap settles = []) :
    (uploadStream put bucket key body calls).1.filterMap settles = [] := by
  rw [uploadStream]
  split_ifs
  · exact h
  · rw [List.filterMap_append, h]
    rfl

/-- Uploading the outputs settles no command. -/
theorem settles_uploadOutputs (put : ℕ → Http.Response) (commandId bucket pre : Bytes)
    (steps : List StepResult) :
    (uploadOutputs cfg put commandId bucket pre steps).2.filterMap settles = [] := by
  rw [uploadOutputs]
  split_ifs with hbucket
  · rfl
  · -- the accumulated calls settle nothing at any point of the fold
    have hfold : ∀ acc : List StepResult × List Call, acc.2.filterMap settles = [] →
        (steps.foldl (uploadStep cfg put commandId bucket pre) acc).2.filterMap settles = [] := by
      induction steps with
      | nil =>
        intro acc hacc
        exact hacc
      | cons sr rest ih =>
        intro acc hacc
        refine ih _ ?_
        exact settles_uploadStream put bucket _ _ _ (settles_uploadStream put bucket _ _ _ hacc)
    exact hfold ([], []) rfl

/-- A worker's calls settle its command exactly when its final reply is accepted. -/
theorem settles_workerCalls (w : Worker) (run : WorkerRun) :
    (workerCalls cfg w run).filterMap settles =
      if run.reply.accepted then [commandIdFrom w.messageId] else [] := by
  rw [workerCalls, List.filterMap_append, settles_uploadOutputs,
    settles_sendReply cfg _ _ _ _ _ _ _ (by decide)]
  rfl

/-! ## The invariant along a run -/

/-- Tokens are the workers' own, a worker's command is that of its message, and the window
is exact. -/
structure Sound (agent : Agent) : Prop where
  tokens : (agent.workers.map Worker.token).Nodup
  fresh : ∀ w ∈ agent.workers, w.token < agent.nextToken
  commands : ∀ w ∈ agent.workers, w.commandId = commandIdFrom w.messageId
  window : ∃ history, Remembers agent.seen history

/-- The first agent is sound. -/
theorem sound_init : Sound Agent.init := by
  refine ⟨List.nodup_nil, ?_, ?_, [], Remembers.init⟩
  · intro w hw
    cases hw
  · intro w hw
    cases hw

/-- The command id of a SendCommand message is that of its message id. -/
theorem commandId_of_sendCommandId (msg : Value) (id : Bytes) (hid : sendCommandId msg = some id) :
    commandIdFrom (msg.strAt (lit "MessageId") []) = id := by
  rw [sendCommandId] at hid
  split_ifs at hid
  exact Option.some.inj hid

/-- Every event keeps the agent sound. -/
theorem next_sound (agent : Agent) (e : Event) (h : Sound agent) : Sound (AgentMoves.next cfg agent e) := by
  obtain ⟨history, hwindow⟩ := h.window
  have hwindow' := next_remembers cfg agent e history hwindow
  have hmove := step_moves cfg agent e
  rw [AgentMoves.next] at hwindow' ⊢
  generalize (step cfg agent e).1 = agent', (step cfg agent e).2 = calls at hmove hwindow' ⊢
  cases hmove with
  | duplicate msg answers id hid hseen => exact h
  | reject msg answers id trace hid hseen hpayload =>
    exact ⟨h.tokens, h.fresh, h.commands, _, hwindow'⟩
  | start msg answers id doc payload hid hseen hpayload =>
    refine ⟨?_, ?_, ?_, _, hwindow'⟩
    · rw [List.map_append, List.nodup_append]
      refine ⟨h.tokens, List.nodup_singleton _, ?_⟩
      intro t ht t' ht' heq
      obtain ⟨w, hw, rfl⟩ := List.mem_map.mp ht
      rw [List.map_singleton, List.mem_singleton] at ht'
      have hlt := h.fresh w hw
      rw [heq, ht'] at hlt
      exact lt_irrefl _ hlt
    · intro w hw
      rcases List.mem_append.mp hw with hold | hnew
      · exact Nat.lt_succ_of_lt (h.fresh w hold)
      · rw [List.mem_singleton.mp hnew]
        exact Nat.lt_succ_self _
    · intro w hw
      rcases List.mem_append.mp hw with hold | hnew
      · exact h.commands w hold
      · rw [List.mem_singleton.mp hnew]
        exact (commandId_of_sendCommandId msg id hid).symm
  | cancel msg answers token hid htoken => exact ⟨h.tokens, h.fresh, h.commands, _, hwindow'⟩
  | other msg answers calls hid hcalls => exact h
  | reply token run w hw hreplied =>
    have hmap (x : Worker) : x ∈ (agent.workers.map fun x =>
        if x.token = token then { x with replied := true } else x) →
          ∃ y ∈ agent.workers, x.token = y.token ∧ x.commandId = y.commandId ∧
            x.messageId = y.messageId := by
      intro hx
      obtain ⟨y, hy, rfl⟩ := List.mem_map.mp hx
      refine ⟨y, hy, ?_⟩
      split_ifs
      · exact ⟨rfl, rfl, rfl⟩
      · exact ⟨rfl, rfl, rfl⟩
    refine ⟨?_, ?_, ?_, _, hwindow'⟩
    · have hsame : (agent.workers.map fun x =>
          if x.token = token then { x with replied := true } else x).map Worker.token =
            agent.workers.map Worker.token := by
        rw [List.map_map]
        refine List.map_congr_left ?_
        intro x _
        simp only [Function.comp]
        split_ifs <;> rfl
      rw [hsame]
      exact h.tokens
    · intro x hx
      obtain ⟨y, hy, htoken, -, -⟩ := hmap x hx
      rw [htoken]
      exact h.fresh y hy
    · intro x hx
      obtain ⟨y, hy, -, hcommand, hmessage⟩ := hmap x hx
      rw [hcommand, hmessage]
      exact h.commands y hy
  | finish token w hw hreplied =>
    refine ⟨h.tokens.sublist (List.filter_sublist.map _), ?_, ?_, _, hwindow'⟩
    · intro x hx
      exact h.fresh x (List.mem_of_mem_filter hx)
    · intro x hx
      exact h.commands x (List.mem_of_mem_filter hx)
  | idle _ he => exact h
  | cancelAll => exact ⟨h.tokens, h.fresh, h.commands, _, hwindow'⟩

/-- The worker that `workerOf` finds, among workers with their own tokens. -/
theorem Sound.eq_of_token {agent : Agent} (h : Sound agent) {token : Token} {w x : Worker}
    (hw : workerOf agent token = some w) (hx : x ∈ agent.workers) (htoken : x.token = token) :
    x = w := by
  have hmem := List.mem_of_find?_eq_some hw
  have hwtoken : w.token = token := by simpa using List.find?_some hw
  exact List.inj_on_of_nodup_map h.tokens hx hmem (by rw [htoken, hwtoken])

/-! ## Terminal calls that land -/

/-- A command that a move finishes is settled: the terminal call of the move is accepted,
or an earlier one was, or another worker of the command has yet to reply; or, for a
worker's reply, the command is already forgotten. -/
def TerminalLands (l : Ledger) : Event → Prop
  | .deliver msg answers =>
    ∀ id trace, sendCommandId msg = some id → id ∉ l.agent.seen.set →
      acceptPayload cfg msg = .error trace →
      answers.reply.accepted = true ∨ answers.fail.accepted = true ∨ id ∈ l.delivered ∨
        Pending l.agent id
  | .reply token run =>
    ∀ w, workerOf l.agent token = some w → w.replied = false →
      run.reply.accepted = true ∨ w.commandId ∈ l.delivered ∨ w.commandId ∉ l.agent.seen.set ∨
        ∃ x ∈ l.agent.workers, x.token ≠ token ∧ x.commandId = w.commandId ∧ x.replied = false
  | _ => True

/-- What is finished after an event was finished before it or is finished by it. -/
theorem mem_finished_next (l : Ledger) (e : Event) (id : Bytes) :
    id ∈ (l.next cfg e).finished ↔ id ∈ l.finished ∨ id ∈ finishes cfg l.agent e := by
  rw [Ledger.next, Finset.mem_union, List.mem_toFinset]

/-- What is delivered after an event was delivered before it or is settled by it. -/
theorem mem_delivered_next (l : Ledger) (e : Event) (id : Bytes) :
    id ∈ (l.next cfg e).delivered ↔
      id ∈ l.delivered ∨ id ∈ (step cfg l.agent e).2.filterMap settles := by
  rw [Ledger.next, Finset.mem_union, List.mem_toFinset]

/-- A delivery finishes its command when the command is new and its payload is refused. -/
theorem mem_finishes_deliver (agent : Agent) (msg : Value) (answers : Answers) (id : Bytes) :
    id ∈ finishes cfg agent (.deliver msg answers) ↔
      sendCommandId msg = some id ∧ id ∉ agent.seen.set ∧
        ∃ trace, acceptPayload cfg msg = .error trace := by
  cases hid : sendCommandId msg with
  | none => simp [finishes, hid]
  | some id' =>
    cases hpayload : acceptPayload cfg msg with
    | ok accepted => simp [finishes, hid, hpayload]
    | error trace =>
      simp only [finishes, hid, hpayload]
      by_cases hseen : id' ∈ agent.seen.set
      · rw [if_pos hseen]
        refine iff_of_false (by simp) ?_
        rintro ⟨hsome, hnot, -⟩
        cases hsome
        exact hnot hseen
      · rw [if_neg hseen, List.mem_singleton]
        constructor
        · rintro rfl
          exact ⟨rfl, hseen, trace, rfl⟩
        · rintro ⟨hsome, -, -⟩
          exact (Option.some.inj hsome).symm

/-- A reply finishes the command of its worker, when the worker has not replied. -/
theorem mem_finishes_reply (agent : Agent) (token : Token) (run : WorkerRun) (id : Bytes) :
    id ∈ finishes cfg agent (.reply token run) ↔
      ∃ w, workerOf agent token = some w ∧ w.replied = false ∧ w.commandId = id := by
  cases hw : workerOf agent token with
  | none => simp [finishes, hw]
  | some w =>
    cases hreplied : w.replied with
    | true => simp [finishes, hw, hreplied]
    | false =>
      simp only [finishes, hw, hreplied, Bool.false_eq_true, if_false, List.mem_singleton]
      constructor
      · rintro rfl
        exact ⟨w, rfl, hreplied, rfl⟩
      · rintro ⟨w', hw', -, hid⟩
        rw [Option.some.inj hw', hid]

/-- Other workers' final replies are still to come after one worker's. -/
theorem pending_reply (agent : Agent) (token : Token) (x : Worker) (hx : x ∈ agent.workers)
    (htoken : x.token ≠ token) (hreplied : x.replied = false) :
    Pending { agent with
      workers := agent.workers.map fun y =>
        if y.token = token then { y with replied := true } else y } x.commandId := by
  refine ⟨x, List.mem_map.mpr ⟨x, hx, ?_⟩, rfl, hreplied⟩
  rw [if_neg htoken]

/-- A worker's final reply that lands keeps its command. -/
theorem kept_of_reply (l : Ledger) (token : Token) (run : WorkerRun) (w : Worker)
    (hw : workerOf l.agent token = some w) (hreplied : w.replied = false)
    (hcommand : w.commandId = commandIdFrom w.messageId)
    (hlands : TerminalLands cfg l (.reply token run)) :
    w.commandId ∈ l.delivered ∨ w.commandId ∈ (workerCalls cfg w run).filterMap settles ∨
      Pending { l.agent with
        workers := l.agent.workers.map fun x =>
          if x.token = token then { x with replied := true } else x } w.commandId ∨
      w.commandId ∉ l.agent.seen.set := by
  rcases hlands w hw hreplied with haccepted | hdelivered | hforgotten | ⟨x, hx, htoken, hid, hunreplied⟩
  · refine Or.inr (Or.inl ?_)
    rw [settles_workerCalls, if_pos haccepted, hcommand]
    exact List.mem_singleton.mpr rfl
  · exact Or.inl hdelivered
  · exact Or.inr (Or.inr (Or.inr hforgotten))
  · refine Or.inr (Or.inr (Or.inl ?_))
    rw [← hid]
    exact pending_reply l.agent token x hx htoken hunreplied

/-- A message finishes no command but the one that it sends. -/
theorem not_mem_finishes_of_ne (agent : Agent) {msg : Value} (answers : Answers) {id : Bytes}
    (h : sendCommandId msg ≠ some id) : id ∉ finishes cfg agent (.deliver msg answers) := by
  rw [mem_finishes_deliver]
  intro hfinished
  exact h hfinished.1

/-- A delivery finishes no command but its own. -/
theorem not_mem_finishes_of_other (agent : Agent) {msg : Value} (answers : Answers) {id id' : Bytes}
    (hid : sendCommandId msg = some id') (hne : id ≠ id') : id ∉ finishes cfg agent (.deliver msg answers) := by
  apply not_mem_finishes_of_ne
  rw [hid]
  exact fun heq => hne (Option.some.inj heq).symm

/-- A worker's final reply finishes no command but its own. -/
theorem not_mem_finishes_reply (agent : Agent) {token : Token} (run : WorkerRun) {w : Worker} {id : Bytes}
    (hw : workerOf agent token = some w) (hne : id ≠ w.commandId) : id ∉ finishes cfg agent (.reply token run) := by
  rw [mem_finishes_reply]
  rintro ⟨w', hw', -, hid'⟩
  rw [hw] at hw'
  cases hw'
  exact hne hid'.symm

/-- Another command's final reply is still to come. -/
theorem Sound.pending_reply {agent : Agent} (h : Sound agent) {token : Token} {w : Worker} {id : Bytes}
    (hw : workerOf agent token = some w) (hne : id ≠ w.commandId) (hpending : Pending agent id) :
    Pending { agent with
      workers := agent.workers.map fun y =>
        if y.token = token then { y with replied := true } else y } id := by
  obtain ⟨x, hx, hxid, hunreplied⟩ := hpending
  have htoken : x.token ≠ token := by
    intro heq
    rw [h.eq_of_token hw hx heq] at hxid
    exact hne hxid.symm
  rw [← hxid]
  exact TerminalReplies.pending_reply agent token x hx htoken hunreplied

/-- The worker that ends has replied, so that what was still to come is. -/
theorem Sound.pending_finish {agent : Agent} (h : Sound agent) {token : Token} {w : Worker} {id : Bytes}
    (hw : workerOf agent token = some w) (hreplied : w.replied = true) (hpending : Pending agent id) :
    Pending { agent with
      inflight := agent.inflight.done w.commandId
      workers := agent.workers.filter fun x => x.token ≠ token } id := by
  obtain ⟨x, hx, hxid, hunreplied⟩ := hpending
  refine ⟨x, List.mem_filter.mpr ⟨hx, ?_⟩, hxid, hunreplied⟩
  rw [decide_eq_true_eq]
  intro heq
  rw [h.eq_of_token hw hx heq, hreplied] at hunreplied
  cases hunreplied

/-- Entering another id makes none seen. -/
theorem not_mem_seen_add {agent : Agent} {id id' : Bytes} (hne : id ≠ id') (h : id ∉ agent.seen.set) :
    id ∉ (agent.seen.add id').set := by
  intro hmem
  obtain heq | hold := Remembers.mem_add_of_mem hmem
  · exact hne heq
  · exact h hold

/-- A move whose terminal call lands keeps the results. -/
theorem next_kept (l : Ledger) (e : Event) (hsound : Sound l.agent) (hkept : ResultsKept l)
    (hlands : TerminalLands cfg l e) : ResultsKept (l.next cfg e) := by
  intro id hfinished
  rw [mem_finished_next] at hfinished
  rw [mem_delivered_next]
  change _ ∨ Pending (step cfg l.agent e).1 id ∨ id ∉ (step cfg l.agent e).1.seen.set
  have hmove := step_moves cfg l.agent e
  generalize (step cfg l.agent e).1 = agent', (step cfg l.agent e).2 = calls at hmove ⊢
  -- what no move needs to look at: an earlier delivery, and a move that finishes nothing
  by_cases hdelivered : id ∈ l.delivered
  · exact Or.inl (Or.inl hdelivered)
  have hstays (h : id ∉ finishes cfg l.agent e) : Pending l.agent id ∨ id ∉ l.agent.seen.set := by
    have hold := hfinished.resolve_right h
    exact (hkept id hold).resolve_left hdelivered
  cases hmove with
  | duplicate msg answers id' hid hseen =>
    refine Or.inr (hstays ?_)
    rw [mem_finishes_deliver]
    rintro ⟨hid', hnot, -⟩
    rw [hid] at hid'
    cases hid'
    exact hnot hseen
  | reject msg answers id' trace hid hseen hpayload =>
    by_cases hsame : id = id'
    · -- the rejected command itself
      subst hsame
      rcases hlands id trace hid hseen hpayload with hreply | hfail | hdel | hpending
      · refine Or.inl (Or.inr ?_)
        rw [settles_rejectPayload]
        exact ⟨(commandId_of_sendCommandId msg id hid).symm, Or.inl hreply⟩
      · refine Or.inl (Or.inr ?_)
        rw [settles_rejectPayload]
        exact ⟨(commandId_of_sendCommandId msg id hid).symm, Or.inr hfail⟩
      · exact absurd hdel hdelivered
      · exact Or.inr (Or.inl hpending)
    · obtain hpending | hforgotten := hstays (not_mem_finishes_of_other cfg l.agent answers hid hsame)
      · exact Or.inr (Or.inl hpending)
      · exact Or.inr (Or.inr (not_mem_seen_add hsame hforgotten))
  | start msg answers id' doc payload hid hseen hpayload =>
    by_cases hsame : id = id'
    · -- it now has a worker that has not replied
      subst hsame
      refine Or.inr (Or.inl ⟨_, List.mem_append_right _ (List.mem_singleton.mpr rfl), rfl, rfl⟩)
    · obtain ⟨w, hw, hwid, hreplied⟩ | hforgotten :=
        hstays (not_mem_finishes_of_other cfg l.agent answers hid hsame)
      · exact Or.inr (Or.inl ⟨w, List.mem_append_left _ hw, hwid, hreplied⟩)
      · exact Or.inr (Or.inr (not_mem_seen_add hsame hforgotten))
  | cancel msg answers token hid htoken =>
    exact Or.inr (hstays (not_mem_finishes_of_ne cfg l.agent answers (by simp [hid])))
  | other msg answers calls hid hcalls =>
    exact Or.inr (hstays (not_mem_finishes_of_ne cfg l.agent answers (by simp [hid])))
  | reply token run w hw hreplied =>
    have hmem := List.mem_of_find?_eq_some hw
    by_cases hsame : id = w.commandId
    · subst hsame
      rcases kept_of_reply cfg l token run w hw hreplied (hsound.commands w hmem) hlands with
        hdel | hsettles | hrest
      · exact absurd hdel hdelivered
      · exact Or.inl (Or.inr hsettles)
      · exact Or.inr hrest
    · obtain hpending | hforgotten := hstays (not_mem_finishes_reply cfg l.agent run hw hsame)
      · exact Or.inr (Or.inl (hsound.pending_reply hw hsame hpending))
      · exact Or.inr (Or.inr hforgotten)
  | finish token w hw hreplied =>
    obtain hpending | hforgotten := hstays List.not_mem_nil
    · exact Or.inr (Or.inl (hsound.pending_finish hw hreplied hpending))
    · exact Or.inr (Or.inr hforgotten)
  | idle _ he hreply =>
    refine Or.inr (hstays ?_)
    cases e with
    | deliver msg answers => exact absurd rfl (he msg answers)
    | reply token run =>
      rw [mem_finishes_reply]
      rintro ⟨w, hw, hreplied, -⟩
      rw [hreply token run w rfl hw] at hreplied
      cases hreplied
    | done token => exact List.not_mem_nil
    | cancelAll => exact List.not_mem_nil
  | cancelAll => exact Or.inr (hstays List.not_mem_nil)

/-- A move whose terminal call does not land loses a result. -/
theorem not_kept_of_not_lands (l : Ledger) (e : Event) (hsound : Sound l.agent)
    (hlost : ¬TerminalLands cfg l e) : ¬ResultsKept (l.next cfg e) := by
  intro hkept
  cases e with
  | deliver msg answers =>
    simp only [TerminalLands] at hlost
    push Not at hlost
    obtain ⟨id, trace, hid, hseen, hpayload, hreply, hfail, hdelivered, hpending⟩ := hlost
    obtain ⟨history, hwindow⟩ := hsound.window
    have hstep := step_reject cfg l.agent msg answers id trace hid hseen hpayload
    have hfinished : id ∈ (l.next cfg (.deliver msg answers)).finished := by
      rw [mem_finished_next, mem_finishes_deliver]
      exact Or.inr ⟨hid, hseen, trace, hpayload⟩
    have hagent : (l.next cfg (.deliver msg answers)).agent =
        { l.agent with seen := l.agent.seen.add id } := congrArg Prod.fst hstep
    rcases hkept id hfinished with hdel | hpend | hforgotten
    · rw [mem_delivered_next, hstep, settles_rejectPayload] at hdel
      rcases hdel with hdel | ⟨-, haccepted | haccepted⟩
      · exact hdelivered hdel
      · exact hreply haccepted
      · exact hfail haccepted
    · rw [hagent] at hpend
      exact hpending hpend
    · rw [hagent] at hforgotten
      exact hforgotten (hwindow.mem_add_self id hseen)
  | reply token run =>
    simp only [TerminalLands] at hlost
    push Not at hlost
    obtain ⟨w, hw, hreplied, hreply, hdelivered, hseen, hothers⟩ := hlost
    have hmem := List.mem_of_find?_eq_some hw
    have hstep := step_reply cfg l.agent token run w hw hreplied
    have hagent : (l.next cfg (.reply token run)).agent =
        { l.agent with
          workers := l.agent.workers.map fun x =>
            if x.token = token then { x with replied := true } else x } :=
      congrArg Prod.fst hstep
    have hfinished : w.commandId ∈ (l.next cfg (.reply token run)).finished := by
      rw [mem_finished_next, mem_finishes_reply]
      exact Or.inr ⟨w, hw, hreplied, rfl⟩
    rcases hkept w.commandId hfinished with hdel | hpend | hforgotten
    · rw [mem_delivered_next, hstep, settles_workerCalls, if_neg hreply] at hdel
      rcases hdel with hdel | hnil
      · exact hdelivered hdel
      · exact List.not_mem_nil hnil
    · -- the worker has replied now, and no other one of the command is left to
      rw [hagent] at hpend
      obtain ⟨x', hx', hid, hunreplied⟩ := hpend
      obtain ⟨x, hx, rfl⟩ := List.mem_map.mp hx'
      by_cases htoken : x.token = token
      · rw [if_pos htoken] at hunreplied
        cases hunreplied
      · rw [if_neg htoken] at hid hunreplied
        exact hothers x hx htoken hid hunreplied
    · rw [hagent] at hforgotten
      exact hforgotten hseen
  | done token => exact hlost trivial
  | cancelAll => exact hlost trivial

/-- **When no terminal result is dropped**: in all states of a run, exactly when every
terminal call of the run lands.
SRC: main.cpp:232-242, 285-379 -/
theorem resultsKept_iff (events : List Event) :
    AllStates (Ledger.next cfg) ResultsKept Ledger.init events ↔
      AllSteps (Ledger.next cfg) (TerminalLands cfg) Ledger.init events := by
  refine allStates_iff_allSteps (Ledger.next cfg) (fun l => Sound l.agent ∧ ResultsKept l)
    ResultsKept (TerminalLands cfg) ?_ ?_ ?_ Ledger.init ?_ events
  · exact fun l h => h.2
  · intro l e h hlands
    exact ⟨next_sound cfg l.agent e h.1, next_kept cfg l e h.1 h.2 hlands⟩
  · intro l e h hlost
    exact not_kept_of_not_lands cfg l e h.1 hlost
  · refine ⟨sound_init, ?_⟩
    intro id hid
    exact absurd hid (Finset.notMem_empty id)

/-! ## A result lost with one reply -/

/-- A worker whose final reply meets a server error. -/
def failedReply : WorkerRun :=
  { host := ⟨fun _ => 0, fun _ _ => Exec.Result.init⟩
    patchCredentials := true
    putInventory := fun _ => ⟨200, [], []⟩
    upload := fun _ => ⟨200, [], []⟩
    reply := .answered ⟨500, [], []⟩
    nowMs := 0 }

/-- One command, every call but the last answered, and then the failed reply. -/
def oneFailedReply : List Event :=
  let ok : Attempt := .answered ⟨200, [], []⟩
  [.deliver (sendMessage (lit "c0") emptyDocument) ⟨ok, ok, ok, 0⟩, .reply 0 failedReply]

/-- The calls made when a worker starts are not terminal. -/
theorem settles_start (messageId : Bytes) (nowMs : ℤ) (reply ack : Attempt) :
    (sendReply cfg replyInProgress messageId (lit "InProgress") [] [] nowMs reply ++
      acknowledgeMessage messageId ack).filterMap settles = [] := by
  rw [List.filterMap_append]
  cases reply with
  | noCredentials =>
    cases ack with
    | noCredentials => rfl
    | answered resp => rfl
  | answered resp =>
    cases ack with
    | noCredentials => simp [sendReply, settles, acknowledgeMessage]
    | answered resp' => simp [sendReply, settles, acknowledgeMessage]

/-- After the start of a command, one failed final reply loses its result. -/
theorem not_kept_of_failed_reply (msg : Value) (answers : Answers) (id : Bytes) (doc payload : Value)
    (run : WorkerRun) (hid : sendCommandId msg = some id)
    (hpayload : acceptPayload cfg msg = .ok (doc, payload)) (hfailed : run.reply.accepted = false) :
    ¬AllStates (Ledger.next cfg) ResultsKept Ledger.init [.deliver msg answers, .reply 0 run] := by
  intro hkept
  have hstep := step_start cfg Agent.init msg answers id doc payload hid (Finset.notMem_empty id)
    hpayload
  have hsound := next_sound cfg Agent.init (.deliver msg answers) sound_init
  let first := Ledger.init.next cfg (.deliver msg answers)
  have hworkers : first.agent.workers =
      [makeWorker (msg.strAt (lit "MessageId") []) id doc payload 0] := by
    change (step cfg Agent.init (.deliver msg answers)).1.workers = _
    rw [hstep]
    rfl
  have hseen : id ∈ first.agent.seen.set := by
    change id ∈ (step cfg Agent.init (.deliver msg answers)).1.seen.set
    rw [hstep]
    exact Remembers.init.mem_add_self id (Finset.notMem_empty id)
  have hdelivered : id ∉ first.delivered := by
    rw [mem_delivered_next]
    change ¬(id ∈ (∅ : Finset Bytes) ∨ id ∈ (step cfg Agent.init (.deliver msg answers)).2.filterMap settles)
    rw [hstep, settles_start]
    simp
  -- the worker's reply is the only terminal call there is
  have hlost : ¬TerminalLands cfg first (.reply 0 run) := by
    intro hlands
    have hworker : workerOf first.agent 0 =
        some (makeWorker (msg.strAt (lit "MessageId") []) id doc payload 0) := by
      rw [workerOf, hworkers]
      rfl
    rcases hlands _ hworker rfl with haccepted | hdel | hforgotten | ⟨x, hx, htoken, -⟩
    · rw [hfailed] at haccepted
      cases haccepted
    · exact hdelivered hdel
    · exact hforgotten hseen
    · rw [hworkers, List.mem_singleton] at hx
      exact htoken (by rw [hx]; rfl)
  exact not_kept_of_not_lands cfg first _ hsound hlost (hkept _ List.prefix_rfl)

/-- One command with every call answered but the last. -/
theorem oneFailedReply_not_kept :
    ¬AllStates (Ledger.next exampleConfig) ResultsKept Ledger.init oneFailedReply := by
  have hid : sendCommandId (sendMessage (lit "c0") emptyDocument) = some (lit "c0") :=
    sendCommandId_message _ _ (by decide)
  obtain ⟨⟨doc, payload⟩, haccept⟩ := emptyDocument_accepted
  exact not_kept_of_failed_reply exampleConfig _ _ _ doc payload failedReply hid haccept rfl

end HaikuAgent.Analysis.TerminalReplies
