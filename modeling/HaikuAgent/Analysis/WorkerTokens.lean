import HaikuAgent.Analysis.DedupWindow

/-!
# Running workers and their cancel tokens

`InFlight` should be the table of the running workers: `Table` states it over the
list of their command ids and tokens, `Table.add` and `Table.done` keep it. Adding a
worker keeps it only if no worker of the same command runs, and nothing but the dedup
window sees to that.

So the table is exact in every state of a run exactly when no command is delivered
again, after the window has forgotten it, while a worker of it still runs
(`workersTracked_iff`).
-/

set_option autoImplicit false

namespace HaikuAgent.Analysis.WorkerTokens

open HaikuAgent.Foundation
open HaikuAgent.Model
open HaikuAgent.Model.Json
open HaikuAgent.Model.Commands
open HaikuAgent.Analysis.AgentMoves
open HaikuAgent.Analysis.DedupWindow

/-! ## The table of running workers -/

/-- `InFlight` holds exactly the running workers, given as command id and token. -/
structure Table (running : List (Bytes × Token)) (inflight : InFlight) (nextToken : Token) : Prop where
  ids : (running.map Prod.fst).Nodup
  tokens : (running.map Prod.snd).Nodup
  fresh : ∀ p ∈ running, p.2 < nextToken
  lookup : ∀ id token, inflight.map.lookup id = some token ↔ (id, token) ∈ running
  size : inflight.map.keys.length = running.length
  count : inflight.count = inflight.map.keys.length

namespace Table

variable {running : List (Bytes × Token)} {inflight : InFlight} {nextToken : Token}

/-- An empty table. -/
theorem init : Table [] InFlight.empty 0 := by
  refine
    { ids := List.nodup_nil
      tokens := List.nodup_nil
      fresh := ?_
      lookup := ?_
      size := rfl
      count := rfl }
  · intro p hp
    cases hp
  · intro id token
    simp [InFlight.empty]

/-- The id of a new command is not in flight. -/
theorem not_mem_of_new (h : Table running inflight nextToken) (id : Bytes)
    (hid : id ∉ running.map Prod.fst) : id ∉ inflight.map := by
  rw [← AList.lookup_eq_none]
  cases hlookup : inflight.map.lookup id with
  | none => rfl
  | some token =>
    have hmem := (h.lookup id token).mp hlookup
    exact absurd (List.mem_map_of_mem (f := Prod.fst) hmem) hid

/-- A worker of a new command gets an entry of its own. -/
theorem add (h : Table running inflight nextToken) (id : Bytes) (hid : id ∉ running.map Prod.fst) :
    Table (running ++ [(id, nextToken)]) (inflight.add id nextToken) (nextToken + 1) := by
  have hnew := h.not_mem_of_new id hid
  have hkeys : (inflight.add id nextToken).map.keys.length = inflight.map.keys.length + 1 := by
    have hnot : id ∉ inflight.map.keys := by rwa [← AList.mem_keys]
    rw [InFlight.add, AList.keys_insert, List.length_cons, @List.erase_of_not_mem _ instBEqOfDecidableEq _ _ _ hnot]
  have htoken : nextToken ∉ running.map Prod.snd := by
    intro hmem
    obtain ⟨p, hp, hpt⟩ := List.mem_map.mp hmem
    have hlt := h.fresh p hp
    rw [hpt] at hlt
    exact lt_irrefl _ hlt
  refine
    { ids := ?_
      tokens := ?_
      fresh := ?_
      lookup := ?_
      size := ?_
      count := ?_ }
  · rw [List.map_append]
    exact List.nodup_append_comm.mp (List.nodup_cons.mpr ⟨hid, h.ids⟩)
  · rw [List.map_append]
    exact List.nodup_append_comm.mp (List.nodup_cons.mpr ⟨htoken, h.tokens⟩)
  · intro p hp
    rcases List.mem_append.mp hp with hold | hnew'
    · exact Nat.lt_succ_of_lt (h.fresh p hold)
    · rw [List.mem_singleton.mp hnew']
      exact Nat.lt_succ_self _
  · intro id' token
    by_cases hid' : id' = id
    · subst hid'
      have hold : (id', token) ∉ running :=
        fun hmem => hid (List.mem_map_of_mem (f := Prod.fst) hmem)
      simp [InFlight.add, AList.lookup_insert, hold, eq_comm]
    · rw [InFlight.add, AList.lookup_insert_ne hid', h.lookup]
      simp [hid']
  · rw [hkeys, h.size, List.length_append, List.length_singleton]
  · rw [hkeys]
    simp only [InFlight.add, h.count]
    omega

/-- A command that is in flight is one entry of the map. -/
theorem length_done {inflight : InFlight} {id : Bytes} (hkey : id ∈ inflight.map.keys) :
    (inflight.done id).map.keys.length + 1 = inflight.map.keys.length := by
  rw [InFlight.done, AList.keys_erase, @List.length_erase_of_mem _ instBEqOfDecidableEq _ _ _ hkey]
  have hpos := List.length_pos_of_mem hkey
  omega

/-- A token occurs once. -/
theorem length_filter_token (h : Table running inflight nextToken) {id : Bytes} {token : Token}
    (hmem : (id, token) ∈ running) : (running.filter fun p => p.2 ≠ token).length + 1 = running.length := by
  have hsplit := List.length_eq_length_filter_add (l := running) (fun p => decide (p.2 = token))
  have hsingle : (running.filter fun p => decide (p.2 = token)).length = 1 := by
    rw [← List.countP_eq_length_filter]
    have hcount := List.count_eq_one_of_mem h.tokens (List.mem_map_of_mem (f := Prod.snd) hmem)
    rw [List.count, List.countP_map] at hcount
    rw [← hcount]
    refine List.countP_congr ?_
    intro p _
    simp
  simp only [hsingle] at hsplit
  have hnot : (running.filter fun p => p.2 ≠ token) = running.filter fun p => !decide (p.2 = token) := by
    refine List.filter_congr ?_
    intro p _
    simp
  rw [hnot]
  omega

/-- The end of a worker takes its entry away. -/
theorem done (h : Table running inflight nextToken) (id : Bytes) (token : Token)
    (hmem : (id, token) ∈ running) :
    Table (running.filter fun p => p.2 ≠ token) (inflight.done id) nextToken := by
  have hkey : id ∈ inflight.map.keys := by
    rw [← AList.mem_keys, ← AList.lookup_isSome, (h.lookup id token).mpr hmem]
    rfl
  have hkeys := length_done hkey
  -- the entry's id and token occur once each
  have hone : ∀ p ∈ running, p.2 = token ↔ p.1 = id := by
    intro p hp
    constructor
    · intro ht
      have heq := List.inj_on_of_nodup_map h.tokens hp hmem ht
      rw [heq]
    · intro hi
      have heq := List.inj_on_of_nodup_map h.ids hp hmem hi
      rw [heq]
  have hfilter := h.length_filter_token hmem
  refine
    { ids := h.ids.sublist (List.filter_sublist.map _)
      tokens := h.tokens.sublist (List.filter_sublist.map _)
      fresh := fun p hp => h.fresh p (List.mem_of_mem_filter hp)
      lookup := ?_
      size := ?_
      count := ?_ }
  · intro id' token'
    by_cases hid : id' = id
    · subst hid
      rw [InFlight.done, AList.lookup_erase]
      refine iff_of_false (by simp) ?_
      intro hmem'
      obtain ⟨hin, hne⟩ := List.mem_filter.mp hmem'
      simp only [ne_eq, decide_eq_true_eq] at hne
      exact hne ((hone _ hin).mpr rfl)
    · rw [InFlight.done, AList.lookup_erase_ne hid, h.lookup, List.mem_filter]
      constructor
      · intro hin
        refine ⟨hin, ?_⟩
        simp only [ne_eq, decide_eq_true_eq]
        exact fun ht => hid ((hone _ hin).mp ht)
      · exact fun hin => hin.1
  · have hsize := h.size
    omega
  · simp only [InFlight.done, h.count]
    have hkeys' := hkeys
    simp only [InFlight.done] at hkeys'
    omega

end Table

/-! ## The invariant along a run -/

def idAndToken (w : Worker) : Bytes × Token := (w.commandId, w.token)

/-- The running workers, by id and token. -/
def running (agent : Agent) : List (Bytes × Token) := agent.workers.map idAndToken

def Accounted (agent : Agent) : Prop := Table (running agent) agent.inflight agent.nextToken

/-- The first agent is accounted for. -/
theorem accounted_init : Accounted Agent.init := Table.init

variable (cfg : Config)

/-- A command that is run again has no worker: the move does not deliver a runnable command
that the window has forgotten and a running worker has not finished. -/
def ForgottenIdle (agent : Agent) (e : Event) : Prop :=
  ∀ msg answers id doc payload, e = .deliver msg answers → sendCommandId msg = some id →
    id ∉ agent.seen.set → acceptPayload cfg msg = .ok (doc, payload) →
    ∀ w ∈ agent.workers, w.commandId ≠ id

/-- A move that runs no command twice keeps the table. -/
theorem next_accounted (agent : Agent) (e : Event) (h : Accounted agent)
    (hidle : ForgottenIdle cfg agent e) : Accounted (next cfg agent e) := by
  have hmove := step_moves cfg agent e
  rw [next]
  generalize (step cfg agent e).1 = agent', (step cfg agent e).2 = calls at hmove ⊢
  cases hmove with
  | duplicate msg answers id hid hseen => exact h
  | reject msg answers id trace hid hseen hpayload => exact h
  | start msg answers id doc payload hid hseen hpayload =>
    have hnew : id ∉ (running agent).map Prod.fst := by
      intro hmem
      obtain ⟨p, hp, hpid⟩ := List.mem_map.mp hmem
      obtain ⟨w, hw, hwp⟩ := List.mem_map.mp hp
      refine hidle msg answers id doc payload rfl hid hseen hpayload w hw ?_
      rw [← hpid, ← hwp]
      rfl
    have hadd := Table.add h id hnew
    rw [Accounted, running, List.map_append]
    exact hadd
  | cancel msg answers token hid htoken => exact h
  | other msg answers calls hid hcalls => exact h
  | reply token run w hw hreplied =>
    have hsame : running { agent with
        workers := agent.workers.map fun x =>
          if x.token = token then { x with replied := true } else x } = running agent := by
      simp only [running, List.map_map]
      refine List.map_congr_left ?_
      intro x _
      simp only [Function.comp]
      split_ifs <;> rfl
    rw [Accounted, hsame]
    exact h
  | finish token w hw hreplied =>
    have hmem := List.mem_of_find?_eq_some hw
    have htoken : w.token = token := by simpa using List.find?_some hw
    have hpair : (w.commandId, token) ∈ running agent := by
      rw [← htoken]
      exact List.mem_map_of_mem (f := idAndToken) hmem
    have hdone := Table.done h w.commandId token hpair
    have hfilter : running { agent with
        inflight := agent.inflight.done w.commandId
        workers := agent.workers.filter fun x => x.token ≠ token } =
          (running agent).filter fun p => p.2 ≠ token := by
      simp only [running, List.filter_map]
      rfl
    rw [Accounted, hfilter]
    exact hdone
  | idle _ he => exact h
  | cancelAll => exact h

/-- Running a forgotten command whose worker still runs gives two workers of one command. -/
theorem not_nodup_of_not_forgottenIdle (agent : Agent) (e : Event)
    (hbusy : ¬ForgottenIdle cfg agent e) :
    ¬((next cfg agent e).workers.map Worker.commandId).Nodup := by
  unfold ForgottenIdle at hbusy
  push Not at hbusy
  obtain ⟨msg, answers, id, doc, payload, rfl, hid, hseen, hpayload, w, hw, hwid⟩ := hbusy
  rw [next, step_start cfg agent msg answers id doc payload hid hseen hpayload, List.map_append]
  intro hnodup
  have hdisjoint := (List.nodup_append.mp hnodup).2.2 id (List.mem_map.mpr ⟨w, hw, hwid⟩) id
    (by simp [makeWorker])
  exact hdisjoint rfl

/-! ## Cancels reach the worker they are meant for -/

/-- The message is handled as a `CancelCommand`. -/
def IsCancel (msg : Value) : Prop :=
  msg.strAt (lit "MessageId") [] ≠ [] ∧
    startsWith (msg.strAt (lit "Topic") []) kCancelCommandTopic = true

/-- At most one worker runs a command, `map_` has an entry for each and it is the worker's
own token, `count_` is its size; a cancel requests the token of the worker it is
about and no other, and `cancel_all` those of all.
SRC: main.cpp:166-205, 381-400 -/
structure WorkersTracked (agent : Agent) : Prop where
  oneWorker : (agent.workers.map Worker.commandId).Nodup
  entries : ∀ id token, agent.inflight.map.lookup id = some token ↔
    ∃ w ∈ agent.workers, w.commandId = id ∧ w.token = token
  size : agent.inflight.map.keys.length = agent.workers.length
  count : agent.inflight.count = agent.inflight.map.keys.length
  ownToken : ∀ w ∈ agent.workers, ∀ w' ∈ agent.workers, w.token = w'.token → w = w'
  cancelReaches : ∀ w ∈ agent.workers, ∀ msg answers, IsCancel msg →
    cancelTarget cfg msg = w.commandId →
    (next cfg agent (.deliver msg answers)).requested = insert w.token agent.requested
  cancelAllReaches : ∀ w ∈ agent.workers, w.token ∈ (next cfg agent .cancelAll).requested

/-- A cancellation is handled as one. -/
theorem handleMessage_cancel (agent : Agent) (msg : Value) (answers : Answers) (h : IsCancel msg) :
    handleMessage cfg agent msg answers = handleCancelCommand cfg agent msg answers := by
  obtain ⟨hid, htopic⟩ := h
  have hprefix : kCancelCommandTopic <+: msg.strAt (lit "Topic") [] := List.isPrefixOf_iff_prefix.mp htopic
  obtain ⟨rest, hrest⟩ := hprefix
  have hne : msg.strAt (lit "Topic") [] ≠ [] := by
    rw [← hrest]
    intro hnil
    cases hnil
  have hsend : startsWith (msg.strAt (lit "Topic") []) kSendCommandTopic = false := by
    rw [← hrest]
    rfl
  rw [handleMessage, if_neg (by simp [hid, hne]), if_neg (by simp [hsend]), if_pos htopic]

/-- An agent that is accounted for has its workers tracked. -/
theorem Accounted.tracked {agent : Agent} (h : Accounted agent) : WorkersTracked cfg agent := by
  have hlookup (id : Bytes) (token : Token) : agent.inflight.map.lookup id = some token ↔
      ∃ w ∈ agent.workers, w.commandId = id ∧ w.token = token := by
    rw [Table.lookup h, running, List.mem_map]
    constructor
    · rintro ⟨w, hw, heq⟩
      exact ⟨w, hw, congrArg Prod.fst heq, congrArg Prod.snd heq⟩
    · rintro ⟨w, hw, rfl, rfl⟩
      exact ⟨w, hw, rfl⟩
  have hown (w : Worker) (hw : w ∈ agent.workers) :
      agent.inflight.map.lookup w.commandId = some w.token :=
    (hlookup w.commandId w.token).mpr ⟨w, hw, rfl, rfl⟩
  have htokens : (agent.workers.map Worker.token).Nodup := by
    have hnodup := h.tokens
    rw [running, List.map_map] at hnodup
    exact hnodup
  refine
    { oneWorker := ?_
      entries := hlookup
      size := ?_
      count := h.count
      ownToken := fun w hw w' hw' heq => List.inj_on_of_nodup_map htokens hw hw' heq
      cancelReaches := ?_
      cancelAllReaches := ?_ }
  · have hnodup := h.ids
    rw [running, List.map_map] at hnodup
    exact hnodup
  · have hsize := h.size
    rw [running, List.length_map] at hsize
    exact hsize
  · intro w hw msg answers hcancel htarget
    change (handleMessage cfg agent msg answers).1.requested = _
    have htoken : agent.inflight.cancel (cancelTarget cfg msg) = some w.token := by
      rw [htarget]
      exact hown w hw
    rw [handleMessage_cancel cfg agent msg answers hcancel, handleCancelCommand]
    simp only [htoken]
  · intro w hw
    refine Finset.mem_union_right _ ?_
    rw [List.mem_toFinset, InFlight.cancelAll]
    exact List.mem_map.mpr ⟨⟨w.commandId, w.token⟩, AList.mem_lookup_iff.mp (hown w hw), rfl⟩

/-- **When every worker is tracked**: in all states of a run, exactly when the run delivers
no runnable command again while the window has forgotten it and its worker runs.
SRC: main.cpp:144-205, 285-400 -/
theorem workersTracked_iff (events : List Event) :
    AllStates (next cfg) (WorkersTracked cfg) Agent.init events ↔
      AllSteps (next cfg) (ForgottenIdle cfg) Agent.init events :=
  allStates_iff_allSteps (next cfg) Accounted (WorkersTracked cfg) (ForgottenIdle cfg)
    (fun _ h => h.tracked cfg)
    (fun agent e h hidle => next_accounted cfg agent e h hidle)
    (fun agent e _ hbusy htracked =>
      not_nodup_of_not_forgottenIdle cfg agent e hbusy htracked.oneWorker)
    Agent.init accounted_init events

/-! ## A command run twice -/

/-- A `SendCommand` with a given command id and payload. -/
def sendMessage (id payload : Bytes) : Value :=
  .obj
    [(lit "MessageId", .string (lit "aws.ssm." ++ id ++ lit ".i-1")),
     (lit "Payload", .string payload),
     (lit "Topic", .string kSendCommandTopic)]

/-- The command id of a message id made from it. -/
theorem commandIdFrom_message (id : Bytes) (hdot : (46 : UInt8) ∉ id) :
    commandIdFrom (lit "aws.ssm." ++ id ++ lit ".i-1") = id := by
  have htext : lit "aws.ssm." ++ id ++ lit ".i-1" =
      lit "aws" ++ 46 :: (lit "ssm" ++ 46 :: (id ++ 46 :: lit "i-1")) := by
    have hhead : lit "aws.ssm." = lit "aws" ++ 46 :: (lit "ssm" ++ [46]) := by decide
    have htail : lit ".i-1" = 46 :: lit "i-1" := by decide
    rw [hhead, htail]
    simp
  have hsplit : split (lit "aws.ssm." ++ id ++ lit ".i-1") 46 =
      [lit "aws", lit "ssm", id, lit "i-1"] := by
    rw [htext, split, List.splitOn_append_cons_self_of_not_mem (by decide),
      List.splitOn_append_cons_self_of_not_mem (by decide),
      List.splitOn_append_cons_self_of_not_mem hdot, List.splitOn_eq_singleton (by decide)]
  rw [commandIdFrom, hsplit]
  rfl

/-- A SendCommand message names its command. -/
theorem sendCommandId_message (id payload : Bytes) (hdot : (46 : UInt8) ∉ id) :
    sendCommandId (sendMessage id payload) = some id := by
  have hid : (sendMessage id payload).strAt (lit "MessageId") [] =
      lit "aws.ssm." ++ id ++ lit ".i-1" := rfl
  have htopic : (sendMessage id payload).strAt (lit "Topic") [] = kSendCommandTopic := rfl
  have hhead : lit "aws.ssm." = 97 :: lit "ws.ssm." := by decide
  rw [sendCommandId, hid, htopic, if_pos, commandIdFrom_message id hdot]
  refine ⟨by simp [hhead], by decide⟩

/-- Nothing answers. -/
def noAnswers : Answers := ⟨.noCredentials, .noCredentials, .noCredentials, 0⟩

/-- Commands that cannot be run fill the window and start nothing. -/
theorem run_rejected (ids : List Bytes) (hdots : ∀ id ∈ ids, (46 : UInt8) ∉ id) (agent : Agent)
    (history : List Bytes) (h : Remembers agent.seen history) (hnodup : (history ++ ids).Nodup) :
    let final := runFrom (next cfg) agent (ids.map fun id => .deliver (sendMessage id []) noAnswers)
    Remembers final.seen (history ++ ids) ∧ final.workers = agent.workers := by
  induction ids generalizing agent history with
  | nil => simpa using h
  | cons id ids ih =>
    have hid := sendCommandId_message id [] (hdots id (by simp))
    have hnew : id ∉ agent.seen.set := by
      rw [h.mem_iff]
      intro hmem
      have hold := (lastN_suffix kDedupHistory history).subset hmem
      exact (List.nodup_append.mp hnodup).2.2 id hold id (by simp) rfl
    have hstep : next cfg agent (.deliver (sendMessage id []) noAnswers) =
        { agent with seen := agent.seen.add id } := by
      rw [next, step_reject cfg agent (sendMessage id []) noAnswers id _ hid hnew rfl]
    simp only [List.map_cons, runFrom_cons, hstep]
    have hrest := ih (fun x hx => hdots x (List.mem_cons_of_mem _ hx))
      { agent with seen := agent.seen.add id } (history ++ [id]) (h.add id hnew)
      (by simpa using hnodup)
    simpa using hrest

def exampleConfig : Config :=
  { strtod := fun _ => (.finite 0, 0)
    info := ⟨[], [], [], [], []⟩
    instanceId := lit "i-1" }

def emptyDocument : Bytes := lit "\x7b\"DocumentContent\":\x7b\x7d\x7d"

/-- The empty document is accepted. -/
theorem emptyDocument_accepted :
    ∃ accepted, acceptPayload exampleConfig (sendMessage (lit "c0") emptyDocument) = .ok accepted := by
  have hok : (acceptPayload exampleConfig (sendMessage (lit "c0") emptyDocument)).toBool = true := by
    decide +kernel
  cases haccept : acceptPayload exampleConfig (sendMessage (lit "c0") emptyDocument) with
  | ok accepted => exact ⟨accepted, rfl⟩
  | error trace =>
    rw [haccept] at hok
    cases hok

/-- A long-running command, other deliveries, and the first message again. -/
def redeliveredAfter (ids : List Bytes) : List Event :=
  .deliver (sendMessage (lit "c0") emptyDocument) noAnswers ::
    ((ids.map fun id => .deliver (sendMessage id []) noAnswers) ++
      [.deliver (sendMessage (lit "c0") emptyDocument) noAnswers])

/-- Once the window holds other commands only, the first one gets a second worker. -/
theorem redeliveredAfter_not_tracked (ids : List Bytes) (hlength : ids.length = kDedupHistory)
    (hnodup : (lit "c0" :: ids).Nodup) (hdots : ∀ id ∈ ids, (46 : UInt8) ∉ id) :
    ¬AllStates (next exampleConfig) (WorkersTracked exampleConfig) Agent.init
      (redeliveredAfter ids) := by
  intro htracked
  have hid : sendCommandId (sendMessage (lit "c0") emptyDocument) = some (lit "c0") :=
    sendCommandId_message _ _ (by decide)
  obtain ⟨⟨doc, body⟩, haccept⟩ := emptyDocument_accepted
  -- the first delivery starts a worker and is remembered
  have hfirst := congrArg Prod.fst (step_start exampleConfig Agent.init
    (sendMessage (lit "c0") emptyDocument) noAnswers _ doc body hid (by decide) haccept)
  let first := next exampleConfig Agent.init (.deliver (sendMessage (lit "c0") emptyDocument) noAnswers)
  have hremembers : Remembers first.seen [lit "c0"] := by
    simp only [first, next, hfirst]
    exact Remembers.init.add (lit "c0") (by decide)
  -- the others push it out of the window
  obtain ⟨hwindow, hworkers⟩ := run_rejected exampleConfig ids hdots first [lit "c0"] hremembers hnodup
  let late := runFrom (next exampleConfig) first
    (ids.map fun id => .deliver (sendMessage id []) noAnswers)
  have hforgotten : lit "c0" ∉ late.seen.set := by
    have hlast : lastN kDedupHistory ([lit "c0"] ++ ids) = ids := by
      rw [lastN, List.length_append, hlength, List.length_singleton, Nat.add_sub_cancel,
        List.singleton_append, List.drop_one, List.tail_cons]
    rw [hwindow.mem_iff, hlast]
    exact (List.nodup_cons.mp hnodup).1
  have hbusy : ¬ForgottenIdle exampleConfig late
      (.deliver (sendMessage (lit "c0") emptyDocument) noAnswers) := by
    intro hidle
    have hnone := hidle _ _ _ doc body rfl hid hforgotten haccept
    have hmem : makeWorker (lit "aws.ssm." ++ lit "c0" ++ lit ".i-1") (lit "c0") doc body 0 ∈
        late.workers := by
      rw [hworkers]
      simp only [first, next, hfirst]
      exact List.mem_singleton.mpr rfl
    exact hnone _ hmem rfl
  have hfinal := htracked (redeliveredAfter ids) List.prefix_rfl
  have hrun : runFrom (next exampleConfig) Agent.init (redeliveredAfter ids) =
      next exampleConfig late (.deliver (sendMessage (lit "c0") emptyDocument) noAnswers) := by
    rw [redeliveredAfter, runFrom_cons, runFrom_append, runFrom_cons, runFrom_nil]
  rw [hrun] at hfinal
  exact not_nodup_of_not_forgottenIdle exampleConfig late _ hbusy hfinal.oneWorker

/-- 512 different ids. -/
def fillers : List Bytes := (List.range kDedupHistory).map fun k => List.replicate (k + 1) 120

/-- With 512 other commands in between, the redelivery starts a second worker. -/
theorem redeliveredLate_not_tracked :
    ¬AllStates (next exampleConfig) (WorkersTracked exampleConfig) Agent.init
      (redeliveredAfter fillers) := by
  refine redeliveredAfter_not_tracked fillers ?_ ?_ ?_
  · rw [fillers, List.length_map, List.length_range]
  · rw [List.nodup_cons]
    constructor
    · intro hmem
      obtain ⟨k, -, hk⟩ := List.mem_map.mp hmem
      rw [List.replicate_succ] at hk
      exact absurd (List.cons.inj hk).1 (by decide)
    · refine List.Nodup.map ?_ List.nodup_range
      intro a b hab
      have hlen := congrArg List.length hab
      simp only [List.length_replicate] at hlen
      omega
  · intro id hid hdot
    obtain ⟨k, -, rfl⟩ := List.mem_map.mp hid
    exact absurd (List.eq_of_mem_replicate hdot) (by decide)

end HaikuAgent.Analysis.WorkerTokens
