import HaikuAgent.Analysis.AgentMoves
import HaikuAgent.Foundation.RecencyWindow

/-!
# The dedup window

`SeenCommands` refines a recency window: after any run it holds the last 512 of the
ids ever inserted (`Remembers`, `run_remembers`). An id is inserted only while it is
not remembered, and a worker is started only for an id that is inserted, so the
library's `Spaced.between` separates two executions of one command by 512 others.
-/

set_option autoImplicit false

namespace HaikuAgent.Analysis.DedupWindow

open HaikuAgent.Foundation
open HaikuAgent.Model
open HaikuAgent.Model.Json
open HaikuAgent.Model.Commands
open HaikuAgent.Analysis.AgentMoves

/-! ## `SeenCommands` as a recency window -/

/-- The state of `SeenCommands` after the insertions `history`. -/
structure Remembers (s : SeenCommands) (history : List Bytes) : Prop where
  order : s.order = lastN kDedupHistory history
  set : s.set = s.order.toFinset
  spaced : Spaced kDedupHistory history

namespace Remembers

/-- An agent that has just started remembers nothing. -/
theorem init : Remembers SeenCommands.empty [] := by
  refine ⟨rfl, rfl, ?_⟩
  intro i j hij hj
  simp at hj

variable {s : SeenCommands} {history : List Bytes}

/-- No id is kept twice. -/
theorem nodup (h : Remembers s history) : s.order.Nodup := by
  rw [h.order]
  exact h.spaced.nodup_lastN

/-- There are no more ids than the history has room for. -/
theorem length_le (h : Remembers s history) : s.order.length ≤ kDedupHistory := by
  rw [h.order, length_lastN]
  exact Nat.min_le_left _ _

/-- The ids in the set are the last ones of the history. -/
theorem mem_iff (h : Remembers s history) (id : Bytes) :
    id ∈ s.set ↔ id ∈ lastN kDedupHistory history := by
  rw [h.set, List.mem_toFinset, h.order]

/-- An `add` of an id not in the set is an insertion; any other `add` changes nothing. -/
theorem add (h : Remembers s history) (id : Bytes) (hid : id ∉ s.set) :
    Remembers (s.add id) (history ++ [id]) := by
  have hspaced : Spaced kDedupHistory (history ++ [id]) := by
    refine h.spaced.concat ?_
    rw [← h.mem_iff]
    exact hid
  have hwindow : lastN kDedupHistory (history ++ [id]) = lastN kDedupHistory (s.order ++ [id]) := by
    rw [h.order, lastN_lastN_append]
  have hidorder : id ∉ s.order := by
    rw [h.set, List.mem_toFinset] at hid
    exact hid
  have hnodup : (s.order ++ [id]).Nodup := by
    refine List.nodup_append.mpr ⟨h.nodup, List.nodup_singleton id, ?_⟩
    intro a ha b hb heq
    rw [List.mem_singleton.mp hb] at heq
    exact hidorder (heq ▸ ha)
  have hset : insert id s.set = (s.order ++ [id]).toFinset := by
    rw [h.set]
    ext x
    simp
  have hbound := h.length_le
  unfold SeenCommands.add
  rw [if_neg hid]
  simp only [List.length_append, List.length_singleton]
  by_cases hfull : kDedupHistory < s.order.length + 1
  · -- the oldest id is forgotten
    rw [if_pos hfull]
    obtain ⟨oldest, rest, hcons⟩ : ∃ oldest rest, s.order ++ [id] = oldest :: rest := by
      cases ho : s.order with
      | nil => exact ⟨id, [], rfl⟩
      | cons x xs => exact ⟨x, xs ++ [id], rfl⟩
    rw [hcons] at hnodup
    refine ⟨?_, ?_, hspaced⟩
    · have hlen : (s.order ++ [id]).length - kDedupHistory = 1 := by
        rw [List.length_append, List.length_singleton]
        omega
      rw [hwindow, lastN, hlen]
      simp [hcons]
    · simp only [hset, hcons, List.headD_cons, List.tail_cons, List.toFinset_cons]
      refine Finset.erase_insert ?_
      rw [List.mem_toFinset]
      exact (List.nodup_cons.mp hnodup).1
  · rw [if_neg hfull]
    refine ⟨?_, hset, hspaced⟩
    have hlen : (s.order ++ [id]).length - kDedupHistory = 0 := by
      rw [List.length_append, List.length_singleton]
      omega
    rw [hwindow, lastN, hlen, List.drop_zero]

/-- An `add` forgets ids and brings in only its own. -/
theorem mem_add_of_mem {id x : Bytes} (hx : x ∈ (s.add id).set) : x = id ∨ x ∈ s.set := by
  unfold SeenCommands.add at hx
  dsimp only at hx
  split_ifs at hx
  · exact Or.inr hx
  · exact Finset.mem_insert.mp (Finset.mem_of_mem_erase hx)
  · exact Finset.mem_insert.mp hx

/-- An id is remembered right after it is inserted. -/
theorem mem_add_self (h : Remembers s history) (id : Bytes) (hid : id ∉ s.set) :
    id ∈ (s.add id).set := by
  rw [(h.add id hid).mem_iff, lastN, List.mem_iff_getElem?]
  refine ⟨(history ++ [id]).length - 1 - ((history ++ [id]).length - kDedupHistory), ?_⟩
  rw [List.getElem?_drop]
  have hlen : (history ++ [id]).length - kDedupHistory +
      ((history ++ [id]).length - 1 - ((history ++ [id]).length - kDedupHistory)) =
        history.length := by
    simp only [List.length_append, List.length_singleton, kDedupHistory]
    omega
  rw [hlen, List.getElem?_concat_length]

end Remembers

/-! ## Insertions and executions of a run -/

/-- The id a move inserts, if it inserts one: that of a `SendCommand` not remembered. -/
def insertion (agent : Agent) : Event → List Bytes
  | .deliver msg _ =>
    match sendCommandId msg with
    | some id => if id ∈ agent.seen.set then [] else [id]
    | none => []
  | _ => []

variable (cfg : Config)

/-- The insertions of a run, in order. -/
def insertions : Agent → List Event → List Bytes
  | _, [] => []
  | agent, e :: events => insertion agent e ++ insertions (next cfg agent e) events

/-- The insertions of a run are those of its parts. -/
theorem insertions_append (agent : Agent) (l m : List Event) :
    insertions cfg agent (l ++ m) =
      insertions cfg agent l ++ insertions cfg (runFrom (next cfg) agent l) m := by
  induction l generalizing agent with
  | nil => rfl
  | cons e l ih =>
    simp only [List.cons_append, insertions, runFrom_cons]
    rw [ih, List.append_assoc]

/-- A move's effect on the remembered commands. -/
theorem next_remembers (agent : Agent) (e : Event) (history : List Bytes)
    (h : Remembers agent.seen history) :
    Remembers (next cfg agent e).seen (history ++ insertion agent e) := by
  have hmove := step_moves cfg agent e
  rw [next]
  generalize (step cfg agent e).1 = agent', (step cfg agent e).2 = calls at hmove ⊢
  cases hmove with
  | duplicate msg answers id hid hseen => simpa [insertion, hid, hseen] using h
  | reject msg answers id trace hid hseen hpayload =>
    simpa [insertion, hid, hseen] using h.add id hseen
  | start msg answers id doc payload hid hseen hpayload =>
    simpa [insertion, hid, hseen] using h.add id hseen
  | cancel msg answers token hid htoken => simpa [insertion, hid] using h
  | other msg answers calls hid hcalls => simpa [insertion, hid] using h
  | reply token run w hw hreplied => simpa [insertion] using h
  | finish token w hw hreplied => simpa [insertion] using h
  | idle _ he =>
    cases e with
    | deliver msg answers => exact absurd rfl (he msg answers)
    | reply token run => simpa [insertion] using h
    | done token => simpa [insertion] using h
    | cancelAll => simpa [insertion] using h
  | cancelAll => simpa [insertion] using h

/-- A run adds its insertions to what is remembered. -/
theorem run_remembers (agent : Agent) (events : List Event) (history : List Bytes)
    (h : Remembers agent.seen history) :
    Remembers (runFrom (next cfg) agent events).seen (history ++ insertions cfg agent events) := by
  induction events generalizing agent history with
  | nil => simpa [insertions] using h
  | cons e events ih =>
    rw [runFrom_cons, insertions, ← List.append_assoc]
    exact ih _ _ (next_remembers cfg agent e history h)

/-- A move starts a worker for a command. -/
def Executes (agent : Agent) (e : Event) (id : Bytes) : Prop :=
  ∃ w : Worker, (next cfg agent e).workers = agent.workers ++ [w] ∧ w.commandId = id

/-- Only an insertion starts a worker. -/
theorem insertion_of_executes (agent : Agent) (e : Event) (id : Bytes)
    (h : Executes cfg agent e id) : insertion agent e = [id] := by
  obtain ⟨w, hworkers, hid⟩ := h
  have hlength : (next cfg agent e).workers.length = agent.workers.length + 1 := by
    rw [hworkers, List.length_append, List.length_singleton]
  have hmove := step_moves cfg agent e
  rw [next] at hworkers hlength
  generalize (step cfg agent e).1 = agent', (step cfg agent e).2 = calls at hmove hworkers hlength
  cases hmove with
  | start msg answers started doc payload hsend hseen hpayload =>
    have hw := List.append_cancel_left hworkers
    rw [← List.singleton_inj.mp hw] at hid
    simp only [insertion, hsend, if_neg hseen]
    exact congrArg (fun x => [x]) hid
  | reply token run w' hw' hreplied => simp at hlength
  | finish token w' hw' hreplied =>
    have hle := List.length_filter_le (fun x : Worker => decide (x.token ≠ token)) agent.workers
    simp only [ne_eq] at hle hlength
    omega
  | duplicate msg answers id' hid' hseen => omega
  | reject msg answers id' trace hid' hseen hpayload => simp at hlength
  | cancel msg answers token hid' htoken => simp at hlength
  | other msg answers calls hid' hcalls => omega
  | idle _ he => omega
  | cancelAll => simp at hlength

/-! ## At most once within the window -/

/-- The two containers agree, hold no id twice and at most 512 ids, and `seen` answers for
the last 512 insertions.
SRC: main.cpp:144-164 -/
def WindowExact (s : SeenCommands) (history : List Bytes) : Prop :=
  s.set = s.order.toFinset ∧ s.order.Nodup ∧ s.order.length ≤ kDedupHistory ∧
    ∀ id, s.seen id = true ↔ id ∈ lastN kDedupHistory history

/-- Between two executions of one command, 512 other commands were inserted. -/
def ExecutionsApart (events : List Event) : Prop :=
  ∀ before e between e' after id, events = before ++ e :: (between ++ e' :: after) →
    Executes cfg (runFrom (next cfg) Agent.init before) e id →
    Executes cfg (runFrom (next cfg) Agent.init (before ++ e :: between)) e' id →
    ∃ S : Finset Bytes, kDedupHistory ≤ S.card ∧ id ∉ S ∧
      ∀ x ∈ S, x ∈ insertions cfg (runFrom (next cfg) Agent.init (before ++ [e])) between

/-- A redelivery of a remembered command changes nothing and is only acknowledged.
SRC: main.cpp:289-296 -/
def RedeliveryAcknowledged (agent : Agent) : Prop :=
  ∀ msg answers id, sendCommandId msg = some id → agent.seen.seen id = true →
    step cfg agent (.deliver msg answers) =
      (agent, acknowledgeMessage (msg.strAt (lit "MessageId") []) answers.ack)

/-- Between two executions of a command there are as many insertions as the history has room for. -/
theorem executions_apart (events : List Event) : ExecutionsApart cfg events := by
  intro before e between e' after id hevents hfirst hsecond
  have hfirst' := insertion_of_executes cfg _ _ _ hfirst
  have hsecond' := insertion_of_executes cfg _ _ _ hsecond
  have hrun := run_remembers cfg Agent.init events [] Remembers.init
  have hhistory : insertions cfg Agent.init events =
      insertions cfg Agent.init before ++ id ::
        (insertions cfg (runFrom (next cfg) Agent.init (before ++ [e])) between ++
          id :: insertions cfg (runFrom (next cfg) Agent.init (before ++ e :: (between ++ [e'])))
            after) := by
    rw [hevents, insertions_append, insertions, hfirst', insertions_append, insertions]
    have hmid : runFrom (next cfg) (next cfg (runFrom (next cfg) Agent.init before) e) between =
        runFrom (next cfg) Agent.init (before ++ e :: between) := by
      rw [runFrom_append, runFrom_cons]
    rw [hmid, hsecond']
    simp only [runFrom_append, runFrom_cons, runFrom_nil, List.singleton_append]
  rw [List.nil_append, hhistory] at hrun
  exact hrun.spaced.between

/-- A command that is still remembered is acknowledged and nothing else. -/
theorem redelivery_acknowledged (agent : Agent) : RedeliveryAcknowledged cfg agent := by
  intro msg answers id hid hseen
  rw [sendCommandId] at hid
  split_ifs at hid with hsend
  have hcommand := Option.some.inj hid
  change handleMessage cfg agent msg answers = _
  unfold handleMessage
  simp only
  have htopic : msg.strAt (lit "Topic") [] ≠ [] := by
    intro hnil
    rw [hnil] at hsend
    exact absurd hsend.2 (by decide)
  rw [if_neg (by simp [hsend.1, htopic]), if_pos hsend.2, handleSendCommand]
  simp only [hcommand]
  rw [if_pos hseen]

/-- **At most once within the window**, after and along every run of the agent.
SRC: main.cpp:144-164, 285-299 -/
theorem dedup_window (events : List Event) :
    WindowExact (runFrom (next cfg) Agent.init events).seen (insertions cfg Agent.init events) ∧
      ExecutionsApart cfg events ∧
      RedeliveryAcknowledged cfg (runFrom (next cfg) Agent.init events) := by
  have hrun := run_remembers cfg Agent.init events [] Remembers.init
  rw [List.nil_append] at hrun
  refine ⟨⟨hrun.set, hrun.nodup, hrun.length_le, ?_⟩, executions_apart cfg events,
    redelivery_acknowledged cfg _⟩
  intro id
  rw [← hrun.mem_iff, SeenCommands.seen, decide_eq_true_eq]

end HaikuAgent.Analysis.DedupWindow
