import Mathlib.Data.List.Count
import HaikuAgent.Foundation.Runs
import HaikuAgent.Model.ControlChannel

/-!
# One shell per session

`run` starts a worker for a StartSession message unless it has seen the session id, and
what it has seen is exactly what the present call has started (`Tracked`). So a session
gets a second worker only from a message that is delivered again after the channel was
lost, and always from one (`oneShell_iff`).
-/

set_option autoImplicit false

namespace HaikuAgent.Analysis.ShellPerSession

open HaikuAgent.Foundation
open HaikuAgent.Model
open HaikuAgent.Model.Json
open HaikuAgent.Model.Mgs
open HaikuAgent.Model.Sessions (StartRequest Inbound inbound)
open HaikuAgent.Model.ControlChannel

/-! ## The workers -/

/-- The worker an action starts: the call of `run` that starts it, and its session id. -/
def workerOf : Action → Option (ℕ × Bytes)
  | .start call sr => some (call, sr.sessionId)
  | _ => none

def workers (s : SessionThread) : List (ℕ × Bytes) := s.log.filterMap workerOf

/-- At most one worker was started for each session id.
SRC: session.cpp:673-683 -/
def OneShell (s : SessionThread) : Prop := ∀ id, ((workers s).map Prod.snd).count id ≤ 1

/-- A session has one shell when no two workers have its id. -/
theorem oneShell_iff_nodup (s : SessionThread) :
    OneShell s ↔ ((workers s).map Prod.snd).Nodup := List.nodup_iff_count_le_one.symm

/-- A StartSession message that `run` would start a worker for, but for its session id.
SRC: session.cpp:651-672 -/
def Startable (strtod : Bytes → Double × ℕ) (payload : Bytes) (sr : StartRequest) : Prop :=
  parseStartRequest strtod payload = .ok (sr, []) ∧
    (sr.sessionType = [] ∨ sr.sessionType = lit "Standard_Stream")

/-- The pass delivers such a message to `run`. -/
def Delivers (strtod : Bytes → Double × ℕ) (s : SessionThread) (p : Pass) (sr : StartRequest) : Prop :=
  s.phase = .serving ∧ p.stop = false ∧
    ∃ m, inbound p.recv = .message m ∧ m.messageType = kMsgInteractiveShell ∧
      Startable strtod m.payload sr

/-- It does so for a session that got its worker from an earlier call of `run`. -/
def Redelivered (strtod : Bytes → Double × ℕ) (s : SessionThread) (p : Pass) : Prop :=
  ∃ sr call, Delivers strtod s p sr ∧ call < s.calls ∧ (call, sr.sessionId) ∈ workers s

/-! ## What a pass does -/

variable (strtod : Bytes → Double × ℕ)

/-- The thread's account of its workers is the same, in the same call of `run`. -/
structure SameWorkers (s s' : SessionThread) : Prop where
  workers : workers s' = workers s
  calls : s'.calls = s.calls
  seen : s'.phase = .serving → s'.seen = s.seen

/-- A keepalive starts no worker and stays in its phase. -/
theorem keepAlive_sameWorkers (s : SessionThread) (p : Pass) :
    SameWorkers s (s.keepAlive p) ∧ (s.keepAlive p).phase = s.phase := by
  unfold SessionThread.keepAlive
  split_ifs with h
  · refine ⟨⟨?_, rfl, fun _ => rfl⟩, rfl⟩
    simp [workers, SessionThread.record, workerOf]
  · exact ⟨⟨rfl, rfl, fun _ => rfl⟩, rfl⟩

/-- The return of a run leaves the workers alone. -/
theorem workers_runReturned (s : SessionThread) (ok : Bool) :
    workers (s.runReturned ok) = workers s := by
  simp [workers, SessionThread.runReturned, SessionThread.record, workerOf]

/-- The return of a run starts no worker. -/
theorem runReturned_sameWorkers (s : SessionThread) (ok : Bool) :
    SameWorkers s (s.runReturned ok) := by
  refine ⟨workers_runReturned s ok, rfl, ?_⟩
  intro h
  cases h

/-- `handleShell` does nothing, or starts the worker of a message not seen in this call. -/
theorem handleShell_cases (s : SessionThread) (payload : Bytes) :
    (s.handleShell strtod payload = s ∧ ∀ sr, Startable strtod payload sr → sr.sessionId ∈ s.seen) ∨
      ∃ sr, Startable strtod payload sr ∧ sr.sessionId ∉ s.seen ∧
        s.handleShell strtod payload =
          { s with
            seen := insert sr.sessionId s.seen
            log := s.log ++ [.start s.calls sr] } := by
  unfold SessionThread.handleShell Startable
  cases hparse : parseStartRequest strtod payload with
  | error err =>
    left
    refine ⟨rfl, ?_⟩
    rintro sr ⟨h, -⟩
    cases h
  | ok request =>
    obtain ⟨sr, kmsKeyId⟩ := request
    simp only
    by_cases htype : sr.sessionType ≠ [] ∧ sr.sessionType ≠ lit "Standard_Stream"
    · rw [if_pos htype]
      left
      refine ⟨rfl, ?_⟩
      rintro sr' ⟨h, htype'⟩
      cases h
      exact absurd htype' (not_or.mpr htype)
    rw [if_neg htype]
    by_cases hkms : kmsKeyId ≠ []
    · rw [if_pos hkms]
      left
      refine ⟨rfl, ?_⟩
      rintro sr' ⟨h, -⟩
      cases h
      exact absurd rfl hkms
    rw [if_neg hkms]
    obtain rfl : kmsKeyId = [] := not_not.mp hkms
    by_cases hseen : sr.sessionId ∈ s.seen
    · rw [if_pos hseen]
      left
      refine ⟨rfl, ?_⟩
      rintro sr' ⟨h, -⟩
      cases h
      exact hseen
    · rw [if_neg hseen]
      right
      refine ⟨sr, ⟨rfl, ?_⟩, hseen, rfl⟩
      by_contra hnot
      exact htype (not_or.mp hnot)

/-- What a pass can do: leave the workers alone, begin a call of `run`, or start a worker. -/
inductive PassCases (s : SessionThread) (p : Pass) (s' : SessionThread) : Prop where
  | same (hsame : SameWorkers s s') (hphase : s'.phase = .serving → s.phase = .serving)
      (hshell : ∀ sr, Delivers strtod s p sr → sr.sessionId ∈ s.seen)
  | called (hbetween : s.phase = .between) (hworkers : workers s' = workers s)
      (hcalls : s'.calls = s.calls + 1) (hseen : s'.phase = .serving → s'.seen = ∅)
  | started (sr : StartRequest) (hserving : s.phase = .serving) (hsr : Delivers strtod s p sr)
      (hnew : sr.sessionId ∉ s.seen) (hworkers : workers s' = workers s ++ [(s.calls, sr.sessionId)])
      (hcalls : s'.calls = s.calls) (hseen : s'.seen = insert sr.sessionId s.seen)

/-- What a call of `run` can do in a pass. -/
theorem callRun_cases (s : SessionThread) (p : Pass) (hphase : s.phase = .between) :
    PassCases strtod s p (s.callRun p) := by
  unfold SessionThread.callRun
  by_cases hstop : p.stop = true
  · rw [if_pos hstop]
    refine .same ⟨rfl, rfl, fun _ => rfl⟩ (fun h => by cases h) ?_
    rintro sr ⟨hserving, -⟩
    rw [hphase] at hserving
    cases hserving
  rw [if_neg hstop]
  by_cases hopened : p.opened = true
  · rw [if_neg (by simp [hopened])]
    exact .called hphase rfl rfl (fun _ => rfl)
  · rw [if_pos (by simp [hopened])]
    refine .called hphase (workers_runReturned _ _) rfl ?_
    intro h
    cases h

/-- What serving can do in a pass. -/
theorem serve_cases (s : SessionThread) (p : Pass) (hphase : s.phase = .serving) :
    PassCases strtod s p (s.serve strtod p) := by
  have hquiet (s' : SessionThread) (hsame : SameWorkers s s')
      (hshell : ∀ sr, Delivers strtod s p sr → sr.sessionId ∈ s.seen) : PassCases strtod s p s' :=
    .same hsame (fun _ => hphase) hshell
  unfold SessionThread.serve
  by_cases hstop : p.stop = true
  · rw [if_pos hstop]
    refine hquiet _ ⟨rfl, rfl, fun _ => rfl⟩ ?_
    rintro sr ⟨-, hstop', -⟩
    rw [hstop] at hstop'
    cases hstop'
  rw [if_neg hstop]
  obtain ⟨hkept, hkeptPhase⟩ := keepAlive_sameWorkers s p
  have hkeptSeen := hkept.seen (hkeptPhase.trans hphase)
  -- only a message can bring a request
  have hnone (h : ∀ m, inbound p.recv ≠ .message m) (sr : StartRequest)
      (hsr : Delivers strtod s p sr) : sr.sessionId ∈ s.seen := by
    obtain ⟨-, -, m, hm, -⟩ := hsr
    exact absurd hm (h m)
  cases hin : inbound p.recv with
  | closed =>
    obtain ⟨hworkers, hcalls, -⟩ := runReturned_sameWorkers (s.keepAlive p) false
    refine hquiet _ ⟨hworkers.trans hkept.workers, hcalls.trans hkept.calls, fun h => by cases h⟩ ?_
    exact hnone (fun m h => by rw [hin] at h; cases h)
  | nothing => exact hquiet _ hkept (hnone fun m h => by rw [hin] at h; cases h)
  | thrown =>
    refine hquiet _ ⟨hkept.workers, hkept.calls, fun h => by cases h⟩ ?_
    exact hnone (fun m h => by rw [hin] at h; cases h)
  | message m =>
    simp only
    have hdelivers (sr : StartRequest) (hsr : Delivers strtod s p sr) :
        m.messageType = kMsgInteractiveShell ∧ Startable strtod m.payload sr := by
      obtain ⟨-, -, m', hm', htype, hstart⟩ := hsr
      rw [hin] at hm'
      cases hm'
      exact ⟨htype, hstart⟩
    by_cases htype : m.messageType = kMsgInteractiveShell
    · rw [if_pos htype]
      rcases handleShell_cases strtod (s.keepAlive p) m.payload with ⟨hsame, hseen⟩ | ⟨sr, hsr, hnew, hstart⟩
      · rw [hsame]
        refine hquiet _ hkept ?_
        intro sr hsr
        rw [← hkeptSeen]
        exact hseen sr (hdelivers sr hsr).2
      · rw [hstart]
        have hstop' : p.stop = false := Bool.not_eq_true _ ▸ hstop
        refine .started sr hphase ⟨hphase, hstop', m, hin, htype, hsr⟩ (hkeptSeen ▸ hnew) ?_
          hkept.calls ?_
        · have hkeptWorkers := hkept.workers
          unfold workers at hkeptWorkers ⊢
          rw [List.filterMap_append, hkeptWorkers, ← hkept.calls]
          rfl
        · show insert sr.sessionId (s.keepAlive p).seen = _
          rw [hkeptSeen]
    rw [if_neg htype]
    have hshell (sr : StartRequest) (hsr : Delivers strtod s p sr) : sr.sessionId ∈ s.seen :=
      absurd (hdelivers sr hsr).1 htype
    by_cases hclosed : m.messageType = kMsgChannelClosed
    · rw [if_pos hclosed]
      obtain ⟨hworkers, hcalls, -⟩ := runReturned_sameWorkers (s.keepAlive p) true
      exact hquiet _ ⟨hworkers.trans hkept.workers, hcalls.trans hkept.calls, fun h => by cases h⟩ hshell
    · rw [if_neg hclosed]
      exact hquiet _ hkept hshell

/-- What one pass can do, in every phase. -/
theorem step_cases (s : SessionThread) (p : Pass) : PassCases strtod s p (s.step strtod p) := by
  have hidle (h : s.phase ≠ .serving) (sr : StartRequest) (hsr : Delivers strtod s p sr) :
      sr.sessionId ∈ s.seen := absurd hsr.1 h
  unfold SessionThread.step
  cases hphase : s.phase with
  | between => exact callRun_cases strtod s p hphase
  | serving => exact serve_cases strtod s p hphase
  | ended => exact .same ⟨rfl, rfl, fun _ => rfl⟩ id (hidle (by simp [hphase]))
  | thrown => exact .same ⟨rfl, rfl, fun _ => rfl⟩ id (hidle (by simp [hphase]))

/-! ## What the thread has seen -/

/-- What `run` has seen is what its present call has started. -/
structure Tracked (s : SessionThread) : Prop where
  seen : s.phase = .serving → ∀ id, id ∈ s.seen ↔ (s.calls, id) ∈ workers s
  calls : ∀ w ∈ workers s, w.1 ≤ s.calls
  distinct : OneShell s

/-- The first state is tracked. -/
theorem tracked_init : Tracked .init := by
  refine ⟨?_, ?_, ?_⟩
  · intro h
    cases h
  · intro w hw
    cases hw
  · intro id
    exact Nat.zero_le 1

/-- A session id has no worker yet if the present call has not seen it, and no earlier call
has started one. -/
theorem Tracked.fresh {s : SessionThread} (h : Tracked s) {p : Pass} {sr : StartRequest}
    (hsr : Delivers strtod s p sr) (hnew : sr.sessionId ∉ s.seen) (hred : ¬Redelivered strtod s p) :
    sr.sessionId ∉ (workers s).map Prod.snd := by
  intro hmem
  obtain ⟨⟨call, id⟩, hw, rfl⟩ := List.mem_map.mp hmem
  have hle : call ≤ s.calls := h.calls _ hw
  rcases hle.lt_or_eq with hlt | rfl
  · exact hred ⟨sr, call, hsr, hlt, hw⟩
  · exact hnew ((h.seen hsr.1 sr.sessionId).mpr hw)

/-- A pass keeps the tracking unless it starts a session anew that was already seen. -/
theorem tracked_step (s : SessionThread) (p : Pass) (h : Tracked s) (hred : ¬Redelivered strtod s p) :
    Tracked (s.step strtod p) := by
  cases step_cases strtod s p with
  | same hsame hphase hshell =>
    refine ⟨?_, ?_, ?_⟩
    · intro hserving id
      rw [hsame.seen hserving, hsame.workers, hsame.calls]
      exact h.seen (hphase hserving) id
    · rw [hsame.workers, hsame.calls]
      exact h.calls
    · intro id
      rw [hsame.workers]
      exact h.distinct id
  | called hbetween hworkers hcalls hseen =>
    refine ⟨?_, ?_, ?_⟩
    · intro hserving id
      rw [hseen hserving, hworkers, hcalls]
      refine iff_of_false (Finset.notMem_empty id) ?_
      intro hw
      exact absurd (h.calls _ hw) (by simp)
    · rw [hworkers, hcalls]
      exact fun w hw => Nat.le_succ_of_le (h.calls w hw)
    · intro id
      rw [hworkers]
      exact h.distinct id
  | started sr hserving hsr hnew hworkers hcalls hseen =>
    have hfresh := h.fresh strtod hsr hnew hred
    refine ⟨?_, ?_, ?_⟩
    · intro _ id
      rw [hseen, hworkers, hcalls, Finset.mem_insert, List.mem_append, List.mem_singleton,
        Prod.mk.injEq, h.seen hserving id]
      tauto
    · rw [hworkers, hcalls]
      intro w hw
      rcases List.mem_append.mp hw with hw | hw
      · exact h.calls w hw
      · rw [List.mem_singleton.mp hw]
    · rw [oneShell_iff_nodup, hworkers, List.map_append, List.map_singleton]
      refine List.nodup_append.mpr ⟨(oneShell_iff_nodup s).mp h.distinct, List.nodup_singleton _, ?_⟩
      intro a ha b hb heq
      apply hfresh
      have hb : b = sr.sessionId := List.mem_singleton.mp hb
      rw [← hb, ← heq]
      exact ha

/-- A message that is delivered again to a later call always starts a second worker. -/
theorem second_worker (s : SessionThread) (p : Pass) (h : Tracked s) (hred : Redelivered strtod s p) :
    ¬OneShell (s.step strtod p) := by
  obtain ⟨sr, call, hsr, hlt, hw⟩ := hred
  have hdistinct := (oneShell_iff_nodup s).mp h.distinct
  -- the present call cannot have seen the id: it would be started twice already
  have hnew : sr.sessionId ∉ s.seen := by
    intro hseen
    have hw' := (h.seen hsr.1 _).mp hseen
    have heq := List.inj_on_of_nodup_map hdistinct hw hw' rfl
    exact absurd (congrArg Prod.fst heq) hlt.ne
  cases step_cases strtod s p with
  | same hsame hphase hshell => exact absurd (hshell sr hsr) hnew
  | called hbetween hworkers hcalls hseen =>
    have hserving := hsr.1
    rw [hbetween] at hserving
    cases hserving
  | started sr' hserving hsr' hnew' hworkers hcalls hseen =>
    obtain ⟨-, -, m, hm, -, hstart⟩ := hsr
    obtain ⟨-, -, m', hm', -, hstart'⟩ := hsr'
    rw [hm] at hm'
    cases hm'
    have hrequest := hstart.1.symm.trans hstart'.1
    cases hrequest
    rw [oneShell_iff_nodup, hworkers, List.map_append, List.map_singleton, List.nodup_append]
    rintro ⟨-, -, hdisjoint⟩
    exact hdisjoint _ (List.mem_map_of_mem hw) sr.sessionId (List.mem_singleton_self _) rfl

/-- **One shell per session.** In every run of the session thread, each session gets at
most one worker exactly when no StartSession message is delivered to a call of `run` for a
session that an earlier call has started.
SRC: session.cpp:627, 673-683 -/
theorem oneShell_iff (passes : List Pass) :
    AllStates (SessionThread.step strtod) OneShell .init passes ↔
      AllSteps (SessionThread.step strtod) (fun s p => ¬Redelivered strtod s p) .init passes :=
  allStates_iff_allSteps (SessionThread.step strtod) Tracked OneShell _
    (fun _ h => h.distinct)
    (fun s p h hred => tracked_step strtod s p h hred)
    (fun s p h hred => second_worker strtod s p h (not_not.mp hred))
    .init tracked_init passes

/-! ## A message that is delivered again -/

/-- The request is JSON in a string of the envelope. -/
def startPayload : Bytes :=
  let content := objOf [(lit "sessionType", .string (lit "Standard_Stream"))]
  let task := objOf [(lit "SessionId", .string (lit "s-1")), (lit "DocumentContent", content)]
  dump (objOf [(lit "content", .string (dump task))])

/-- The digest of the payload. -/
def startSha256 : Vector UInt8 32 :=
  #v[0xC7, 0x71, 0x48, 0x66, 0x49, 0x50, 0xF9, 0xDB, 0xD7, 0x4C, 0xC3, 0xF3, 0x0A, 0xF5, 0xE8, 0xDA,
    0x3E, 0x3F, 0xD7, 0x2E, 0x68, 0x63, 0x8B, 0xCF, 0xCD, 0x64, 0x20, 0xF6, 0x5B, 0x87, 0x0B, 0x1E]

def startSession : AgentMessage :=
  { messageType := kMsgInteractiveShell
    schemaVersion := 1
    createdMs := 0
    sequence := 0
    flags := 0
    messageId := lit "00000000-0000-4000-8000-000000000002"
    payloadType := 0
    payload := startPayload }

def meeting (recv : Sessions.Recv) : Pass :=
  { stop := false
    opened := true
    now := 0
    pingedAt := 0
    recv }

def startDelivered : Pass :=
  meeting (.frame ⟨WebSocket.kOpBinary, serialize (fun _ => startSha256) startSession⟩)

/-- The channel opens, the message comes, the channel is lost; then the same again. -/
theorem redelivered_after_reconnect :
    ¬AllStates (SessionThread.step fun _ => (.finite 0, 0)) OneShell .init
      [meeting .nothing, startDelivered, meeting .closed, meeting .nothing, startDelivered] := by
  intro h
  have hlast := h _ List.prefix_rfl (lit "s-1")
  have htwo : ((workers (runFrom (SessionThread.step fun _ => (.finite 0, 0)) .init
      [meeting .nothing, startDelivered, meeting .closed, meeting .nothing, startDelivered])).map
        Prod.snd).count (lit "s-1") = 2 := by decide +kernel
  omega

end HaikuAgent.Analysis.ShellPerSession
