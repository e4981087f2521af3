import HaikuAgent.Analysis.ShellPerSession
import HaikuAgent.Model.Shutdown

/-!
# The drain at shutdown

The thread stops at four places, and waits for the sessions at one of them: where `run`
finds the flag itself. `pass_cases` says what one pass can do from where the thread
stands, and every run of the process is a run of the session thread (`thread_run`). The
join is safe exactly in the runs in which `main` never finds the flag set, outside `run`,
while a session is live (`waits_iff`).
-/

set_option autoImplicit false

namespace HaikuAgent.Analysis.ShutdownDrain

open HaikuAgent.Foundation
open HaikuAgent.Model
open HaikuAgent.Model.Json
open HaikuAgent.Model.Mgs
open HaikuAgent.Model.Sessions (Inbound inbound)
open HaikuAgent.Model.ControlChannel
open HaikuAgent.Model.Shutdown
open HaikuAgent.Analysis.ShellPerSession (handleShell_cases keepAlive_sameWorkers meeting startDelivered)

/-- `main` gets past the join if it has reached it.
SRC: main.cpp:822 -/
def JoinReturns (s : Process) : Prop := s.thread.phase = .ended

/-- The window is over that begins when the thread finds the flag set. -/
def WindowOver (s : Process) : Prop := ∃ t ∈ s.noticed, t + drainSeconds ≤ s.latest

/-- The provider outlives the sessions that hold it, or they had the whole window.
SRC: session.cpp:694-697 -/
def WaitsForSessions (s : Process) : Prop := JoinReturns s → s.activeSessions = 0 ∨ WindowOver s

/-- The places where `main` tests the flag. -/
def OutsideRun : Place → Prop
  | .loopTest => True
  | .returned => True
  | .waiting _ => True
  | _ => False

/-- `main` finds the flag set while a session is live. -/
structure LeavesSessions (s : Process) (e : Event) : Prop where
  goesOn : ∃ p, e = .pass p
  stop : s.stop = true
  outside : OutsideRun s.place
  live : 0 < s.activeSessions

/-! ## What a pass does -/

/-- The phase that goes with a place. -/
def PhaseAt : Place → Phase → Prop
  | .inRun, phase => phase = .serving
  | .draining _, phase => phase = .serving
  | .gone, phase => phase = .ended ∨ phase = .thrown
  | _, phase => phase = .between

def InPlace (s : Process) : Prop := PhaseAt s.place s.thread.phase

/-- A place goes with its phase. -/
theorem phaseAt_placeOf (phase : Phase) : PhaseAt (placeOf phase) phase := by
  cases phase <;> simp [placeOf, PhaseAt]

/-- Outside `run` the thread is between its calls. -/
theorem phaseAt_outsideRun {place : Place} {phase : Phase} (h : PhaseAt place phase)
    (houtside : OutsideRun place) : phase = .between := by
  cases place <;> simp [OutsideRun] at houtside <;> exact h

variable (strtod : Bytes → Double × ℕ)

/-- Handling a shell message leaves the phase alone. -/
theorem handleShell_phase (s : SessionThread) (payload : Bytes) :
    (s.handleShell strtod payload).phase = s.phase := by
  rcases handleShell_cases strtod s payload with ⟨hsame, -⟩ | ⟨sr, -, -, hstart⟩
  · rw [hsame]
  · rw [hstart]

/-- A pass that has not found the flag set does not end the thread. -/
theorem callRun_not_ended (s : SessionThread) (p : Pass) (hstop : p.stop = false) :
    (s.callRun p).phase ≠ .ended := by
  unfold SessionThread.callRun
  rw [if_neg (by simp [hstop])]
  cases p.opened <;> simp [SessionThread.runReturned]

/-- Serving does not end without the flag. -/
theorem serve_not_ended (s : SessionThread) (p : Pass) (hstop : p.stop = false)
    (hphase : s.phase = .serving) : (s.serve strtod p).phase ≠ .ended := by
  have hkept : (s.keepAlive p).phase = .serving := (keepAlive_sameWorkers s p).2.trans hphase
  unfold SessionThread.serve
  rw [if_neg (by simp [hstop])]
  cases hin : inbound p.recv with
  | closed => simp [SessionThread.runReturned]
  | nothing => simp [hkept]
  | thrown => simp
  | message m =>
    simp only
    split_ifs
    · simp [handleShell_phase, hkept]
    · simp [SessionThread.runReturned]
    · simp [hkept]

/-- What one pass can do. Only the last three need the flag. -/
inductive PassCases (s s' : Process) : Prop where
  /-- the thread goes to another place, or stays where it is -/
  | idle (place : Place) (hphase : PhaseAt place s.thread.phase)
      (hdrain : ∀ deadline, place = .draining deadline → s.place = .draining deadline)
      (heq : s' = { s with place := place })
  | moved (q : Pass) (halive : (s.thread.step strtod q).phase ≠ .ended)
      (heq : s' = s.moveTo (s.thread.step strtod q))
  | left (hstop : s.stop = true) (houtside : OutsideRun s.place) (heq : s' = s.leave)
  | drains (hplace : s.place = .inRun) (heq : s' = s.beginDrain)
  | drained (deadline : ℤ) (hplace : s.place = .draining deadline)
      (hover : s.activeSessions = 0 ∨ deadline ≤ s.clock)
      (heq : s' = { s with thread := { s.thread with phase := .ended }, place := .gone })

/-- A pass is one of the cases. -/
theorem pass_cases (s : Process) (p : Pass) (h : InPlace s) :
    PassCases strtod s (s.pass strtod p) := by
  unfold InPlace at h
  unfold Process.pass
  cases hplace : s.place with
  | loopTest =>
    rw [hplace] at h
    dsimp only
    by_cases hstop : s.stop = true
    · rw [if_pos hstop]
      apply PassCases.left hstop
      · simp [hplace, OutsideRun]
      · rfl
    · rw [if_neg hstop]
      exact .idle .connecting h (by simp) rfl
  | connecting =>
    rw [hplace] at h
    have hstep : s.thread.step strtod (s.running p) = s.thread.callRun (s.running p) := by
      simp only [SessionThread.step, show s.thread.phase = .between from h]
    dsimp only
    rw [← hstep]
    apply PassCases.moved (s.running p)
    · rw [hstep]
      exact callRun_not_ended s.thread _ rfl
    · rfl
  | inRun =>
    rw [hplace] at h
    dsimp only
    by_cases hstop : s.stop = true
    · rw [if_pos hstop]
      exact .drains hplace rfl
    · have hserving : s.thread.phase = .serving := h
      have hstep : s.thread.step strtod (s.running p) = s.thread.serve strtod (s.running p) := by
        simp only [SessionThread.step, hserving]
      rw [if_neg hstop, ← hstep]
      apply PassCases.moved (s.running p)
      · rw [hstep]
        exact serve_not_ended strtod s.thread _ rfl hserving
      · rfl
  | draining deadline =>
    simp only [Process.drain]
    by_cases hwait : 0 < s.activeSessions ∧ s.clock < deadline
    · rw [if_pos hwait]
      apply PassCases.idle s.place h
      · intro d hd
        exact hd
      · rfl
    · rw [if_neg hwait]
      exact .drained deadline hplace (by omega) rfl
  | returned =>
    rw [hplace] at h
    dsimp only
    by_cases hstop : s.stop = true
    · rw [if_pos hstop]
      apply PassCases.left hstop
      · simp [hplace, OutsideRun]
      · rfl
    · rw [if_neg hstop]
      exact .idle (.waiting _) h (by simp) rfl
  | waiting seconds =>
    rw [hplace] at h
    dsimp only
    by_cases hstop : s.stop = true
    · rw [if_pos hstop]
      apply PassCases.left hstop
      · simp [hplace, OutsideRun]
      · rfl
    · rw [if_neg hstop]
      by_cases hover : seconds ≤ 0
      · rw [if_pos hover]
        exact .idle .loopTest h (by simp) rfl
      · rw [if_neg hover]
        exact .idle (.waiting (seconds - 1)) h (by simp) rfl
  | gone =>
    apply PassCases.idle s.place h
    · intro d hd
      exact hd
    · rfl

/-- A step keeps the place and the phase together. -/
theorem inPlace_step (s : Process) (e : Event) (h : InPlace s) : InPlace (s.step strtod e) := by
  cases e with
  | stopRequested => exact h
  | sessionOver =>
    simp only [Process.step]
    split_ifs
    · exact h
    · exact h
  | tick now => exact h
  | pass p =>
    simp only [Process.step]
    cases pass_cases strtod s p h with
    | idle place hphase hdrain heq =>
      rw [heq]
      exact hphase
    | moved q halive heq =>
      rw [heq]
      exact phaseAt_placeOf _
    | left hstop houtside heq =>
      rw [heq]
      exact Or.inl rfl
    | drains hplace heq =>
      rw [heq]
      unfold InPlace at h
      rw [hplace] at h
      exact h
    | drained deadline hplace hover heq =>
      rw [heq]
      exact Or.inl rfl

/-! ## A run of the process is a run of the session thread -/

/-- An event leaves the thread alone, or is a pass of it. -/
theorem step_thread (s : Process) (e : Event) (h : InPlace s) :
    (s.step strtod e).thread = s.thread ∨
      ∃ q, (s.step strtod e).thread = s.thread.step strtod q := by
  cases e with
  | stopRequested => exact Or.inl rfl
  | sessionOver =>
    left
    simp only [Process.step]
    split_ifs
    · rfl
    · rfl
  | tick now => exact Or.inl rfl
  | pass p =>
    -- the pass in which the thread finds the flag set
    let q : Pass := { p with stop := true }
    simp only [Process.step]
    cases pass_cases strtod s p h with
    | idle place hphase hdrain heq =>
      left
      rw [heq]
    | moved q' halive heq =>
      right
      exact ⟨q', by rw [heq]; rfl⟩
    | left hstop houtside heq =>
      have hbetween : s.thread.phase = .between := phaseAt_outsideRun h houtside
      right
      refine ⟨q, ?_⟩
      rw [heq]
      simp [SessionThread.step, hbetween, SessionThread.callRun, q, Process.leave]
    | drains hplace heq =>
      left
      rw [heq]
      rfl
    | drained deadline hplace hover heq =>
      have hserving : s.thread.phase = .serving := by
        unfold InPlace at h
        rw [hplace] at h
        exact h
      right
      refine ⟨q, ?_⟩
      rw [heq]
      simp [SessionThread.step, hserving, SessionThread.serve, q]

/-- **The process refines the session thread**: what its thread has done in a run, the
session thread does in its passes. -/
theorem thread_run (events : List Event) :
    ∃ passes, (runFrom (Process.step strtod) .init events).thread =
      runFrom (SessionThread.step strtod) .init passes := by
  have hrun : InPlace (runFrom (Process.step strtod) .init events) ∧
      ∃ passes, (runFrom (Process.step strtod) .init events).thread =
        runFrom (SessionThread.step strtod) .init passes := by
    apply runFrom_invariant (Process.step strtod) fun s =>
      InPlace s ∧ ∃ passes, s.thread = runFrom (SessionThread.step strtod) .init passes
    · rintro s e ⟨hplace, passes, hthread⟩
      refine ⟨inPlace_step strtod s e hplace, ?_⟩
      rcases step_thread strtod s e hplace with hsame | ⟨q, hpass⟩
      · exact ⟨passes, hsame.trans hthread⟩
      · refine ⟨passes ++ [q], ?_⟩
        rw [runFrom_append, ← hthread, hpass]
        rfl
    · exact ⟨rfl, [], rfl⟩
  exact hrun.2

/-! ## The join -/

/-- What holds in every state until `main` leaves a live session. -/
structure Safe (s : Process) : Prop where
  inPlace : InPlace s
  window : ∀ deadline, s.place = .draining deadline →
    s.noticed = some (deadline - drainSeconds) ∧ s.clock ≤ s.latest
  waits : WaitsForSessions s

/-- The first state is safe. -/
theorem safe_init : Safe .init := by
  refine ⟨rfl, ?_, ?_⟩
  · intro deadline h
    cases h
  · intro h
    cases h

/-- A thread that has not stopped keeps the join waiting. -/
theorem waits_of_not_ended {s : Process} (h : s.thread.phase ≠ .ended) : WaitsForSessions s := by
  intro hended
  exact absurd hended h

/-- A pass is safe unless `main` leaves a live session in it. -/
theorem safe_pass (s : Process) (p : Pass) (h : Safe s) (hleft : ¬LeavesSessions s (.pass p)) :
    Safe (s.pass strtod p) := by
  have hinPlace : InPlace (s.pass strtod p) := inPlace_step strtod s (.pass p) h.inPlace
  refine ⟨hinPlace, ?_, ?_⟩
  · intro deadline hdeadline
    cases pass_cases strtod s p h.inPlace with
    | idle place hphase hdrain heq =>
      rw [heq] at hdeadline ⊢
      exact h.window deadline (hdrain deadline hdeadline)
    | moved q halive heq =>
      rw [heq] at hdeadline
      cases hphase : (s.thread.step strtod q).phase <;>
        simp [Process.moveTo, placeOf, hphase] at hdeadline
    | left hstop houtside heq =>
      rw [heq] at hdeadline
      cases hdeadline
    | drains hplace heq =>
      rw [heq] at hdeadline ⊢
      cases hdeadline
      simp [Process.beginDrain]
    | drained deadline' hplace hover heq =>
      rw [heq] at hdeadline
      cases hdeadline
  · cases pass_cases strtod s p h.inPlace with
    | idle place hphase hdrain heq =>
      rw [heq]
      exact h.waits
    | moved q halive heq =>
      rw [heq]
      exact waits_of_not_ended halive
    | left hstop houtside heq =>
      rw [heq]
      intro _
      left
      have hnone : ¬0 < s.activeSessions := by
        intro hlive
        exact hleft ⟨⟨p, rfl⟩, hstop, houtside, hlive⟩
      exact Nat.eq_zero_of_not_pos hnone
    | drains hplace heq =>
      rw [heq]
      apply waits_of_not_ended
      have hserving := h.inPlace
      unfold InPlace at hserving
      rw [hplace] at hserving
      simp [Process.beginDrain, show s.thread.phase = .serving from hserving]
    | drained deadline hplace hover heq =>
      obtain ⟨hnoticed, hlatest⟩ := h.window deadline hplace
      rw [heq]
      intro _
      rcases hover with hnone | hlate
      · left
        exact hnone
      · right
        refine ⟨deadline - drainSeconds, hnoticed, ?_⟩
        simp only
        omega

/-- A step is safe unless `main` leaves a live session in it. -/
theorem safe_step (s : Process) (e : Event) (h : Safe s) (hleft : ¬LeavesSessions s e) :
    Safe (s.step strtod e) := by
  cases e with
  | stopRequested => exact ⟨h.inPlace, h.window, h.waits⟩
  | sessionOver =>
    simp only [Process.step]
    split_ifs
    · refine ⟨h.inPlace, h.window, ?_⟩
      intro hended
      rcases h.waits hended with hnone | hover
      · left
        simp only [Process.activeSessions] at hnone ⊢
        omega
      · exact Or.inr hover
    · exact h
  | tick now =>
    refine ⟨h.inPlace, ?_, ?_⟩
    · intro deadline hdeadline
      exact ⟨(h.window deadline hdeadline).1, le_max_right _ _⟩
    · intro hended
      rcases h.waits hended with hnone | ⟨t, ht, hover⟩
      · exact Or.inl hnone
      · exact Or.inr ⟨t, ht, hover.trans (le_max_left _ _)⟩
  | pass p => exact safe_pass strtod s p h hleft

/-- When `main` leaves a live session the join returns at once. -/
theorem join_too_early (s : Process) (e : Event) (hleft : LeavesSessions s e) :
    ¬WaitsForSessions (s.step strtod e) := by
  obtain ⟨⟨p, rfl⟩, hstop, houtside, hlive⟩ := hleft
  have hleave : s.step strtod (.pass p) = s.leave := by
    simp only [Process.step, Process.pass]
    cases hplace : s.place with
    | loopTest => exact if_pos hstop
    | returned => exact if_pos hstop
    | waiting seconds => exact if_pos hstop
    | connecting => simp [hplace, OutsideRun] at houtside
    | inRun => simp [hplace, OutsideRun] at houtside
    | draining deadline => simp [hplace, OutsideRun] at houtside
    | gone => simp [hplace, OutsideRun] at houtside
  rw [hleave]
  intro hwaits
  rcases hwaits rfl with hnone | ⟨t, ht, hover⟩
  · exact hlive.ne' hnone
  · cases ht
    simp [Process.leave, drainSeconds] at hover

/-- **Shutdown waits for live sessions.** In every run of the process, whenever `main` can
get past the join no session is live or the window is over, exactly when `main` never finds
the flag set while a session is live: at the head of its loop, after `run` has returned, or
in the wait before the next call.
SRC: session.cpp:580-704, main.cpp:787-822 -/
theorem waits_iff (events : List Event) :
    AllStates (Process.step strtod) WaitsForSessions .init events ↔
      AllSteps (Process.step strtod) (fun s e => ¬LeavesSessions s e) .init events :=
  allStates_iff_allSteps (Process.step strtod) Safe WaitsForSessions _
    (fun _ h => h.waits)
    (fun s e h hleft => safe_step strtod s e h hleft)
    (fun s e _ hleft => join_too_early strtod s e (not_not.mp hleft))
    .init safe_init events

/-- A session is started, the channel is lost, and the stop request comes before `run` is
called again. -/
def lostThenStopped : List Event :=
  [.pass (meeting .nothing), .pass (meeting .nothing), .pass startDelivered,
    .pass (meeting .closed), .stopRequested, .pass (meeting .nothing)]

/-- A channel lost and then stopped: the session is left behind. -/
theorem lostThenStopped_not_waits :
    ¬AllStates (Process.step fun _ => (.finite 0, 0)) WaitsForSessions .init lostThenStopped := by
  intro h
  have hend : let s := runFrom (Process.step fun _ => (.finite 0, 0)) .init lostThenStopped
      s.thread.phase = .ended ∧ s.activeSessions = 1 ∧ s.noticed = some 0 ∧ s.latest = 0 := by
    decide +kernel
  obtain ⟨hended, hlive, hnoticed, hlatest⟩ := hend
  rcases h _ List.prefix_rfl hended with hnone | ⟨t, ht, hover⟩
  · omega
  · rw [hnoticed] at ht
    cases ht
    rw [hlatest] at hover
    simp [drainSeconds] at hover

end HaikuAgent.Analysis.ShutdownDrain
