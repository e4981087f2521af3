import HaikuAgent.Analysis.AckedInput
import HaikuAgent.Analysis.JsonRoundTrip
import HaikuAgent.Analysis.MgsFraming

/-!
# What a pass of a session does around its message

A pass resends, drains the pty and may send a goodbye, whatever message it handles. `Closed` says
that a relation between sessions is kept by each of these; then the session that comes to the
message stands in this relation to the one the pass began with, and so does the result of a pass
that comes to none.
-/

set_option autoImplicit false

namespace HaikuAgent.Analysis.SessionPasses

open HaikuAgent.Foundation
open HaikuAgent.Model
open HaikuAgent.Model.Json
open HaikuAgent.Model.Mgs
open HaikuAgent.Model.Sessions
open HaikuAgent.Analysis.AckedInput

/-- What is sent, sent again or left keeps the relation. -/
structure Closed (env : Env) (R : Session → Session → Prop) : Prop where
  refl : ∀ s, R s s
  trans : ∀ {s t u}, R s t → R t u → R s u
  sendStream : ∀ s payloadType data, R s (s.sendStream env payloadType data).2
  sendControl : ∀ s messageType payload, R s (s.sendControl env messageType payload)
  pump : ∀ s nowMs, R s (s.pumpOutbox nowMs).2
  setPhase : ∀ (s : Session) phase, R s { s with phase }

variable {env : Env} {R : Session → Session → Prop}

/-- A relation that single moves keep is kept by a whole drain. -/
theorem Closed.drain (h : Closed env R) (reads : List PtyRead) (s : Session) (running : Bool) :
    R s (s.drain env running reads).2 := by
  induction reads generalizing s running with
  | nil => exact h.refl s
  | cons read reads ih =>
    cases read with
    | data first rest => exact h.trans (h.sendStream s kPayloadOutput (first :: rest)) (ih _ _)
    | eof => exact h.refl s
    | again => exact h.refl s
    | failed => exact h.refl s

/-- A relation that single moves keep is kept by the end of a session. -/
theorem Closed.teardown (h : Closed env R) (sr : StartRequest) (s : Session) (p : Pass) :
    R s (s.teardown env sr p) := by
  unfold Session.teardown
  dsimp only
  generalize toStringInt _ = code
  generalize dump _ = state
  exact h.trans (h.sendStream s kPayloadExitCode code) (h.trans (h.sendControl _ kMsgAgentSessionState state)
    (h.setPhase _ .ended))

variable (sr : StartRequest) (s : Session) (p : Pass)

/-- The session that comes to the message of the pass. -/
def arrival (env : Env) (s : Session) (p : Pass) : Session :=
  match s.phase with
  | .handshake => (s.pumpOutbox p.pumpMs).2
  | .main => ((s.pumpOutbox p.pumpMs).2.drain env true p.reads).2
  | _ => s

/-- How a pass of the handshake loop comes to its message. -/
theorem handshakePass_spec (h : Closed env R) (hstart : s.phase = .handshake) :
    (handles env s p = none → R s (s.handshakePass env sr p)) ∧
      ∀ m, handles env s p = some m →
        ∃ t, t = (s.pumpOutbox p.pumpMs).2 ∧ R s t ∧ Silent s t ∧ t.phase = .handshake ∧
          s.handshakePass env sr p = t.handleHandshake env sr p m := by
  obtain ⟨hsilent, hphase⟩ := pumpOutbox_silent s p.pumpMs
  have hpump := h.pump s p.pumpMs
  rw [handles_handshake env s p hstart]
  unfold Session.handshakePass
  by_cases hstop : p.stop = true
  · rw [if_pos (Or.inl hstop), if_pos hstop]
    exact ⟨fun _ => h.setPhase s .ended, nofun⟩
  rw [if_neg hstop]
  by_cases hlate : s.hsDeadline < p.now
  · rw [if_pos (Or.inr (Or.inl hlate)), if_pos hlate]
    exact ⟨fun _ => h.setPhase s .ended, nofun⟩
  rw [if_neg hlate]
  generalize s.pumpOutbox p.pumpMs = pumped at hsilent hphase hpump ⊢
  obtain ⟨alive, t⟩ := pumped
  cases alive with
  | false =>
    rw [if_pos (Or.inr (Or.inr rfl))]
    exact ⟨fun _ => h.trans hpump (h.setPhase t .ended), nofun⟩
  | true =>
    rw [if_neg (by simp [hstop, hlate])]
    dsimp only
    cases inbound p.recv with
    | closed => exact ⟨fun _ => h.trans hpump (h.setPhase t .ended), nofun⟩
    | thrown => exact ⟨fun _ => h.trans hpump (h.setPhase t .thrown), nofun⟩
    | nothing => exact ⟨fun _ => hpump, nofun⟩
    | message m =>
      refine ⟨nofun, ?_⟩
      intro m' hm'
      cases hm'
      exact ⟨t, rfl, hpump, hsilent, hphase.trans hstart, rfl⟩

/-- How a pass of the main loop comes to its message. -/
theorem mainPass_spec (h : Closed env R) (hstart : s.phase = .main) :
    (handles env s p = none → R s (s.mainPass env sr p)) ∧
      ∀ m, handles env s p = some m →
        ∃ t, t = ((s.pumpOutbox p.pumpMs).2.drain env true p.reads).2 ∧ R s t ∧ Silent s t ∧ t.phase = .main ∧
          s.mainPass env sr p = t.handleMain env sr p m := by
  obtain ⟨hpumpSilent, hpumpPhase⟩ := pumpOutbox_silent s p.pumpMs
  have hpump := h.pump s p.pumpMs
  rw [handles_main env s p hstart]
  unfold Session.mainPass
  by_cases hstop : p.stop = true
  · rw [if_pos (Or.inl hstop), if_pos hstop]
    exact ⟨fun _ => h.teardown sr s p, nofun⟩
  rw [if_neg hstop]
  generalize s.pumpOutbox p.pumpMs = pumped at hpumpSilent hpumpPhase hpump ⊢
  obtain ⟨alive, t⟩ := pumped
  cases alive with
  | false =>
    rw [if_pos (Or.inr (Or.inl rfl))]
    exact ⟨fun _ => h.trans hpump (h.teardown sr t p), nofun⟩
  | true =>
    dsimp only at hpumpSilent hpumpPhase hpump ⊢
    by_cases hidle : kIdleTimeoutSeconds < p.now - t.lastClientActivity
    · rw [if_pos (Or.inr (Or.inr (Or.inl hidle))), if_pos hidle]
      exact ⟨fun _ => h.trans hpump (h.teardown sr t p), nofun⟩
    rw [if_neg hidle]
    obtain ⟨hdrainSilent, hdrainPhase⟩ := drain_silent env p.reads t true
    have hdrain := h.trans hpump (h.drain p.reads t true)
    generalize t.drain env true p.reads = drained at hdrainSilent hdrainPhase hdrain ⊢
    obtain ⟨running, u⟩ := drained
    dsimp only at hdrainSilent hdrainPhase hdrain ⊢
    cases running with
    | none =>
      rw [if_pos (Or.inr (Or.inr (Or.inr (by simp))))]
      exact ⟨fun _ => h.trans hdrain (h.setPhase u .stuck), nofun⟩
    | some running =>
      cases running with
      | false =>
        rw [if_pos (Or.inr (Or.inr (Or.inr (by simp))))]
        exact ⟨fun _ => h.trans hdrain (h.teardown sr u p), nofun⟩
      | true =>
        rw [if_neg (by simp [hstop, hidle])]
        dsimp only
        cases inbound p.recv with
        | closed => exact ⟨fun _ => h.trans hdrain (h.teardown sr u p), nofun⟩
        | thrown => exact ⟨fun _ => h.trans hdrain (h.setPhase u .thrown), nofun⟩
        | nothing => exact ⟨fun _ => hdrain, nofun⟩
        | message m =>
          refine ⟨nofun, ?_⟩
          intro m' hm'
          cases hm'
          exact ⟨u, rfl, hdrain, hpumpSilent.trans hdrainSilent, hdrainPhase.trans (hpumpPhase.trans hstart), rfl⟩

/-- A pass that handles no message keeps the relation. -/
theorem step_of_handles_none (h : Closed env R) (hnone : handles env s p = none) : R s (s.step env sr p) := by
  cases hstart : s.phase with
  | handshake =>
    rw [Session.step, hstart]
    exact (handshakePass_spec sr s p h hstart).1 hnone
  | main =>
    rw [Session.step, hstart]
    exact (mainPass_spec sr s p h hstart).1 hnone
  | ended =>
    rw [Session.step, hstart]
    exact h.refl s
  | stuck =>
    rw [Session.step, hstart]
    exact h.refl s
  | thrown =>
    rw [Session.step, hstart]
    exact h.refl s

/-- The session comes to the message in the relation. -/
theorem step_of_handles (h : Closed env R) (m : AgentMessage) (hm : handles env s p = some m) :
    R s (arrival env s p) ∧ Silent s (arrival env s p) ∧ (arrival env s p).phase = s.phase ∧
      (s.phase = .handshake ∧ s.step env sr p = (arrival env s p).handleHandshake env sr p m ∨
        s.phase = .main ∧ s.step env sr p = (arrival env s p).handleMain env sr p m) := by
  unfold arrival
  cases hstart : s.phase with
  | handshake =>
    obtain ⟨t, rfl, hrel, hsilent, hphase, hstep⟩ := (handshakePass_spec sr s p h hstart).2 m hm
    rw [Session.step, hstart]
    exact ⟨hrel, hsilent, hphase, Or.inl ⟨rfl, hstep⟩⟩
  | main =>
    obtain ⟨t, rfl, hrel, hsilent, hphase, hstep⟩ := (mainPass_spec sr s p h hstart).2 m hm
    rw [Session.step, hstart]
    exact ⟨hrel, hsilent, hphase, Or.inr ⟨rfl, hstep⟩⟩
  | ended => simp [handles, hstart] at hm
  | stuck => simp [handles, hstart] at hm
  | thrown => simp [handles, hstart] at hm

/-- An agent that reads decimal numbers. -/
def decimalEnv : Env := { exampleEnv with strtod := JsonRoundTrip.decimalStrtod }

/-- The message of a pass that receives its frame. -/
theorem inbound_receiving (m : AgentMessage) (c : UInt8) (hlen : m.messageType.length ≤ 32)
    (hlast : m.messageType.getLast? = some c) (hc : c ≠ 32 ∧ c ≠ 0) (hid : MgsFields.CanonicalUuid m.messageId) :
    inbound (receiving m).recv = .message m := by
  have hend : ∀ d ∈ m.messageType.getLast?, d ≠ 32 ∧ d ≠ 0 := by
    intro d hd
    rw [hlast] at hd
    cases hd
    exact hc
  unfold inbound receiving
  dsimp only
  rw [MgsFraming.deserialize_serialize exampleSha256 m blankMessage [] hlen hend hid]

end HaikuAgent.Analysis.SessionPasses
