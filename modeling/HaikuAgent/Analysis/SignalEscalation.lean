import HaikuAgent.Analysis.ShellCapture

/-!
# The escalation of the drain loop

The passes of the drain loop with the clock reading and the cancel request that each ends with.
`Escalated` says which signals they lead to: `SIGTERM` at the first pass that ends past the deadline
or with a request, `SIGKILL` at the first one that ends five seconds later or more, which is also
the last pass. `escalation_sound` is that every run of the loop is escalated so, whatever the calls
answer, and that the signals it speaks of are those that `kill` is called with.
-/

set_option autoImplicit false

namespace HaikuAgent.Analysis.SignalEscalation

open HaikuAgent.Foundation
open HaikuAgent.Model.Exec
open HaikuAgent.Analysis.ShellCapture (beside alone turn readyPass drainPass_eq drainLoop_beside)

/-! ## Passes -/

/-- How a pass ends: its last clock reading, unless `poll` failed, and whether a cancel is requested
then. -/
structure Pass where
  reading : Option ℤ
  requested : Bool

/-- The pass ends at this time or later. -/
def Pass.Reaches (p : Pass) (time : ℤ) : Prop := ∃ now ∈ p.reading, time ≤ now

/-- The pass ends past the deadline or with a request. -/
def Pass.Due (deadline : ℤ) (p : Pass) : Prop := p.requested = true ∨ p.Reaches deadline

section Loop

variable {W : Type} (sys : Sys W) (deadline : ℤ) (cap : ℕ) (cancel : Bool)

/-- A pass up to its last clock reading; `none` where `poll` fails.
SRC: exec.cpp:92-130 -/
def polled (w : W) (d : Drain) : Option (W × Drain) :=
  match sys.poll (sys.now w).2 d.outOpen d.errOpen (waitMs deadline (sys.now w).1 d) with
  | (.failed _, _) => none
  | (.interrupted, w) => some (w, d)
  | (.ready out err, w) =>
    let first := turn sys cap (d.outOpen && out) .out w d
    some (turn sys cap (d.errOpen && err) .err first.1 first.2)

/-- How the pass from here ends. -/
def passFrom (w : W) (d : Drain) : Pass :=
  match polled sys deadline cap w d with
  | none => ⟨none, false⟩
  | some (w, _) => ⟨some (sys.now w).1, cancel && (sys.cancelRequested (sys.now w).2).1⟩

/-- At most `n` passes of the loop, with how they end. -/
def drainRun : ℕ → List Pass → W → Drain → List Pass × W × Drain
  | 0, passes, w, d => (passes, w, d)
  | n + 1, passes, w, d =>
    if d.outOpen || d.errOpen then
      match drainPass sys deadline cap cancel w d with
      | (w', d', true) => drainRun n (passes ++ [passFrom sys deadline cap cancel w d]) w' d'
      | (w', d', false) => (passes ++ [passFrom sys deadline cap cancel w d], w', d')
    else (passes, w, d)

/-- A loop that ends is such a run. -/
theorem drainLoop_eq_run (n : ℕ) (passes : List Pass) (w : W) (d : Drain) :
    drainLoop sys deadline cap cancel n w d = none ∨
      drainLoop sys deadline cap cancel n w d = some (drainRun sys deadline cap cancel n passes w d).2 := by
  induction n generalizing passes w d with
  | zero =>
    unfold drainLoop drainRun
    split_ifs
    · exact .inl rfl
    · exact .inr rfl
  | succ n ih =>
    unfold drainLoop drainRun
    split_ifs
    · obtain ⟨w', d', going⟩ := drainPass sys deadline cap cancel w d
      cases going with
      | true => exact ih _ w' d'
      | false => exact .inr rfl
    · exact .inr rfl

end Loop

/-! ## The two halves of a pass -/

/-- The reads leave what the escalation depends on as it was. -/
structure Untouched (d d' : Drain) : Prop where
  killedTerm : d'.killedTerm = d.killedTerm
  killedKill : d'.killedKill = d.killedKill
  killDeadline : d'.killDeadline = d.killDeadline
  timedOut : d'.timedOut = d.timedOut
  cancelled : d'.cancelled = d.cancelled
  signals : d'.signals = d.signals

/-- Doing nothing leaves everything as it was. -/
theorem Untouched.refl (d : Drain) : Untouched d d := ⟨rfl, rfl, rfl, rfl, rfl, rfl⟩

/-- Two steps that leave the escalation alone leave it alone together. -/
theorem Untouched.trans {a b c : Drain} (h : Untouched a b) (h' : Untouched b c) : Untouched a c where
  killedTerm := h'.killedTerm.trans h.killedTerm
  killedKill := h'.killedKill.trans h.killedKill
  killDeadline := h'.killDeadline.trans h.killDeadline
  timedOut := h'.timedOut.trans h.timedOut
  cancelled := h'.cancelled.trans h.cancelled
  signals := h'.signals.trans h.signals

section Halves

variable {W : Type} (sys : Sys W) (deadline : ℤ) (cap : ℕ) (cancel : Bool)

/-- A read leaves the escalation alone. -/
theorem readStep_untouched (s : Stream) (w : W) (d : Drain) : Untouched d (readStep sys cap s w d).2 := by
  unfold readStep
  split
  · cases s with
    | out => exact ⟨rfl, rfl, rfl, rfl, rfl, rfl⟩
    | err => exact ⟨rfl, rfl, rfl, rfl, rfl, rfl⟩
  · cases s with
    | out => exact ⟨rfl, rfl, rfl, rfl, rfl, rfl⟩
    | err => exact ⟨rfl, rfl, rfl, rfl, rfl, rfl⟩
  · cases s with
    | out => exact ⟨rfl, rfl, rfl, rfl, rfl, rfl⟩
    | err => exact ⟨rfl, rfl, rfl, rfl, rfl, rfl⟩
  · exact Untouched.refl d

/-- A pipe's turn leaves the escalation alone. -/
theorem turn_untouched (ready : Bool) (s : Stream) (w : W) (d : Drain) : Untouched d (turn sys cap ready s w d).2 := by
  unfold turn
  split_ifs
  · exact readStep_untouched sys cap s w d
  · exact Untouched.refl d

/-- A pass leaves the escalation alone up to its last clock reading. -/
theorem polled_untouched {w w' : W} {d d' : Drain} (h : polled sys deadline cap w d = some (w', d')) :
    Untouched d d' := by
  unfold polled at h
  split at h
  · cases h
  · cases h
    exact Untouched.refl d
  · next out err w1 _ =>
    have hfirst := turn_untouched sys cap (d.outOpen && out) .out w1 d
    have hsecond := turn_untouched sys cap (d.errOpen && err) .err (turn sys cap (d.outOpen && out) .out w1 d).1
      (turn sys cap (d.outOpen && out) .out w1 d).2
    have hlast : (turn sys cap (d.errOpen && err) .err (turn sys cap (d.outOpen && out) .out w1 d).1
        (turn sys cap (d.outOpen && out) .out w1 d).2).2 = d' := congrArg Prod.snd (Option.some.inj h)
    rw [hlast] at hsecond
    exact hfirst.trans hsecond

/-- A pass is its first half and the escalation, or a failed `poll`, which ends the loop. -/
theorem drainPass_polled (w : W) (d : Drain) :
    (polled sys deadline cap w d = none ∧ ∃ w' reason,
      drainPass sys deadline cap cancel w d = (w', { d with error := reason }, false)) ∨
    ∃ w' d', polled sys deadline cap w d = some (w', d') ∧
      drainPass sys deadline cap cancel w d = escalate sys deadline cancel w' d' := by
  rw [drainPass_eq]
  unfold polled
  obtain ⟨result, w1⟩ := sys.poll (sys.now w).2 d.outOpen d.errOpen (waitMs deadline (sys.now w).1 d)
  cases result with
  | failed reason => exact .inl ⟨rfl, w1, _, rfl⟩
  | interrupted => exact .inr ⟨w1, d, rfl, rfl⟩
  | ready out err => exact .inr ⟨_, _, rfl, rfl⟩

/-- What the end of a pass sees. -/
def seen (w : W) : Pass := ⟨some (sys.now w).1, cancel && (sys.cancelRequested (sys.now w).2).1⟩

/-- A pass has reached a time when its last clock reading has. -/
theorem reaches_seen (w : W) (time : ℤ) : (seen sys cancel w).Reaches time ↔ time ≤ (sys.now w).1 := by
  unfold Pass.Reaches seen
  simp only [Option.mem_some_iff, exists_eq_left']

/-- A pass whose `poll` succeeded ends with what it sees. -/
theorem passFrom_polled {w w' : W} {d d' : Drain} (h : polled sys deadline cap w d = some (w', d')) :
    passFrom sys deadline cap cancel w d = seen sys cancel w' := by
  unfold passFrom
  rw [h]
  rfl

/-- A pass whose `poll` failed ends without a clock reading. -/
theorem passFrom_failed {w : W} {d : Drain} (h : polled sys deadline cap w d = none) :
    passFrom sys deadline cap cancel w d = ⟨none, false⟩ := by
  unfold passFrom
  rw [h]

/-- What `SIGTERM` at this reading leaves. -/
def terminated (d : Drain) (now : ℤ) (requested : Bool) : Drain :=
  { (if requested then { d with cancelled := true } else { d with timedOut := true } : Drain) with
    killedTerm := true
    killDeadline := now + 5000
    signals := d.signals ++ [(.term, now)] }

/-- The end of a pass before `SIGTERM`. -/
theorem escalate_waiting (w : W) (d : Drain) (h : d.killedTerm = false) :
    ∃ w', escalate sys deadline cancel w d =
      if (seen sys cancel w).requested = true ∨ deadline ≤ (sys.now w).1 then
        (w', terminated d (sys.now w).1 (seen sys cancel w).requested, true)
      else (w', d, true) := by
  have hrequested : (if cancel then sys.cancelRequested (sys.now w).2 else (false, (sys.now w).2)).1 =
      (seen sys cancel w).requested := by
    unfold seen
    cases cancel with
    | false => rfl
    | true => rfl
  unfold escalate
  dsimp only
  rw [hrequested, h]
  simp only [Bool.not_false, Bool.and_true, Bool.true_and, Bool.or_eq_true, decide_eq_true_eq, Bool.false_and,
    Bool.false_eq_true, if_false]
  by_cases hdue : (seen sys cancel w).requested = true ∨ deadline ≤ (sys.now w).1
  · simp only [if_pos hdue]
    refine ⟨_, Prod.ext rfl (Prod.ext ?_ rfl)⟩
    unfold terminated
    cases (seen sys cancel w).requested with
    | false => rfl
    | true => rfl
  · simp only [if_neg hdue]
    exact ⟨_, rfl⟩

/-- The end of a pass after it. -/
theorem escalate_terminated (w : W) (d : Drain) (hterm : d.killedTerm = true) (hkill : d.killedKill = false) :
    ∃ w', escalate sys deadline cancel w d =
      if d.killDeadline ≤ (sys.now w).1 then
        (w', { d with killedKill := true, signals := d.signals ++ [(.kill, (sys.now w).1)] }, false)
      else (w', d, true) := by
  unfold escalate
  dsimp only
  rw [hterm, hkill]
  simp only [Bool.not_true, Bool.and_false, Bool.false_and, Bool.or_self, Bool.false_eq_true, if_false,
    Bool.not_false, Bool.true_and, decide_eq_true_eq]
  by_cases hlate : d.killDeadline ≤ (sys.now w).1
  · simp only [if_pos hlate]
    exact ⟨_, rfl⟩
  · simp only [if_neg hlate]
    exact ⟨_, rfl⟩

end Halves

/-! ## Which signals are sent -/

/-- No pass was due, and there is no signal. -/
structure Quiet (deadline : ℤ) (passes : List Pass) (d : Drain) : Prop where
  early : ∀ p ∈ passes, ¬p.Due deadline
  signals : d.signals = []
  timedOut : d.timedOut = false
  cancelled : d.cancelled = false

/-- The pass `p` was the first that was due, and ended at `time`; the passes after it ended less than
five seconds later. -/
structure TerminatedBy (deadline : ℤ) (earlier : List Pass) (p : Pass) (time : ℤ) (later : List Pass) (d : Drain) :
    Prop where
  early : ∀ q ∈ earlier, ¬q.Due deadline
  due : p.Due deadline
  reading : p.reading = some time
  within : ∀ q ∈ later, ¬q.Reaches (time + 5000)
  cancelled : d.cancelled = p.requested
  timedOut : d.timedOut = !p.requested

/-- What the passes were and which signals they sent: none, `SIGTERM` at the first that was due, or also
`SIGKILL` at the first that ended five seconds later or more, which was the last. -/
def Escalated (deadline : ℤ) (passes : List Pass) (d : Drain) : Prop :=
  Quiet deadline passes d ∨ ∃ earlier p time later, TerminatedBy deadline earlier p time later d ∧
    (passes = earlier ++ p :: later ∧ d.signals = [(.term, time)] ∨
      ∃ last now, passes = earlier ++ p :: (later ++ [last]) ∧ last.reading = some now ∧ time + 5000 ≤ now ∧
        d.signals = [(.term, time), (.kill, now)])

/-- The state that another pass begins in. -/
def Going (deadline : ℤ) (passes : List Pass) (d : Drain) : Prop :=
  d.killedKill = false ∧
    (Quiet deadline passes d ∧ d.killedTerm = false ∨
      ∃ earlier p time later, TerminatedBy deadline earlier p time later d ∧ passes = earlier ++ p :: later ∧
        d.signals = [(.term, time)] ∧ d.killedTerm = true ∧ d.killDeadline = time + 5000)

/-- A loop that goes on has escalated as it should. -/
theorem Going.escalated {deadline : ℤ} {passes : List Pass} {d : Drain} (h : Going deadline passes d) :
    Escalated deadline passes d := by
  obtain ⟨-, ⟨hquiet, -⟩ | ⟨earlier, p, time, later, hby, hpasses, hsignals, -, -⟩⟩ := h
  · exact .inl hquiet
  · exact .inr ⟨earlier, p, time, later, hby, .inl ⟨hpasses, hsignals⟩⟩

/-- A loop that goes on goes on when the escalation is left alone. -/
theorem Going.untouched {deadline : ℤ} {passes : List Pass} {d d' : Drain} (h : Going deadline passes d)
    (hsame : Untouched d d') : Going deadline passes d' := by
  obtain ⟨hkill, hcases⟩ := h
  refine ⟨hsame.killedKill.trans hkill, ?_⟩
  obtain ⟨hquiet, hterm⟩ | ⟨earlier, p, time, later, hby, hpasses, hsignals, hterm, hdeadline⟩ := hcases
  · exact .inl ⟨⟨hquiet.early, hsame.signals.trans hquiet.signals, hsame.timedOut.trans hquiet.timedOut,
      hsame.cancelled.trans hquiet.cancelled⟩, hsame.killedTerm.trans hterm⟩
  · exact .inr ⟨earlier, p, time, later,
      { hby with cancelled := hsame.cancelled.trans hby.cancelled, timedOut := hsame.timedOut.trans hby.timedOut },
      hpasses, hsame.signals.trans hsignals, hsame.killedTerm.trans hterm, hsame.killDeadline.trans hdeadline⟩

/-- A pass that is not due, or not late enough, changes nothing. -/
theorem Going.concat {deadline : ℤ} {passes : List Pass} {d : Drain} (h : Going deadline passes d) {p : Pass}
    (hearly : d.killedTerm = false → ¬p.Due deadline) (hwithin : d.killedTerm = true → ¬p.Reaches d.killDeadline) :
    Going deadline (passes ++ [p]) d := by
  obtain ⟨hkill, ⟨hquiet, hterm⟩ | ⟨earlier, q, time, later, hby, rfl, hsignals, hterm, hdeadline⟩⟩ := h
  · refine ⟨hkill, .inl ⟨{ hquiet with early := ?_ }, hterm⟩⟩
    intro q hq
    obtain hq | hq := List.mem_append.mp hq
    · exact hquiet.early q hq
    · rw [List.mem_singleton.mp hq]
      exact hearly hterm
  · refine ⟨hkill, .inr ⟨earlier, q, time, later ++ [p], { hby with within := ?_ }, ?_, hsignals, hterm, hdeadline⟩⟩
    · intro r hr
      obtain hr | hr := List.mem_append.mp hr
      · exact hby.within r hr
      · rw [List.mem_singleton.mp hr, ← hdeadline]
        exact hwithin hterm
    · rw [List.append_assoc, List.cons_append]

/-- The first pass that is due sends `SIGTERM`; what it notes is why. -/
theorem Quiet.terminate {deadline : ℤ} {passes : List Pass} {d : Drain} (h : Quiet deadline passes d)
    (hkill : d.killedKill = false) {p : Pass} {now : ℤ} (hreading : p.reading = some now) (hdue : p.Due deadline) :
    Going deadline (passes ++ [p]) (terminated d now p.requested) := by
  have hflags : (terminated d now p.requested).cancelled = p.requested ∧
      (terminated d now p.requested).timedOut = !p.requested ∧
      (terminated d now p.requested).killedKill = d.killedKill := by
    unfold terminated
    cases p.requested with
    | false => exact ⟨h.cancelled, rfl, rfl⟩
    | true => exact ⟨rfl, h.timedOut, rfl⟩
  obtain ⟨hcancelled, htimedOut, hsame⟩ := hflags
  have hsignals : (terminated d now p.requested).signals = [(.term, now)] := by
    unfold terminated
    dsimp only
    rw [h.signals]
    rfl
  refine ⟨hsame.trans hkill, .inr ⟨passes, p, now, [], ?_, rfl, hsignals, rfl, rfl⟩⟩
  exact
    { early := h.early
      due := hdue
      reading := hreading
      within := fun q hq => absurd hq List.not_mem_nil
      cancelled := hcancelled
      timedOut := htimedOut }

/-- The first pass that is late enough sends `SIGKILL`. -/
theorem Going.kill {deadline : ℤ} {passes : List Pass} {d : Drain} (h : Going deadline passes d)
    (hterm : d.killedTerm = true) {p : Pass} {now : ℤ} (hreading : p.reading = some now)
    (hlate : d.killDeadline ≤ now) :
    Escalated deadline (passes ++ [p])
      { d with killedKill := true, signals := d.signals ++ [(.kill, now)] } := by
  obtain ⟨-, ⟨-, hno⟩ | ⟨earlier, q, time, later, hby, rfl, hsignals, -, hdeadline⟩⟩ := h
  · rw [hterm] at hno
    cases hno
  · rw [hdeadline] at hlate
    refine .inr ⟨earlier, q, time, later, { hby with cancelled := hby.cancelled, timedOut := hby.timedOut }, .inr
      ⟨p, now, ?_, hreading, hlate, ?_⟩⟩
    · rw [List.append_assoc, List.cons_append]
    · rw [hsignals]
      rfl

section Runs

variable {W : Type} (sys : Sys W) (deadline : ℤ) (cap : ℕ) (cancel : Bool)

/-- The step: the end of a pass keeps the loop going in such a state, or ends it with `SIGKILL`. -/
theorem escalate_step {passes : List Pass} {w w' : W} {d d' : Drain} {going : Bool} (h : Going deadline passes d)
    (hpass : escalate sys deadline cancel w d = (w', d', going)) :
    (going = true → Going deadline (passes ++ [seen sys cancel w]) d') ∧
      Escalated deadline (passes ++ [seen sys cancel w]) d' := by
  cases hterm : d.killedTerm with
  | false =>
    obtain ⟨w1, hescalate⟩ := escalate_waiting sys deadline cancel w d hterm
    rw [hpass] at hescalate
    by_cases hdue : (seen sys cancel w).requested = true ∨ deadline ≤ (sys.now w).1
    · -- the first pass that is due
      rw [if_pos hdue] at hescalate
      cases hescalate
      obtain ⟨hkill, ⟨hquiet, -⟩ | ⟨_, _, _, _, -, -, -, hyes, -⟩⟩ := h
      · have hafter := hquiet.terminate hkill (p := seen sys cancel w) rfl
          (hdue.imp_right (reaches_seen sys cancel w deadline).mpr)
        exact ⟨fun _ => hafter, hafter.escalated⟩
      · rw [hterm] at hyes
        cases hyes
    · rw [if_neg hdue] at hescalate
      cases hescalate
      have hafter := h.concat (p := seen sys cancel w)
        (fun _ hlate => hdue (hlate.imp_right (reaches_seen sys cancel w deadline).mp))
        (fun hyes => absurd (hterm.symm.trans hyes) Bool.false_ne_true)
      exact ⟨fun _ => hafter, hafter.escalated⟩
  | true =>
    obtain ⟨w1, hescalate⟩ := escalate_terminated sys deadline cancel w d hterm h.1
    rw [hpass] at hescalate
    by_cases hlate : d.killDeadline ≤ (sys.now w).1
    · -- the pass that ends the loop
      rw [if_pos hlate] at hescalate
      cases hescalate
      exact ⟨fun hno => absurd hno Bool.false_ne_true, h.kill hterm rfl hlate⟩
    · rw [if_neg hlate] at hescalate
      cases hescalate
      have hafter := h.concat (p := seen sys cancel w)
        (fun hno => absurd (hterm.symm.trans hno).symm Bool.false_ne_true)
        (fun _ hreaches => hlate ((reaches_seen sys cancel w _).mp hreaches))
      exact ⟨fun _ => hafter, hafter.escalated⟩

/-- One pass escalates as it should, and sees to the invariant if the loop goes on. -/
theorem drainPass_step {passes : List Pass} {w w' : W} {d d' : Drain} {going : Bool} (h : Going deadline passes d)
    (hpass : drainPass sys deadline cap cancel w d = (w', d', going)) :
    (going = true → Going deadline (passes ++ [passFrom sys deadline cap cancel w d]) d') ∧
      Escalated deadline (passes ++ [passFrom sys deadline cap cancel w d]) d' := by
  obtain ⟨hpolled, w1, reason, hfailed⟩ | ⟨w1, d1, hpolled, hescalate⟩ :=
    drainPass_polled sys deadline cap cancel w d
  · rw [hfailed] at hpass
    cases hpass
    rw [passFrom_failed sys deadline cap cancel hpolled]
    have hsame : Untouched d { d with error := reason } := ⟨rfl, rfl, rfl, rfl, rfl, rfl⟩
    have hnever (time : ℤ) : ¬(⟨none, false⟩ : Pass).Reaches time := by
      rintro ⟨now, hnow, -⟩
      cases hnow
    have hafter := (h.untouched hsame).concat (p := ⟨none, false⟩)
      (fun _ hdue => hdue.elim Bool.false_ne_true (hnever deadline)) (fun _ => hnever _)
    exact ⟨fun _ => hafter, hafter.escalated⟩
  · rw [passFrom_polled sys deadline cap cancel hpolled]
    rw [hescalate] at hpass
    exact escalate_step sys deadline cancel (h.untouched (polled_untouched sys deadline cap hpolled)) hpass

/-- Any number of passes escalate as they should. -/
theorem drainRun_escalated (n : ℕ) {passes : List Pass} {w : W} {d : Drain} (h : Going deadline passes d) :
    Escalated deadline (drainRun sys deadline cap cancel n passes w d).1
      (drainRun sys deadline cap cancel n passes w d).2.2 := by
  induction n generalizing passes w d with
  | zero => exact h.escalated
  | succ n ih =>
    unfold drainRun
    split_ifs
    · split
      · next w' d' hpass => exact ih ((drainPass_step sys deadline cap cancel h hpass).1 rfl)
      · next w' d' hpass => exact (drainPass_step sys deadline cap cancel h hpass).2
    · exact h.escalated

end Runs

/-! ## The calls of `kill` -/

/-- `sys` with the signals sent kept beside its state. -/
def signalling {W : Type} (sys : Sys W) : Sys (W × List Signal) :=
  beside (fun sent _ _ => sent) (fun sent signal => sent ++ [signal]) sys

/-- The signals listed are those sent. -/
def Listed {W : Type} (k : W × List Signal) (d : Drain) : Prop := k.2 = d.signals.map Prod.fst

section Kills

variable {W : Type} (sys : Sys W) (deadline : ℤ) (cap : ℕ) (cancel : Bool)

/-- A read sends nothing. -/
theorem listed_readStep {k : W × List Signal} {d : Drain} (h : Listed k d) (s : Stream) :
    Listed (readStep (signalling sys) cap s k d).1 (readStep (signalling sys) cap s k d).2 := by
  have hsent : (readStep (signalling sys) cap s k d).1.2 = k.2 := by
    unfold readStep signalling beside
    dsimp only
    cases sys.read k.1 s with
    | mk result w => cases result <;> cases s <;> rfl
  unfold Listed
  rw [hsent, (readStep_untouched (signalling sys) cap s k d).signals]
  exact h

/-- A pipe's turn keeps the list of signals that of the calls made. -/
theorem listed_turn {k : W × List Signal} {d : Drain} (h : Listed k d) (ready : Bool) (s : Stream) :
    Listed (turn (signalling sys) cap ready s k d).1 (turn (signalling sys) cap ready s k d).2 := by
  cases ready with
  | true => exact listed_readStep sys cap h s
  | false => exact h

/-- A signal is listed where it is sent. -/
theorem listed_escalate {k : W × List Signal} {d : Drain} (h : Listed k d) :
    Listed (escalate (signalling sys) deadline cancel k d).1 (escalate (signalling sys) deadline cancel k d).2.1 := by
  have hlisted (signal : Signal) (now : ℤ) : k.2 ++ [signal] = (d.signals ++ [(signal, now)]).map Prod.fst := by
    rw [List.map_append, ← h]
    rfl
  unfold escalate signalling beside
  cases cancel with
  | true =>
    dsimp only
    rw [if_pos rfl]
    split_ifs
    · exact hlisted _ _
    · exact hlisted _ _
    · exact hlisted _ _
    · exact h
  | false =>
    dsimp only
    rw [if_neg Bool.false_ne_true]
    split_ifs
    · exact hlisted _ _
    · exact hlisted _ _
    · exact hlisted _ _
    · exact h

/-- A pass keeps the list of signals that of the calls made. -/
theorem listed_drainPass {k : W × List Signal} {d : Drain} (h : Listed k d) :
    Listed (drainPass (signalling sys) deadline cap cancel k d).1
      (drainPass (signalling sys) deadline cap cancel k d).2.1 := by
  rw [drainPass_eq]
  have hpoll : (signalling sys).poll ((signalling sys).now k).2 d.outOpen d.errOpen
      (waitMs deadline ((signalling sys).now k).1 d) =
        ((sys.poll (sys.now k.1).2 d.outOpen d.errOpen (waitMs deadline (sys.now k.1).1 d)).1,
          (sys.poll (sys.now k.1).2 d.outOpen d.errOpen (waitMs deadline (sys.now k.1).1 d)).2,
            k.2) := rfl
  rw [hpoll]
  cases sys.poll (sys.now k.1).2 d.outOpen d.errOpen (waitMs deadline (sys.now k.1).1 d) with
  | mk result w =>
    have hhere : Listed (w, k.2) d := h
    cases result with
    | failed reason => exact h
    | interrupted => exact listed_escalate sys deadline cancel hhere
    | ready out err =>
      have hfirst := listed_turn sys cap hhere (d.outOpen && out) .out
      exact listed_escalate sys deadline cancel (listed_turn sys cap hfirst (d.errOpen && err) .err)

/-- The drain loop keeps the list of signals that of the calls made. -/
theorem listed_drainLoop (n : ℕ) {k k' : W × List Signal} {d d' : Drain} (h : Listed k d)
    (hloop : drainLoop (signalling sys) deadline cap cancel n k d = some (k', d')) : Listed k' d' := by
  induction n generalizing k d with
  | zero =>
    unfold drainLoop at hloop
    split_ifs at hloop
    cases hloop
    exact h
  | succ n ih =>
    unfold drainLoop at hloop
    split_ifs at hloop
    · have hpass := listed_drainPass sys deadline cap cancel h
      dsimp only at hloop
      split at hloop
      · next k₁ d₁ heq =>
        rw [heq] at hpass
        exact ih hpass hloop
      · next k₁ d₁ heq =>
        rw [heq] at hpass
        cases hloop
        exact hpass
    · cases hloop
      exact h

/-- A loop that ends has sent the signals that it lists. -/
theorem drainLoop_signalling (n : ℕ) {w w' : W} {d : Drain}
    (hloop : drainLoop sys deadline cap cancel n w Drain.init = some (w', d)) :
    drainLoop (signalling sys) deadline cap cancel n (w, []) Drain.init = some ((w', d.signals.map Prod.fst), d) := by
  have halone := drainLoop_beside (fun sent _ _ => sent) (fun sent signal => sent ++ [signal]) sys cap cancel deadline n
    ((w, []) : W × List Signal) Drain.init
  rw [hloop] at halone
  obtain ⟨⟨⟨w₁, sent⟩, d₁⟩, hsignalling, hsame⟩ := Option.map_eq_some_iff.mp halone
  cases hsame
  have hstart : Listed (w, []) Drain.init := rfl
  have hlisted : Listed (w₁, sent) d₁ := listed_drainLoop sys deadline cap cancel n hstart hsignalling
  unfold Listed at hlisted
  dsimp only at hlisted
  rw [← hlisted]
  exact hsignalling

/-- **The escalation is sound**, however the calls answer and however many passes there are.
SRC: exec.cpp:86-158 -/
theorem escalation_sound (n : ℕ) (w : W) :
    Escalated deadline (drainRun sys deadline cap cancel n [] w Drain.init).1
        (drainRun sys deadline cap cancel n [] w Drain.init).2.2 ∧
      (drainLoop sys deadline cap cancel n w Drain.init = none ∨
        drainLoop sys deadline cap cancel n w Drain.init =
          some (drainRun sys deadline cap cancel n [] w Drain.init).2) ∧
      ∀ w' d, drainLoop sys deadline cap cancel n w Drain.init = some (w', d) →
        drainLoop (signalling sys) deadline cap cancel n (w, []) Drain.init =
          some ((w', d.signals.map Prod.fst), d) := by
  have hstart : Going deadline [] Drain.init :=
    ⟨rfl, .inl ⟨⟨fun p hp => absurd hp List.not_mem_nil, rfl, rfl, rfl⟩, rfl⟩⟩
  exact ⟨drainRun_escalated sys deadline cap cancel n hstart, drainLoop_eq_run sys deadline cap cancel n [] w _,
    fun _ _ => drainLoop_signalling sys deadline cap cancel n⟩

end Kills

end HaikuAgent.Analysis.SignalEscalation
