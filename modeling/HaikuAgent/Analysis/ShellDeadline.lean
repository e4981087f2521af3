import HaikuAgent.Interface.ChildProcess

/-!
# When `run_shell` lets a child finish

A drain pass takes three instants: the reading before `poll`, the `poll`, and the
reading after the reads. As long as the readings stay before the deadline, the
pipes are emptied and closed by the polls alone (`pipeAfter`), and nothing else
changes (`Calm`). The drain loop leaves no signal exactly when the pass that
closes the second pipe still ends before the deadline (`drainLoop_of_calm`,
`calm_of_drainLoop`), and the reap loop collects the child exactly when no clock
reading more than 10 s past its start finds the child still running
(`reapLoop_of_inTime`, `reapLoop_ends`).

Together: `grantsTimeout_iff`. The 10 s are counted from the end of the drain loop
and not from the timeout, so a child that closes both pipes and keeps running is
killed long before its timeout.
-/

set_option autoImplicit false

namespace HaikuAgent.Analysis.ShellDeadline

open HaikuAgent.Foundation
open HaikuAgent.Model.Exec
open HaikuAgent.Interface

variable (c : Child) (sched : Schedule)

/-! ## The pipes under polling alone -/

/-- One pipe: how much has been read, and whether the parent still has it open. -/
structure Pipe where
  taken : ℕ
  isOpen : Bool

/-- What one poll at time `t`, and the read it leads to, do to a pipe. -/
def pollPipe (s : Stream) (t : ℤ) (p : Pipe) : Pipe :=
  if p.isOpen && c.readable s t p.taken then
    match (c.pending s t p.taken).take readBuffer with
    | _ :: bs => { p with taken := p.taken + (bs.length + 1) }
    | [] => if c.endsAt s ≤ t then { p with isOpen := false } else p
  else p

/-- A pipe after `n` drain passes. -/
def pipeAfter (s : Stream) : ℕ → Pipe
  | 0 => ⟨0, true⟩
  | n + 1 => pollPipe c s (sched.time (3 * n + 2)) (pipeAfter s n)

/-- After `n` passes the parent has read both pipes to their end. -/
def Drained (n : ℕ) : Prop :=
  (pipeAfter c sched .out n).isOpen = false ∧ (pipeAfter c sched .err n).isOpen = false

instance (n : ℕ) : Decidable (Drained c sched n) := inferInstanceAs (Decidable (_ ∧ _))

/-! ## Drain passes before the deadline -/

/-- The state after `n` passes none of which escalated. -/
structure Calm (n : ℕ) (k : Kernel) (d : Drain) : Prop where
  instant : k.instant = 3 * n + 1
  outTaken : k.outTaken = (pipeAfter c sched .out n).taken
  errTaken : k.errTaken = (pipeAfter c sched .err n).taken
  outOpen : d.outOpen = (pipeAfter c sched .out n).isOpen
  errOpen : d.errOpen = (pipeAfter c sched .err n).isOpen
  killedTerm : d.killedTerm = false
  signals : d.signals = []
  timedOut : d.timedOut = false
  cancelled : d.cancelled = false
  error : d.error = []

def isOpen (d : Drain) : Stream → Bool
  | .out => d.outOpen
  | .err => d.errOpen

/-- The other pipe of the two. -/
def other : Stream → Stream
  | .out => .err
  | .err => .out

/-- What one pipe's turn in a drain pass does: the pipe follows its own course and
nothing else the deadlines depend on changes. -/
structure Visited (s : Stream) (k : Kernel) (d : Drain) (k' : Kernel) (d' : Drain) : Prop where
  pipe : (⟨k'.taken s, isOpen d' s⟩ : Pipe) =
    pollPipe c s (sched.time (k.instant - 1)) ⟨k.taken s, isOpen d s⟩
  instant : k'.instant = k.instant
  otherTaken : k'.taken (other s) = k.taken (other s)
  otherOpen : isOpen d' (other s) = isOpen d (other s)
  killedTerm : d'.killedTerm = d.killedTerm
  signals : d'.signals = d.signals
  timedOut : d'.timedOut = d.timedOut
  cancelled : d'.cancelled = d.cancelled
  error : d'.error = d.error

/-- A pipe's turn follows the pipe's own course. -/
theorem visit (cap : ℕ) (s : Stream) (k : Kernel) (d : Drain) (ready : Bool)
    (hready : ready = (isOpen d s && c.readable s (sched.time (k.instant - 1)) (k.taken s))) :
    let r := if isOpen d s && ready then readStep (childSys c sched) cap s k d else (k, d)
    Visited c sched s k d r.1 r.2 := by
  intro r
  subst hready
  by_cases hturn : (isOpen d s && c.readable s (sched.time (k.instant - 1)) (k.taken s)) = true
  · have hr : r = readStep (childSys c sched) cap s k d := by
      simp only [r]
      rw [if_pos (by simpa using hturn)]
    have hopen : isOpen d s = true := by simp_all
    have hread : (childSys c sched).read k s = readPipe c (sched.time (k.instant - 1)) k s := rfl
    have hpipe : pollPipe c s (sched.time (k.instant - 1)) ⟨k.taken s, isOpen d s⟩ =
        match (c.pending s (sched.time (k.instant - 1)) (k.taken s)).take readBuffer with
        | _ :: bs => ⟨k.taken s + (bs.length + 1), true⟩
        | [] => if c.endsAt s ≤ sched.time (k.instant - 1) then ⟨k.taken s, false⟩
          else ⟨k.taken s, true⟩ := by
      rw [pollPipe, if_pos hturn, hopen]
    rw [hr]
    cases hbytes : (c.pending s (sched.time (k.instant - 1)) (k.taken s)).take readBuffer with
    | cons b bs =>
      rw [readPipe, hbytes] at hread
      rw [hbytes] at hpipe
      constructor
      · rw [hpipe]
        cases s <;> simp [readStep, hread, Kernel.take, Kernel.taken] <;> simpa [isOpen] using hopen
      all_goals cases s <;> simp [readStep, hread, Kernel.take, Kernel.taken, isOpen, other]
    | nil =>
      rw [readPipe, hbytes] at hread
      rw [hbytes] at hpipe
      by_cases hend : c.endsAt s ≤ sched.time (k.instant - 1)
      · simp only [if_pos hend] at hread hpipe
        constructor
        · rw [hpipe]
          cases s <;> simp [readStep, hread, Kernel.taken, isOpen]
        all_goals cases s <;> simp [readStep, hread, Kernel.taken, isOpen, other]
      · simp only [if_neg hend] at hread hpipe
        constructor
        · rw [hpipe]
          cases s <;> simp [readStep, hread, hopen]
        all_goals cases s <;> simp [readStep, hread]
  · have hr : r = (k, d) := by
      simp only [r]
      rw [if_neg (by simp_all)]
    rw [hr]
    constructor <;> first | rfl | (rw [pollPipe, if_neg hturn])

/-- With no cancel request, the end of a pass sends `SIGTERM` when its reading has
reached the deadline and does nothing otherwise. -/
private theorem escalate_childSys (deadline : ℤ) (cancel : Bool) (k : Kernel) (d : Drain)
    (hterm : d.killedTerm = false) :
    escalate (childSys c sched) deadline cancel k d =
      if deadline ≤ sched.time k.instant then
        (k.tick, { d with
          timedOut := true
          killedTerm := true
          killDeadline := sched.time k.instant + kGraceSeconds * 1000
          signals := d.signals ++ [(.term, sched.time k.instant)] }, true)
      else (k.tick, d, true) := by
  by_cases hlate : deadline ≤ sched.time k.instant
  · cases cancel <;> simp [escalate, childSys, hterm, hlate]
  · cases cancel <;> simp [escalate, childSys, hterm, hlate]

/-- One pass from a calm state: a signal when its last reading has reached the
deadline, and a calm state otherwise. -/
theorem drainPass_calm (deadline : ℤ) (cap : ℕ) (cancel : Bool) (n : ℕ) (k : Kernel) (d : Drain)
    (hcalm : Calm c sched n k d) :
    ∃ k' d', drainPass (childSys c sched) deadline cap cancel k d = (k', d', true) ∧
      (deadline ≤ sched.time (3 * n + 3) → d'.signals ≠ []) ∧
      (sched.time (3 * n + 3) < deadline → Calm c sched (n + 1) k' d') := by
  -- the two turns, as `drainPass` takes them
  let k1 : Kernel := k.tick.tick
  let out := d.outOpen && c.readable .out (sched.time k.tick.instant) k.outTaken
  let err := d.errOpen && c.readable .err (sched.time k.tick.instant) k.errTaken
  let r1 := if d.outOpen && out then readStep (childSys c sched) cap .out k1 d else (k1, d)
  let r2 := if r1.2.errOpen && err then readStep (childSys c sched) cap .err r1.1 r1.2 else r1
  have hpass : drainPass (childSys c sched) deadline cap cancel k d =
      escalate (childSys c sched) deadline cancel r2.1 r2.2 := by
    have hopen : r1.2.errOpen = d.errOpen :=
      (visit c sched cap .out k1 d out rfl).otherOpen
    simp only [r2, hopen]
    rfl
  have hvisit1 : Visited c sched .out k1 d r1.1 r1.2 := visit c sched cap .out k1 d out rfl
  have herr : err = (isOpen r1.2 .err &&
      c.readable .err (sched.time (r1.1.instant - 1)) (r1.1.taken .err)) := by
    have hopen : isOpen r1.2 .err = d.errOpen := hvisit1.otherOpen
    have htaken : r1.1.taken .err = k.errTaken := hvisit1.otherTaken
    rw [hopen, htaken, hvisit1.instant]
    rfl
  have hvisit2 : Visited c sched .err r1.1 r1.2 r2.1 r2.2 :=
    visit c sched cap .err r1.1 r1.2 err herr
  have hinstant : r2.1.instant = 3 * n + 3 := by
    rw [hvisit2.instant, hvisit1.instant]
    simp [k1, Kernel.tick, hcalm.instant]
  have hterm : r2.2.killedTerm = false := by
    rw [hvisit2.killedTerm, hvisit1.killedTerm, hcalm.killedTerm]
  rw [hpass, escalate_childSys c sched deadline cancel r2.1 r2.2 hterm, hinstant]
  by_cases hlate : deadline ≤ sched.time (3 * n + 3)
  · rw [if_pos hlate]
    refine ⟨_, _, rfl, ?_, fun hearly => absurd hlate (not_le.mpr hearly)⟩
    intro _
    simp
  · rw [if_neg hlate]
    refine ⟨_, _, rfl, fun h => absurd h hlate, ?_⟩
    intro _
    have htime : k1.instant - 1 = 3 * n + 2 := by simp [k1, Kernel.tick, hcalm.instant]
    have hout : (⟨r2.1.outTaken, r2.2.outOpen⟩ : Pipe) = pipeAfter c sched .out (n + 1) := by
      have htaken : r2.1.outTaken = r1.1.outTaken := hvisit2.otherTaken
      have hopen : r2.2.outOpen = r1.2.outOpen := hvisit2.otherOpen
      have hpipe := hvisit1.pipe
      rw [htime] at hpipe
      rw [htaken, hopen, pipeAfter]
      refine hpipe.trans ?_
      simp [Kernel.taken, isOpen, k1, Kernel.tick, hcalm.outTaken, hcalm.outOpen]
    have herr : (⟨r2.1.errTaken, r2.2.errOpen⟩ : Pipe) = pipeAfter c sched .err (n + 1) := by
      have htaken : r1.1.taken .err = k.errTaken := hvisit1.otherTaken
      have hopen : isOpen r1.2 .err = d.errOpen := hvisit1.otherOpen
      have hpipe := hvisit2.pipe
      rw [hvisit1.instant, htime, htaken, hopen] at hpipe
      rw [pipeAfter]
      refine hpipe.trans ?_
      simp [hcalm.errTaken, hcalm.errOpen]
    refine
      { instant := ?_
        outTaken := by rw [← hout]; rfl
        errTaken := by rw [← herr]; rfl
        outOpen := by rw [← hout]
        errOpen := by rw [← herr]
        killedTerm := hterm
        signals := by rw [hvisit2.signals, hvisit1.signals, hcalm.signals]
        timedOut := by rw [hvisit2.timedOut, hvisit1.timedOut, hcalm.timedOut]
        cancelled := by rw [hvisit2.cancelled, hvisit1.cancelled, hcalm.cancelled]
        error := by rw [hvisit2.error, hvisit1.error, hcalm.error] }
    simp only [Kernel.tick, hinstant]
    omega

/-! ## Signals are never taken back -/

section Signals

variable {W : Type} (sys : Sys W)

/-- A read sends no signal. -/
private theorem readStep_signals (cap : ℕ) (s : Stream) (w : W) (d : Drain) :
    (readStep sys cap s w d).2.signals = d.signals := by
  unfold readStep
  split <;> cases s <;> rfl

/-- An escalation adds to the signals and takes none back. -/
theorem escalate_signals (deadline : ℤ) (cancel : Bool) (w : W) (d : Drain) :
    d.signals <+: (escalate sys deadline cancel w d).2.1.signals := by
  unfold escalate
  simp only
  split_ifs <;> simp

/-- A pass adds to the signals and takes none back. -/
theorem drainPass_signals (deadline : ℤ) (cap : ℕ) (cancel : Bool) (w : W) (d : Drain) :
    d.signals <+: (drainPass sys deadline cap cancel w d).2.1.signals := by
  have hread (b : Bool) (s : Stream) (w : W) (d : Drain) :
      (if b then readStep sys cap s w d else (w, d)).2.signals = d.signals := by
    cases b with
    | false => rfl
    | true => exact readStep_signals sys cap s w d
  unfold drainPass
  simp only
  split
  · exact List.prefix_rfl
  · exact escalate_signals sys deadline cancel _ d
  · refine List.IsPrefix.trans ⟨[], ?_⟩ (escalate_signals sys deadline cancel _ _)
    rw [List.append_nil, hread, hread]

/-- The drain loop adds to the signals and takes none back. -/
theorem drainLoop_signals (deadline : ℤ) (cap : ℕ) (cancel : Bool) (fuel : ℕ) (w : W) (d : Drain)
    (w' : W) (d' : Drain)
    (hrun : drainLoop sys deadline cap cancel fuel w d = some (w', d')) :
    d.signals <+: d'.signals := by
  induction fuel generalizing w d with
  | zero =>
    unfold drainLoop at hrun
    split at hrun
    · cases hrun
    · cases hrun
      exact List.prefix_rfl
  | succ fuel ih =>
    have hpass := drainPass_signals sys deadline cap cancel w d
    unfold drainLoop at hrun
    split at hrun
    · simp only at hrun
      split at hrun
      · next w1 d1 hstep =>
        rw [hstep] at hpass
        exact hpass.trans (ih w1 d1 hrun)
      · next w1 d1 hstep =>
        rw [hstep] at hpass
        cases hrun
        exact hpass
    · cases hrun
      exact List.prefix_rfl

end Signals

/-! ## The drain loop -/

/-- Enough passes that all end before the deadline bring the loop to its end, calm. -/
theorem drainLoop_of_calm (deadline : ℤ) (cap : ℕ) (cancel : Bool) (more fuel n : ℕ) (k : Kernel)
    (d : Drain) (hcalm : Calm c sched n k d) (hopen : ∀ m, n ≤ m → m < n + more → ¬Drained c sched m)
    (hdrained : Drained c sched (n + more))
    (hearly : ∀ m, n ≤ m → m < n + more → sched.time (3 * m + 3) < deadline) (hfuel : more ≤ fuel) :
    ∃ k' d', drainLoop (childSys c sched) deadline cap cancel fuel k d = some (k', d') ∧
      Calm c sched (n + more) k' d' := by
  induction more generalizing n k d fuel with
  | zero =>
    rw [Nat.add_zero] at hdrained
    have hclosed : (d.outOpen || d.errOpen) = false := by
      rw [hcalm.outOpen, hcalm.errOpen, hdrained.1, hdrained.2]
      rfl
    unfold drainLoop
    rw [if_neg (by simp [hclosed])]
    exact ⟨k, d, rfl, hcalm⟩
  | succ more ih =>
    obtain ⟨fuel, rfl⟩ : ∃ f, fuel = f + 1 := ⟨fuel - 1, by omega⟩
    have hgoing : (d.outOpen || d.errOpen) = true := by
      have hnot := hopen n (le_refl n) (by omega)
      rw [hcalm.outOpen, hcalm.errOpen]
      rw [Drained] at hnot
      revert hnot
      cases (pipeAfter c sched .out n).isOpen <;> cases (pipeAfter c sched .err n).isOpen <;> simp
    obtain ⟨k1, d1, hpass, -, hnext⟩ := drainPass_calm c sched deadline cap cancel n k d hcalm
    have hcalm1 := hnext (hearly n (le_refl n) (by omega))
    unfold drainLoop
    rw [if_pos hgoing]
    simp only [hpass]
    have hshift : n + 1 + more = n + (more + 1) := by omega
    rw [← hshift] at hdrained ⊢
    exact ih fuel (n + 1) k1 d1 hcalm1 (fun m h1 h2 => hopen m (by omega) (by omega)) hdrained
      (fun m h1 h2 => hearly m (by omega) (by omega)) (by omega)

/-- A loop that ends without a signal passed its clock readings before the deadline,
and is calm after the pass that closed the second pipe. -/
theorem calm_of_drainLoop (deadline : ℤ) (cap : ℕ) (cancel : Bool) (fuel n : ℕ) (k : Kernel)
    (d : Drain) (k' : Kernel) (d' : Drain) (hcalm : Calm c sched n k d)
    (hrun : drainLoop (childSys c sched) deadline cap cancel fuel k d = some (k', d'))
    (hsignals : d'.signals = []) :
    ∃ m, n ≤ m ∧ Calm c sched m k' d' ∧ Drained c sched m ∧
      (∀ i, n ≤ i → i < m → ¬Drained c sched i ∧ sched.time (3 * i + 3) < deadline) := by
  induction fuel generalizing n k d with
  | zero =>
    unfold drainLoop at hrun
    split at hrun
    · cases hrun
    · next hclosed =>
      cases hrun
      refine ⟨n, le_refl n, hcalm, ?_, fun i h1 h2 => by omega⟩
      simpa [Drained, hcalm.outOpen, hcalm.errOpen] using hclosed
  | succ fuel ih =>
    unfold drainLoop at hrun
    split at hrun
    · next hgoing =>
      obtain ⟨k1, d1, hpass, hlate, hnext⟩ := drainPass_calm c sched deadline cap cancel n k d hcalm
      simp only [hpass] at hrun
      have hearly : sched.time (3 * n + 3) < deadline := by
        by_contra hnot
        have hsent := hlate (not_lt.mp hnot)
        have hprefix := drainLoop_signals _ deadline cap cancel fuel k1 d1 k' d' hrun
        rw [hsignals] at hprefix
        exact hsent (List.prefix_nil.mp hprefix)
      obtain ⟨m, hm, hcalm', hdrained, hbefore⟩ := ih (n + 1) k1 d1 (hnext hearly) hrun
      refine ⟨m, by omega, hcalm', hdrained, ?_⟩
      intro i h1 h2
      rcases Nat.eq_or_lt_of_le h1 with heq | hlt
      · subst heq
        refine ⟨?_, hearly⟩
        rintro ⟨hout, herr⟩
        rw [hcalm.outOpen, hcalm.errOpen, hout, herr] at hgoing
        cases hgoing
      · exact hbefore i hlt h2
    · next hclosed =>
      cases hrun
      refine ⟨n, le_refl n, hcalm, ?_, fun i h1 h2 => by omega⟩
      simpa [Drained, hcalm.outOpen, hcalm.errOpen] using hclosed

/-! ## The reap loop -/

/-- One round: the child has exited, or the reading is late, or the loop goes on. -/
private theorem reapLoop_round (reapDeadline : ℤ) (fuel : ℕ) (k : Kernel) :
    reapLoop (childSys c sched) reapDeadline (fuel + 1) k =
      if c.exitsAt ≤ sched.time k.instant then some (k.tick, .exited c.status)
      else if reapDeadline < sched.time (k.instant + 1) then
        some (k.tick.tick, .gaveUp (sched.time (k.instant + 1)))
      else reapLoop (childSys c sched) reapDeadline fuel k.tick.tick := by
  rw [reapLoop]
  by_cases hnow : c.exitsAt ≤ sched.time k.instant
  · simp [childSys, hnow]
  · simp only [childSys, if_neg hnow]
    rfl

/-- The reap loop collects the child if every reading that finds it still running is
in time. -/
theorem reapLoop_of_inTime (reapDeadline : ℤ) (rounds fuel : ℕ) (k : Kernel)
    (hexit : c.exitsAt ≤ sched.time (k.instant + 2 * rounds))
    (hintime : ∀ j, sched.time (k.instant + 2 * j) < c.exitsAt →
      sched.time (k.instant + 2 * j + 1) ≤ reapDeadline)
    (hfuel : rounds < fuel) :
    ∃ k', reapLoop (childSys c sched) reapDeadline fuel k = some (k', .exited c.status) := by
  induction rounds generalizing fuel k with
  | zero =>
    obtain ⟨fuel, rfl⟩ : ∃ f, fuel = f + 1 := ⟨fuel - 1, by omega⟩
    refine ⟨k.tick, ?_⟩
    rw [reapLoop_round, if_pos (by simpa using hexit)]
  | succ rounds ih =>
    obtain ⟨fuel, rfl⟩ : ∃ f, fuel = f + 1 := ⟨fuel - 1, by omega⟩
    rw [reapLoop_round]
    by_cases hnow : c.exitsAt ≤ sched.time k.instant
    · rw [if_pos hnow]
      exact ⟨k.tick, rfl⟩
    · have hlook : ¬reapDeadline < sched.time (k.instant + 1) :=
        not_lt.mpr (hintime 0 (by simpa using hnow))
      have hshift (j : ℕ) : k.tick.tick.instant + 2 * j = k.instant + 2 * (j + 1) := by
        simp only [Kernel.tick]
        omega
      rw [if_neg hnow, if_neg hlook]
      exact ih fuel k.tick.tick (by rw [hshift]; exact hexit)
        (fun j => by rw [hshift]; exact hintime (j + 1)) (by omega)

/-- A reap loop gives up, or collects the child having met no late reading before. -/
theorem reapLoop_ends (reapDeadline : ℤ) (fuel : ℕ) (k k' : Kernel) (reaped : Reaped)
    (hrun : reapLoop (childSys c sched) reapDeadline fuel k = some (k', reaped)) :
    (∃ now, reaped = .gaveUp now) ∨
      (reaped = .exited c.status ∧ ∀ j, sched.time (k.instant + 2 * j) < c.exitsAt →
        sched.time (k.instant + 2 * j + 1) ≤ reapDeadline) := by
  induction fuel generalizing k with
  | zero => cases hrun
  | succ fuel ih =>
    rw [reapLoop_round] at hrun
    split_ifs at hrun with hnow hlook
    · cases hrun
      refine Or.inr ⟨rfl, ?_⟩
      intro j hj
      have hmono := sched.mono (Nat.le_add_right k.instant (2 * j))
      omega
    · cases hrun
      exact Or.inl ⟨_, rfl⟩
    · rcases ih k.tick.tick hrun with hgave | ⟨hexited, hlater⟩
      · exact Or.inl hgave
      · refine Or.inr ⟨hexited, ?_⟩
        intro j
        cases j with
        | zero =>
          intro _
          exact not_lt.mp hlook
        | succ j =>
          have hshift : k.tick.tick.instant + 2 * j = k.instant + 2 * (j + 1) := by
            simp only [Kernel.tick]
            omega
          rw [← hshift]
          exact hlater j

/-! ## The whole call -/

/-- The call lets the child finish: it returns, having sent no signal, with the child's
exit status and no sign of a timeout, a cancel or an error.
SRC: exec.h:13-22 -/
def LetsFinish (script : Bytes) (timeoutSeconds : ℤ) (workingDir : Bytes) (cap : ℕ)
    (cancel : Bool) : Prop :=
  ∃ fuel k o, runShell (childSys c sched) script timeoutSeconds workingDir cap cancel fuel
      Kernel.init = some (k, o) ∧
    o.signals = [] ∧ o.result.exitCode = c.status.toNat ∧ o.result.timedOut = false ∧
    o.result.cancelled = false ∧ o.result.error = []

/-- The child exits before the effective timeout has run out. -/
def ExitsInTime (timeoutSeconds : ℤ) : Prop :=
  c.exitsAt < sched.time 0 + effectiveTimeout timeoutSeconds * 1000

/-- `n` is the first pass after which both pipes are closed. -/
def ClosedAfter (n : ℕ) : Prop :=
  Drained c sched n ∧ ∀ m, m < n → ¬Drained c sched m

/-- Both pipes are closed by a pass whose last clock reading is before the deadline,
and from there no reading that finds the child still running comes more than 10 s
later. -/
def PipesAndReapInTime (timeoutSeconds : ℤ) : Prop :=
  ∃ n, ClosedAfter c sched n ∧
    sched.time (3 * n) < sched.time 0 + effectiveTimeout timeoutSeconds * 1000 ∧
    ∀ j, sched.time (3 * n + 2 + 2 * j) < c.exitsAt →
      sched.time (3 * n + 3 + 2 * j) ≤ sched.time (3 * n + 1) + 10000

/-- The state at the start of the loop is that of no passes. -/
theorem calm_init : Calm c sched 0 ⟨1, 0, 0⟩ Drain.init := by
  constructor <;> rfl

/-- A child whose pipes and end are in time is let finish. -/
theorem letsFinish_of_inTime (script : Bytes) (timeoutSeconds : ℤ) (workingDir : Bytes) (cap : ℕ)
    (cancel : Bool) (hintime : PipesAndReapInTime c sched timeoutSeconds) :
    LetsFinish c sched script timeoutSeconds workingDir cap cancel := by
  obtain ⟨n, ⟨hdrained, hopen⟩, hdeadline, hreap⟩ := hintime
  let deadline := sched.time 0 + effectiveTimeout timeoutSeconds * 1000
  obtain ⟨rounds, hrounds⟩ : ∃ rounds, c.exitsAt ≤ sched.time (3 * n + 2 + 2 * rounds) := by
    obtain ⟨i, hi⟩ := sched.unbounded c.exitsAt
    exact ⟨i, le_trans hi (sched.mono (by omega))⟩
  have hearly : ∀ m, 0 ≤ m → m < 0 + n → sched.time (3 * m + 3) < deadline := by
    intro m _ hm
    exact lt_of_le_of_lt (sched.mono (by omega)) hdeadline
  obtain ⟨k, d, hdrain, hcalm⟩ := drainLoop_of_calm c sched deadline cap cancel n (n + rounds + 1) 0
    ⟨1, 0, 0⟩ Drain.init (calm_init c sched) (fun m _ hm => hopen m (by omega))
    (by rw [Nat.zero_add]; exact hdrained) hearly (by omega)
  rw [Nat.zero_add] at hcalm
  have hinstant : k.tick.instant = 3 * n + 2 := by
    simp only [Kernel.tick, hcalm.instant]
  obtain ⟨k', hexited⟩ := reapLoop_of_inTime c sched (sched.time (3 * n + 1) + 10000) rounds
    (n + rounds + 1) k.tick (by rw [hinstant]; exact hrounds)
    (fun j => by
      rw [hinstant, show 3 * n + 2 + 2 * j + 1 = 3 * n + 3 + 2 * j by omega]
      exact hreap j)
    (by omega)
  refine ⟨n + rounds + 1, k', conclude d (.exited c.status), ?_, ?_⟩
  · have hspawn : (childSys c sched).spawn Kernel.init script workingDir = (.ok (), Kernel.init) :=
      rfl
    have hstart : (childSys c sched).now Kernel.init = (sched.time 0, ⟨1, 0, 0⟩) := rfl
    have hnow : (childSys c sched).now k = (sched.time (3 * n + 1), k.tick) := by
      rw [← hcalm.instant]
      rfl
    simp only [runShell, hspawn, hstart]
    rw [show sched.time 0 + effectiveTimeout timeoutSeconds * 1000 = deadline from rfl, hdrain]
    simp only [hnow, hexited]
  · exact ⟨hcalm.signals, rfl, hcalm.timedOut, hcalm.cancelled, hcalm.error⟩

/-- A child that is let finish was in time with its pipes and its end. -/
theorem inTime_of_letsFinish (script : Bytes) (timeoutSeconds : ℤ) (workingDir : Bytes) (cap : ℕ)
    (cancel : Bool) (hfinish : LetsFinish c sched script timeoutSeconds workingDir cap cancel) :
    PipesAndReapInTime c sched timeoutSeconds := by
  obtain ⟨fuel, k', o, hrun, hsignals, -⟩ := hfinish
  have hspawn : (childSys c sched).spawn Kernel.init script workingDir = (.ok (), Kernel.init) := rfl
  have hstart : (childSys c sched).now Kernel.init = (sched.time 0, ⟨1, 0, 0⟩) := rfl
  simp only [runShell, hspawn, hstart] at hrun
  split at hrun
  · cases hrun
  · next k d hdrain =>
    split at hrun
    · cases hrun
    · next _ reaped hreap =>
      cases hrun
      rcases reapLoop_ends c sched _ fuel _ k' reaped hreap with ⟨now, rfl⟩ | ⟨rfl, hlooks⟩
      · -- giving up sends a signal
        simp [conclude] at hsignals
      · obtain ⟨n, -, hcalm, hdrained, hbefore⟩ := calm_of_drainLoop c sched _ cap cancel fuel 0 _ _
          k d (calm_init c sched) hdrain hsignals
        refine ⟨n, ⟨hdrained, fun m hm => (hbefore m (Nat.zero_le m) hm).1⟩, ?_, ?_⟩
        · -- no pipe is closed before the first pass, so there is a last one
          cases n with
          | zero => cases hdrained.1
          | succ n => exact (hbefore n (Nat.zero_le n) (by omega)).2
        · have hinstant : k.tick.instant = 3 * n + 2 := by
            simp only [Kernel.tick, hcalm.instant]
          intro j
          have hlook : sched.time (k.tick.instant + 2 * j) < c.exitsAt →
              sched.time (k.tick.instant + 2 * j + 1) ≤ sched.time k.instant + 10000 := hlooks j
          rw [hinstant, hcalm.instant, show 3 * n + 2 + 2 * j + 1 = 3 * n + 3 + 2 * j by omega]
            at hlook
          exact hlook

/-- A child that exits in time is let finish. -/
def GrantsTimeout (script : Bytes) (timeoutSeconds : ℤ) (workingDir : Bytes) (cap : ℕ)
    (cancel : Bool) : Prop :=
  ExitsInTime c sched timeoutSeconds →
    LetsFinish c sched script timeoutSeconds workingDir cap cancel

/-- **When a child that exits in time is not killed**: exactly when the pass that closes
its second pipe reads the clock before the deadline, and no reading more than 10 s
after that pass still finds it running. The second bound is the source's own 10 s,
whatever the timeout is.
SRC: exec.cpp:86-197 -/
theorem grantsTimeout_iff (script : Bytes) (timeoutSeconds : ℤ) (workingDir : Bytes) (cap : ℕ)
    (cancel : Bool) :
    GrantsTimeout c sched script timeoutSeconds workingDir cap cancel ↔
      (ExitsInTime c sched timeoutSeconds → PipesAndReapInTime c sched timeoutSeconds) := by
  constructor
  · intro hgrants hexits
    exact inTime_of_letsFinish c sched script timeoutSeconds workingDir cap cancel (hgrants hexits)
  · intro hintime hexits
    exact letsFinish_of_inTime c sched script timeoutSeconds workingDir cap cancel (hintime hexits)

/-! ## A child that closes its output -/

/-- `exec >/dev/null 2>&1; sleep 20`: both pipes closed at once, exit status 0 after 20 s. -/
def redirected : Child :=
  { out := ⟨[], List.Pairwise.nil, 0⟩
    err := ⟨[], List.Pairwise.nil, 0⟩
    exitsAt := 20000
    status := 0 }

/-- A parent that gets to act every 50 ms. -/
def everyFifty : Schedule :=
  { time := fun k => 50 * k
    mono := by
      intro a b hab
      simp only
      omega
    unbounded := by
      intro t
      refine ⟨t.toNat, ?_⟩
      omega }

/-- With an hour to run, the redirected child is killed after ten seconds. -/
theorem redirected_not_granted :
    ¬GrantsTimeout redirected everyFifty (lit "exec >/dev/null 2>&1; sleep 20") 3600 [] 65536 false := by
  intro hgrants
  have hexits : ExitsInTime redirected everyFifty 3600 := by
    change (20000 : ℤ) < 50 * (0 : ℕ) + 3600 * 1000
    omega
  obtain ⟨n, ⟨-, hfirst⟩, -, hlooks⟩ := inTime_of_letsFinish _ _ _ _ _ _ _ (hgrants hexits)
  have hdrained : Drained redirected everyFifty 1 := by decide
  have hn : n ≤ 1 := by
    by_contra hlt
    exact hfirst 1 (by omega) hdrained
  -- the reading at 10.3 s or before is more than 10 s after the pipes closed
  have hlook := hlooks 101
  change (50 * ((3 * n + 2 + 2 * 101 : ℕ) : ℤ) < 20000 →
    50 * ((3 * n + 3 + 2 * 101 : ℕ) : ℤ) ≤ 50 * ((3 * n + 1 : ℕ) : ℤ) + 10000) at hlook
  omega

end HaikuAgent.Analysis.ShellDeadline
