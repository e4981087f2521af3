import Mathlib.Logic.Function.Basic
import HaikuAgent.Model.Exec

/-!
# What `run_shell` captures

`beside` keeps something beside the state of a machine, which changes nothing for the caller
(`runShell_beside`); `recording sys` is `sys` with every byte that `read` returned. Whatever sizes
the reads have, the output of a call is the first `maxCaptureBytes` bytes read, and the truncation
marker if there were more (`runShell_captured`).
-/

set_option autoImplicit false

namespace HaikuAgent.Analysis.ShellCapture

open HaikuAgent.Foundation
open HaikuAgent.Model.Exec

variable {W : Type}

/-! ## What is kept beside a machine -/

section Beside

variable {G : Type} (onRead : G → Stream → ReadResult → G) (onKill : G → Signal → G)

/-- `sys` with something kept beside its state, which follows what is read and what is killed. -/
def beside (sys : Sys W) : Sys (W × G) where
  spawn k script workingDir := ((sys.spawn k.1 script workingDir).1, (sys.spawn k.1 script workingDir).2, k.2)
  now k := ((sys.now k.1).1, (sys.now k.1).2, k.2)
  poll k outOpen errOpen waitMs :=
    ((sys.poll k.1 outOpen errOpen waitMs).1, (sys.poll k.1 outOpen errOpen waitMs).2, k.2)
  read k s := ((sys.read k.1 s).1, (sys.read k.1 s).2, onRead k.2 s (sys.read k.1 s).1)
  cancelRequested k := ((sys.cancelRequested k.1).1, (sys.cancelRequested k.1).2, k.2)
  kill k signal := (sys.kill k.1 signal, onKill k.2 signal)
  waitpid k := ((sys.waitpid k.1).1, (sys.waitpid k.1).2, k.2)
  sleep k := (sys.sleep k.1, k.2)

/-- A result without what is kept. -/
def alone {α : Type} (r : (W × G) × α) : W × α := (r.1.1, r.2)

section Loops

variable (sys : Sys W) (cap : ℕ) (cancel : Bool) (deadline : ℤ)

/-- A read does the same with records kept beside it. -/
theorem readStep_beside (s : Stream) (k : W × G) (d : Drain) :
    alone (readStep (beside onRead onKill sys) cap s k d) = readStep sys cap s k.1 d := by
  unfold readStep beside
  dsimp only
  cases sys.read k.1 s with
  | mk result w =>
    cases result <;> cases s <;> rfl

/-- An escalation does the same with records kept beside it. -/
theorem escalate_beside (k : W × G) (d : Drain) :
    alone (escalate (beside onRead onKill sys) deadline cancel k d) = escalate sys deadline cancel k.1 d := by
  unfold escalate beside
  cases cancel with
  | true =>
    dsimp only
    rw [if_pos rfl, if_pos rfl]
    split_ifs <;> rfl
  | false =>
    dsimp only
    rw [if_neg Bool.false_ne_true, if_neg Bool.false_ne_true]
    split_ifs <;> rfl

/-- One pipe's turn in a pass. -/
def turn (ready : Bool) (s : Stream) (w : W) (d : Drain) : W × Drain :=
  if ready then readStep sys cap s w d else (w, d)

/-- A pipe's turn does the same with records kept beside it. -/
theorem turn_beside (ready : Bool) (s : Stream) (k : W × G) (d : Drain) :
    alone (turn (beside onRead onKill sys) cap ready s k d) = turn sys cap ready s k.1 d := by
  cases ready with
  | true => exact readStep_beside onRead onKill sys cap s k d
  | false => rfl

/-- A pass whose `poll` succeeded. -/
def readyPass (w : W) (d : Drain) (out err : Bool) : W × Drain × Bool :=
  let first := turn sys cap (d.outOpen && out) .out w d
  let second := turn sys cap (d.errOpen && err) .err first.1 first.2
  escalate sys deadline cancel second.1 second.2

/-- A pass is the outcome of `poll` at the time it waits from. -/
theorem drainPass_eq (w : W) (d : Drain) :
    drainPass sys deadline cap cancel w d =
      match sys.poll (sys.now w).2 d.outOpen d.errOpen (waitMs deadline (sys.now w).1 d) with
      | (.failed reason, w) => (w, { d with error := lit "poll: " ++ reason }, false)
      | (.interrupted, w) => escalate sys deadline cancel w d
      | (.ready out err, w) => readyPass sys cap cancel deadline w d out err := rfl

/-- The turns after `poll` do the same with records kept beside them. -/
theorem readyPass_beside (k : W × G) (d : Drain) (out err : Bool) :
    alone (readyPass (beside onRead onKill sys) cap cancel deadline k d out err) =
      readyPass sys cap cancel deadline k.1 d out err := by
  have hfirst := turn_beside onRead onKill sys cap (d.outOpen && out) .out k d
  unfold readyPass
  dsimp only
  generalize turn (beside onRead onKill sys) cap (d.outOpen && out) .out k d = first at hfirst ⊢
  have hsecond := turn_beside onRead onKill sys cap (d.errOpen && err) .err first.1 first.2
  rw [escalate_beside, ← hfirst]
  show _ = escalate sys deadline cancel (turn sys cap (d.errOpen && err) .err first.1.1 first.2).1
    (turn sys cap (d.errOpen && err) .err first.1.1 first.2).2
  rw [← hsecond]
  rfl

/-- A pass does the same with records kept beside it. -/
theorem drainPass_beside (k : W × G) (d : Drain) :
    alone (drainPass (beside onRead onKill sys) deadline cap cancel k d) =
      drainPass sys deadline cap cancel k.1 d := by
  rw [drainPass_eq, drainPass_eq]
  have hpoll : (beside onRead onKill sys).poll ((beside onRead onKill sys).now k).2 d.outOpen d.errOpen
      (waitMs deadline ((beside onRead onKill sys).now k).1 d) =
        ((sys.poll (sys.now k.1).2 d.outOpen d.errOpen (waitMs deadline (sys.now k.1).1 d)).1,
          (sys.poll (sys.now k.1).2 d.outOpen d.errOpen (waitMs deadline (sys.now k.1).1 d)).2,
            k.2) := rfl
  rw [hpoll]
  cases sys.poll (sys.now k.1).2 d.outOpen d.errOpen (waitMs deadline (sys.now k.1).1 d) with
  | mk result w =>
    cases result with
    | failed reason => rfl
    | interrupted => exact escalate_beside onRead onKill sys cancel deadline (w, k.2) d
    | ready out err => exact readyPass_beside onRead onKill sys cap cancel deadline (w, k.2) d out err

/-- The drain loop does the same with records kept beside it. -/
theorem drainLoop_beside (fuel : ℕ) (k : W × G) (d : Drain) :
    (drainLoop (beside onRead onKill sys) deadline cap cancel fuel k d).map alone =
      drainLoop sys deadline cap cancel fuel k.1 d := by
  induction fuel generalizing k d with
  | zero =>
    unfold drainLoop
    split_ifs <;> rfl
  | succ fuel ih =>
    unfold drainLoop
    split_ifs
    · have hpass := drainPass_beside onRead onKill sys cap cancel deadline k d
      dsimp only
      rw [← hpass]
      cases drainPass (beside onRead onKill sys) deadline cap cancel k d with
      | mk k' rest =>
        obtain ⟨d', again⟩ := rest
        cases again with
        | true => exact ih k' d'
        | false => rfl
    · rfl

/-- Reaping does the same with records kept beside it. -/
theorem reapLoop_beside (fuel : ℕ) (k : W × G) :
    (reapLoop (beside onRead onKill sys) deadline fuel k).map alone = reapLoop sys deadline fuel k.1 := by
  induction fuel generalizing k with
  | zero => rfl
  | succ fuel ih =>
    unfold reapLoop
    have hwait : (beside onRead onKill sys).waitpid k =
      ((sys.waitpid k.1).1, (sys.waitpid k.1).2, k.2) := rfl
    rw [hwait]
    cases sys.waitpid k.1 with
    | mk result w =>
      cases result with
      | running =>
        show Option.map alone (if deadline < (sys.now w).1 then _ else _) =
          if deadline < (sys.now w).1 then _ else _
        split_ifs
        · rfl
        · exact ih _
      | exited code => rfl
      | signalled sig => rfl
      | interrupted => exact ih _
      | failed reason => rfl

end Loops

/-- What `run_shell` does once the child runs. -/
def afterSpawn (sys : Sys W) (timeoutSeconds : ℤ) (cap : ℕ) (cancel : Bool) (fuel : ℕ) (w : W) :
    Option (W × Outcome) :=
  (drainLoop sys ((sys.now w).1 + effectiveTimeout timeoutSeconds * 1000) cap cancel fuel
    (sys.now w).2 Drain.init).bind fun drained =>
      (reapLoop sys ((sys.now drained.1).1 + 10000) fuel (sys.now drained.1).2).map fun reaped =>
        (reaped.1, conclude drained.2 reaped.2)

/-- A run of the shell, from what became of its spawn. -/
theorem runShell_eq (sys : Sys W) (script : Bytes) (timeoutSeconds : ℤ) (workingDir : Bytes)
    (cap : ℕ) (cancel : Bool) (fuel : ℕ) (w : W) :
    runShell sys script timeoutSeconds workingDir cap cancel fuel w =
      match sys.spawn w script workingDir with
      | (.error reason, w) => some (w, ⟨{ Result.init with error := reason }, []⟩)
      | (.ok (), w) => afterSpawn sys timeoutSeconds cap cancel fuel w := by
  unfold runShell afterSpawn
  cases sys.spawn w script workingDir with
  | mk result w =>
    cases result with
    | error reason => rfl
    | ok u =>
      dsimp only
      cases drainLoop sys _ cap cancel fuel (sys.now w).2 Drain.init with
      | none => rfl
      | some drained =>
        dsimp only [Option.bind_some]
        cases reapLoop sys _ fuel (sys.now drained.1).2 <;> rfl

/-- What follows the spawn does the same with records kept beside it. -/
theorem afterSpawn_beside (sys : Sys W) (timeoutSeconds : ℤ) (cap : ℕ) (cancel : Bool) (fuel : ℕ)
    (k : W × G) :
    (afterSpawn (beside onRead onKill sys) timeoutSeconds cap cancel fuel k).map alone =
      afterSpawn sys timeoutSeconds cap cancel fuel k.1 := by
  have hnow (k : W × G) : (beside onRead onKill sys).now k = ((sys.now k.1).1, (sys.now k.1).2, k.2) := rfl
  unfold afterSpawn
  rw [hnow]
  dsimp only
  rw [← drainLoop_beside onRead onKill sys cap cancel _ fuel ((sys.now k.1).2, k.2), Option.map_bind,
    Option.bind_map]
  congr 1
  funext drained
  show Option.map alone (Option.map _ _) = Option.map _ _
  rw [hnow]
  show _ = Option.map _ (reapLoop sys ((sys.now drained.1.1).1 + 10000) fuel (sys.now drained.1.1).2)
  rw [← reapLoop_beside onRead onKill sys _ fuel ((sys.now drained.1.1).2, drained.1.2), Option.map_map,
    Option.map_map]
  rfl

/-- What is kept leaves no trace in what the call does. -/
theorem runShell_beside (sys : Sys W) (script : Bytes) (timeoutSeconds : ℤ) (workingDir : Bytes)
    (cap : ℕ) (cancel : Bool) (fuel : ℕ) (k : W × G) :
    (runShell (beside onRead onKill sys) script timeoutSeconds workingDir cap cancel fuel k).map alone =
      runShell sys script timeoutSeconds workingDir cap cancel fuel k.1 := by
  rw [runShell_eq, runShell_eq]
  have hspawn : (beside onRead onKill sys).spawn k script workingDir =
    ((sys.spawn k.1 script workingDir).1, (sys.spawn k.1 script workingDir).2, k.2) := rfl
  rw [hspawn]
  cases sys.spawn k.1 script workingDir with
  | mk result w =>
    cases result with
    | error reason => rfl
    | ok u => exact afterSpawn_beside onRead onKill sys timeoutSeconds cap cancel fuel (w, k.2)

end Beside

/-! ## Recording the reads -/

/-- The bytes read from each pipe. -/
abbrev Record := Stream → Bytes

def Record.empty : Record := fun _ => []

/-- The record after a read of pipe `s`. -/
def Record.read (r : Record) (s : Stream) : ReadResult → Record
  | .data b bs => Function.update r s (r s ++ b :: bs)
  | .eof => r
  | .again => r
  | .failed => r

def recording (sys : Sys W) : Sys (W × Record) := beside Record.read (fun r _ => r) sys

/-- The record is kept without a trace in what the call does. -/
theorem runShell_recording (sys : Sys W) (script : Bytes) (timeoutSeconds : ℤ) (workingDir : Bytes)
    (cap : ℕ) (cancel : Bool) (fuel : ℕ) (k : W × Record) :
    (runShell (recording sys) script timeoutSeconds workingDir cap cancel fuel k).map alone =
      runShell sys script timeoutSeconds workingDir cap cancel fuel k.1 :=
  runShell_beside _ _ sys script timeoutSeconds workingDir cap cancel fuel k

/-! ## The sinks -/

/-- A sink, and its flag, once `got` has been read. -/
structure Holds (cap : ℕ) (got sink : Bytes) (clipped : Bool) : Prop where
  sink : sink = got.take cap
  clipped : clipped = decide (cap < got.length)

structure Sinks (cap : ℕ) (r : Record) (d : Drain) : Prop where
  out : Holds cap (r .out) d.stdoutData d.outClipped
  err : Holds cap (r .err) d.stderrData d.errClipped

/-- One more chunk is captured up to the cap, and the overflow is marked. -/
theorem holds_capture (cap : ℕ) (got sink : Bytes) (clipped : Bool) (b : UInt8) (bs : Bytes)
    (h : Holds cap got sink clipped) :
    Holds cap (got ++ b :: bs) (capture cap sink clipped (b :: bs)).1
      (capture cap sink clipped (b :: bs)).2 := by
  obtain ⟨rfl, rfl⟩ := h
  unfold capture
  rw [List.length_take]
  rcases Nat.lt_or_ge got.length cap with hroom | hfull
  · rw [if_pos (by omega), Nat.min_eq_right (Nat.le_of_lt hroom)]
    constructor
    · rw [List.take_append]
    · dsimp only
      rw [decide_eq_false (Nat.not_lt.mpr (Nat.le_of_lt hroom)), List.length_append]
      rcases Nat.lt_or_ge (cap - got.length) (b :: bs).length with hmore | hless
      · rw [if_pos hmore]
        exact (decide_eq_true (by omega)).symm
      · rw [if_neg (Nat.not_lt.mpr hless)]
        exact (decide_eq_false (by omega)).symm
  · rw [if_neg (by omega)]
    constructor
    · rw [List.take_append_of_le_length hfull]
    · refine (decide_eq_true ?_).symm
      rw [List.length_append, List.length_cons]
      omega

section Loops

variable (sys : Sys W) (cap : ℕ) (cancel : Bool) (deadline : ℤ)

/-- A read adds what it got to its own stream's record. -/
theorem sinks_readStep (s : Stream) (k : W × Record) (d : Drain) (h : Sinks cap k.2 d) :
    Sinks cap (readStep (recording sys) cap s k d).1.2 (readStep (recording sys) cap s k d).2 := by
  unfold readStep
  have hread : (recording sys).read k s =
    ((sys.read k.1 s).1, (sys.read k.1 s).2, k.2.read s (sys.read k.1 s).1) := rfl
  rw [hread]
  cases sys.read k.1 s with
  | mk result w =>
    cases result with
    | data b bs =>
      have hother {s s' : Stream} (hne : s' ≠ s) : k.2.read s (.data b bs) s' = k.2 s' :=
        Function.update_of_ne hne _ _
      have hthis (s : Stream) : k.2.read s (.data b bs) s = k.2 s ++ b :: bs :=
        Function.update_self _ _ _
      cases s with
      | out =>
        constructor
        · show Holds cap (k.2.read .out (.data b bs) .out) _ _
          rw [hthis]
          exact holds_capture cap _ _ _ b bs h.out
        · show Holds cap (k.2.read .out (.data b bs) .err) _ _
          rw [hother (by decide)]
          exact h.err
      | err =>
        constructor
        · show Holds cap (k.2.read .err (.data b bs) .out) _ _
          rw [hother (by decide)]
          exact h.out
        · show Holds cap (k.2.read .err (.data b bs) .err) _ _
          rw [hthis]
          exact holds_capture cap _ _ _ b bs h.err
    | eof => cases s <;> exact ⟨h.out, h.err⟩
    | again => exact h
    | failed => cases s <;> exact ⟨h.out, h.err⟩

/-- A pipe's turn keeps the sinks at what was read. -/
theorem sinks_turn (ready : Bool) (s : Stream) (k : W × Record) (d : Drain) (h : Sinks cap k.2 d) :
    Sinks cap (turn (recording sys) cap ready s k d).1.2 (turn (recording sys) cap ready s k d).2 := by
  cases ready with
  | true => exact sinks_readStep sys cap s k d h
  | false => exact h

/-- An escalation keeps the sinks at what was read. -/
theorem sinks_escalate (k : W × Record) (d : Drain) (h : Sinks cap k.2 d) :
    Sinks cap (escalate (recording sys) deadline cancel k d).1.2
      (escalate (recording sys) deadline cancel k d).2.1 := by
  unfold escalate recording beside
  cases cancel with
  | true =>
    dsimp only
    rw [if_pos rfl]
    split_ifs <;> exact ⟨h.out, h.err⟩
  | false =>
    dsimp only
    rw [if_neg Bool.false_ne_true]
    split_ifs <;> exact ⟨h.out, h.err⟩

/-- A pass keeps the sinks at what was read. -/
theorem sinks_drainPass (k : W × Record) (d : Drain) (h : Sinks cap k.2 d) :
    Sinks cap (drainPass (recording sys) deadline cap cancel k d).1.2
      (drainPass (recording sys) deadline cap cancel k d).2.1 := by
  rw [drainPass_eq]
  have hpoll : (recording sys).poll ((recording sys).now k).2 d.outOpen d.errOpen
      (waitMs deadline ((recording sys).now k).1 d) =
        ((sys.poll (sys.now k.1).2 d.outOpen d.errOpen (waitMs deadline (sys.now k.1).1 d)).1,
          (sys.poll (sys.now k.1).2 d.outOpen d.errOpen (waitMs deadline (sys.now k.1).1 d)).2,
            k.2) := rfl
  rw [hpoll]
  cases sys.poll (sys.now k.1).2 d.outOpen d.errOpen (waitMs deadline (sys.now k.1).1 d) with
  | mk result w =>
    cases result with
    | failed reason => exact ⟨h.out, h.err⟩
    | interrupted => exact sinks_escalate sys cap cancel deadline (w, k.2) d h
    | ready out err =>
      have hfirst := sinks_turn sys cap (d.outOpen && out) .out (w, k.2) d h
      have hsecond := sinks_turn sys cap (d.errOpen && err) .err _ _ hfirst
      exact sinks_escalate sys cap cancel deadline _ _ hsecond

/-- The drain loop keeps the sinks at what was read, by induction on its passes. -/
theorem sinks_drainLoop (fuel : ℕ) (k k' : W × Record) (d d' : Drain) (h : Sinks cap k.2 d)
    (hloop : drainLoop (recording sys) deadline cap cancel fuel k d = some (k', d')) :
    Sinks cap k'.2 d' := by
  induction fuel generalizing k d with
  | zero =>
    unfold drainLoop at hloop
    split_ifs at hloop
    cases hloop
    exact h
  | succ fuel ih =>
    unfold drainLoop at hloop
    split_ifs at hloop
    · have hpass := sinks_drainPass sys cap cancel deadline k d h
      dsimp only at hloop
      split at hloop
      · rename_i k₁ d₁ heq
        rw [heq] at hpass
        exact ih k₁ d₁ hpass hloop
      · rename_i k₁ d₁ heq
        rw [heq] at hpass
        cases hloop
        exact hpass
    · cases hloop
      exact h

/-- The reap loop reads nothing. -/
theorem reapLoop_record (fuel : ℕ) (k k' : W × Record) (reaped : Reaped)
    (hloop : reapLoop (recording sys) deadline fuel k = some (k', reaped)) : k'.2 = k.2 := by
  induction fuel generalizing k with
  | zero => cases hloop
  | succ fuel ih =>
    unfold reapLoop at hloop
    have hwait : (recording sys).waitpid k =
      ((sys.waitpid k.1).1, (sys.waitpid k.1).2, k.2) := rfl
    rw [hwait] at hloop
    cases hresult : sys.waitpid k.1 with
    | mk result w =>
      rw [hresult] at hloop
      cases result with
      | running =>
        dsimp only at hloop
        split_ifs at hloop
        · cases hloop
          rfl
        · exact (ih _ hloop).trans rfl
      | exited code =>
        cases hloop
        rfl
      | signalled sig =>
        cases hloop
        rfl
      | interrupted => exact (ih _ hloop).trans rfl
      | failed reason =>
        cases hloop
        rfl

end Loops

/-- The output of a call that read `got`. -/
def captured (cap : ℕ) (got : Bytes) : Bytes :=
  got.take cap ++ (if cap < got.length then truncationMarker else [])

/-- Nothing read is nothing captured. -/
theorem captured_nil (cap : ℕ) : [] = captured cap [] := by
  unfold captured
  rw [List.take_nil, List.length_nil, if_neg (Nat.not_lt_zero cap), List.nil_append]

/-- The sinks start empty. -/
theorem sinks_init (cap : ℕ) : Sinks cap Record.empty Drain.init :=
  ⟨⟨List.take_nil.symm, rfl⟩, ⟨List.take_nil.symm, rfl⟩⟩

/-- The result reports what was captured of each stream. -/
theorem conclude_captured (cap : ℕ) (r : Record) (d : Drain) (reaped : Reaped) (h : Sinks cap r d) :
    (conclude d reaped).result.stdoutData = captured cap (r .out) ∧
      (conclude d reaped).result.stderrData = captured cap (r .err) := by
  have hsink {got sink : Bytes} {clipped : Bool} (h : Holds cap got sink clipped) :
      sink ++ (if clipped then truncationMarker else []) = captured cap got := by
    obtain ⟨rfl, rfl⟩ := h
    unfold captured
    simp only [decide_eq_true_eq]
  cases reaped <;> exact ⟨hsink h.out, hsink h.err⟩

/-- The output is what was read, up to the capture limit, whatever was read at a time. -/
theorem runShell_captured (sys : Sys W) (script : Bytes) (timeoutSeconds : ℤ) (workingDir : Bytes)
    (cap : ℕ) (cancel : Bool) (fuel : ℕ) (w w' : W) (r : Record) (outcome : Outcome)
    (hrun : runShell (recording sys) script timeoutSeconds workingDir cap cancel fuel
      (w, Record.empty) = some ((w', r), outcome)) :
    outcome.result.stdoutData = captured cap (r .out) ∧
      outcome.result.stderrData = captured cap (r .err) := by
  have hspawn : (recording sys).spawn (w, Record.empty) script workingDir =
    ((sys.spawn w script workingDir).1, (sys.spawn w script workingDir).2, Record.empty) := rfl
  rw [runShell_eq, hspawn] at hrun
  cases hresult : sys.spawn w script workingDir with
  | mk result w₁ =>
    rw [hresult] at hrun
    cases result with
    | error reason =>
      cases hrun
      exact ⟨captured_nil cap, captured_nil cap⟩
    | ok u =>
      obtain ⟨drained, hdrain, hrest⟩ := Option.bind_eq_some_iff.mp hrun
      obtain ⟨reaped, hreap, heq⟩ := Option.map_eq_some_iff.mp hrest
      have hsinks := sinks_drainLoop sys cap cancel _ fuel _ _ _ _ (sinks_init cap) hdrain
      have hrecord := reapLoop_record sys _ fuel _ _ _ hreap
      obtain ⟨hstate, rfl⟩ := Prod.mk.inj heq
      rw [hstate] at hrecord
      rw [show r = drained.1.2 from hrecord]
      exact conclude_captured cap drained.1.2 drained.2 reaped.2 hsinks

end HaikuAgent.Analysis.ShellCapture
