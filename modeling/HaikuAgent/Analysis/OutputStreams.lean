import HaikuAgent.Analysis.ShellCapture

/-!
# Which stream a byte ends up in

A pass reads the open pipes from an array, in which the index of a pipe changes when the other one
closes. It does what `drainPass` does with the two pipes by name (`drainPassIndexed_eq`). So each
output of a call is what was read from its own pipe, up to the capture limit, whatever the reads
return and in whatever order (`output_streams`).
-/

set_option autoImplicit false

namespace HaikuAgent.Analysis.OutputStreams

open HaikuAgent.Foundation
open HaikuAgent.Model.Exec
open HaikuAgent.Analysis.ShellCapture

variable {W : Type} (sys : Sys W) (cap : ℕ)

/-- An entry is its pipe's turn, where the index tells which pipe it is. -/
theorem readEntry_eq {fds : List (Stream × Bool)} {out : ℤ} {i : ℕ} {s : Stream} {ready : Bool}
    (hentry : fds[i]? = some (s, ready)) (hindex : (i : ℤ) = out ↔ s = .out) (w : W) (d : Drain) :
    readEntry sys cap fds out (w, d) i = turn sys cap ready s w d := by
  unfold readEntry turn readStep
  rw [hentry]
  cases ready with
  | false => rfl
  | true =>
    rw [if_pos rfl]
    dsimp only
    obtain ⟨result, w'⟩ := sys.read w s
    cases s with
    | out =>
      have hout : (i : ℤ) = out := hindex.mpr rfl
      cases result with
      | data b bs => exact if_pos hout
      | eof => exact if_pos hout
      | again => rfl
      | failed => exact if_pos hout
    | err =>
      have herr : ¬(i : ℤ) = out := fun h => Stream.noConfusion (hindex.mp h)
      cases result with
      | data b bs => exact if_neg herr
      | eof => exact if_neg herr
      | again => rfl
      | failed => exact if_neg herr

/-- The loop over the array is the turn of the one pipe and then of the other. -/
theorem foldl_readEntry (w : W) (d : Drain) (out err : Bool) :
    (List.range (pollFds d out err).length).foldl (readEntry sys cap (pollFds d out err) (outIdx d)) (w, d) =
      turn sys cap (d.errOpen && err) .err (turn sys cap (d.outOpen && out) .out w d).1
        (turn sys cap (d.outOpen && out) .out w d).2 := by
  cases hout : d.outOpen with
  | true =>
    have hindex : outIdx d = 0 := if_pos hout
    cases herr : d.errOpen with
    | true =>
      have hfds : pollFds d out err = [(.out, out), (.err, err)] := by
        unfold pollFds
        rw [if_pos hout, if_pos herr]
        rfl
      rw [hfds, hindex]
      show readEntry sys cap _ 0 (readEntry sys cap _ 0 (w, d) 0) 1 = _
      rw [readEntry_eq sys cap (i := 0) (s := .out) rfl (by decide)]
      exact readEntry_eq sys cap (s := .err) rfl (by decide) _ _
    | false =>
      have hfds : pollFds d out err = [(.out, out)] := by
        unfold pollFds
        rw [if_pos hout, herr]
        rfl
      rw [hfds, hindex]
      exact readEntry_eq sys cap (s := .out) rfl (by decide) w d
  | false =>
    have hno : ¬d.outOpen = true := by
      rw [hout]
      exact Bool.false_ne_true
    have hindex : outIdx d = -1 := if_neg hno
    cases herr : d.errOpen with
    | true =>
      have hfds : pollFds d out err = [(.err, err)] := by
        unfold pollFds
        rw [if_neg hno, if_pos herr]
        rfl
      rw [hfds, hindex]
      exact readEntry_eq sys cap (s := .err) rfl (by decide) w d
    | false =>
      have hfds : pollFds d out err = [] := by
        unfold pollFds
        rw [if_neg hno, herr]
        rfl
      rw [hfds]
      rfl

/-- **The array makes no difference**: the index tells the pipes apart.
SRC: exec.cpp:92-130 -/
theorem drainPassIndexed_eq (deadline : ℤ) (cancel : Bool) (w : W) (d : Drain) :
    drainPassIndexed sys deadline cap cancel w d = drainPass sys deadline cap cancel w d := by
  rw [drainPass_eq]
  unfold drainPassIndexed readyPass
  dsimp only
  obtain ⟨result, w1⟩ := sys.poll (sys.now w).2 d.outOpen d.errOpen (waitMs deadline (sys.now w).1 d)
  cases result with
  | failed reason => rfl
  | interrupted => rfl
  | ready out err =>
    dsimp only
    rw [foldl_readEntry]

/-- What a call returns is, of each stream, what was read from its pipe up to the capture limit. -/
def Captures (script : Bytes) (timeoutSeconds : ℤ) (workingDir : Bytes) (cancel : Bool) (fuel : ℕ) (w : W) : Prop :=
  ∀ w' outcome, runShell sys script timeoutSeconds workingDir cap cancel fuel w = some (w', outcome) →
    ∃ read : Record,
      runShell (recording sys) script timeoutSeconds workingDir cap cancel fuel (w, Record.empty) =
        some ((w', read), outcome) ∧
      outcome.result.stdoutData = captured cap (read .out) ∧
      outcome.result.stderrData = captured cap (read .err)

/-- `run_shell` captures each pipe on its own, whatever the order of the reads. -/
theorem captures (script : Bytes) (timeoutSeconds : ℤ) (workingDir : Bytes) (cancel : Bool) (fuel : ℕ) (w : W) :
    Captures sys cap script timeoutSeconds workingDir cancel fuel w := by
  intro w' outcome hrun
  have hrecording := runShell_recording sys script timeoutSeconds workingDir cap cancel fuel (w, Record.empty)
  rw [hrun] at hrecording
  obtain ⟨⟨⟨w1, read⟩, outcome1⟩, hrecorded, hsame⟩ := Option.map_eq_some_iff.mp hrecording
  cases hsame
  exact ⟨read, hrecorded, runShell_captured sys script timeoutSeconds workingDir cap cancel fuel w w1 read _ hrecorded⟩

/-- **The captured output does not depend on how it was read**: it is what was read from the pipe of
the stream, up to the capture limit, with the marker if there was more.
SRC: exec.cpp:92-130, 160-164 -/
theorem output_streams (script : Bytes) (timeoutSeconds : ℤ) (workingDir : Bytes) (cancel : Bool) (fuel : ℕ) (w : W) :
    (∀ deadline w d, drainPassIndexed sys deadline cap cancel w d = drainPass sys deadline cap cancel w d) ∧
      Captures sys cap script timeoutSeconds workingDir cancel fuel w :=
  ⟨fun deadline => drainPassIndexed_eq sys cap deadline cancel,
    captures sys cap script timeoutSeconds workingDir cancel fuel w⟩

end HaikuAgent.Analysis.OutputStreams
