import HaikuAgent.Analysis.ReplyEncoding

/-!
# The results of a document

`run_document` builds a result in four ways, and one for each step that it comes to
(`runDocument_built`): the steps up to the first whose command is cancelled, each with the
number of the shell calls that were made before it.
-/

set_option autoImplicit false

namespace HaikuAgent.Analysis.StepResults

open HaikuAgent.Foundation
open HaikuAgent.Model
open HaikuAgent.Model.Json
open HaikuAgent.Model.Runner
open HaikuAgent.Analysis.ReplyEncoding (shellCall echoStep echoDocument)

section Run

variable (strtod : Bytes → Double × ℕ) (host : Host) (maxCapture : ℕ) (parameters docParameters : Value)

/-- The result of a step, `n` calls having been made before it.
SRC: runner.cpp:252-325 -/
inductive Built (n : ℕ) (st : Step) : StepResult → Prop where
  | skipped (startTime endTime : Bytes) (hpre : preconditionExcludesStep st.precondition = true) :
    Built n st (skipped st.pluginId st.action startTime endTime)
  | unsupported (startTime endTime : Bytes) (hpre : preconditionExcludesStep st.precondition = false)
      (haction : st.action ≠ kRunShellScript) :
    Built n st (unsupported st.pluginId st.action startTime endTime)
  | noCommands (startTime endTime : Bytes) (hpre : preconditionExcludesStep st.precondition = false)
      (haction : st.action = kRunShellScript)
      (hnone : shellCall strtod maxCapture parameters docParameters st = none) :
    Built n st (noCommands st startTime endTime)
  | called (startTime endTime : Bytes) (call : ShellCall)
      (hcall : shellCall strtod maxCapture parameters docParameters st = some call) :
    Built n st (shellResult st startTime endTime (host.shell n call))

/-- The steps up to the first whose command is cancelled, each with the number of the calls
before it. -/
def reached : ℕ → List Step → List (ℕ × Step)
  | _, [] => []
  | n, st :: rest =>
    (n, st) ::
      match shellCall strtod maxCapture parameters docParameters st with
      | none => reached n rest
      | some call => if (host.shell n call).cancelled then [] else reached (n + 1) rest

/-- A round of the loop that makes no call. -/
theorem runStep_uncalled (st : Step) (status : Bytes) (log : Log)
    (hcall : shellCall strtod maxCapture parameters docParameters st = none) :
    let round := runStep strtod host maxCapture parameters docParameters st status log
    Built strtod host maxCapture parameters docParameters log.calls.length st round.result ∧
      round.stop = false ∧ round.log.calls = log.calls := by
  have hnone := hcall
  unfold shellCall at hcall
  unfold runStep
  dsimp only at hcall ⊢
  by_cases hpre : preconditionExcludesStep st.precondition = true
  · rw [if_pos hpre]
    exact ⟨.skipped _ _ hpre, rfl, rfl⟩
  rw [if_neg hpre] at hcall ⊢
  have hpre' : preconditionExcludesStep st.precondition = false := Bool.eq_false_iff.mpr hpre
  by_cases haction : st.action ≠ kRunShellScript
  · rw [if_pos haction]
    exact ⟨.unsupported _ _ hpre' haction, rfl, rfl⟩
  rw [if_neg haction] at hcall ⊢
  by_cases hscript : trim (join (commandLines (resolve st.inputs parameters docParameters)) (lit "\n")) = []
  · rw [if_pos hscript]
    exact ⟨.noCommands _ _ hpre' (not_not.mp haction) hnone, rfl, rfl⟩
  · rw [if_neg hscript] at hcall
    cases hcall

/-- A round that makes one. -/
theorem runStep_called (st : Step) (status : Bytes) (log : Log) (call : ShellCall)
    (hcall : shellCall strtod maxCapture parameters docParameters st = some call) :
    let round := runStep strtod host maxCapture parameters docParameters st status log
    Built strtod host maxCapture parameters docParameters log.calls.length st round.result ∧
      round.stop = (host.shell log.calls.length call).cancelled ∧
      round.log.calls.length = log.calls.length + 1 := by
  have hsome := hcall
  unfold shellCall at hcall
  unfold runStep
  dsimp only at hcall ⊢
  split_ifs at hcall with hpre haction hscript
  rw [if_neg hpre, if_neg haction, if_neg hscript]
  cases hcall
  exact ⟨.called _ _ _ hsome, rfl, List.length_append⟩

/-- Every step that the loop reaches has its result built. -/
theorem runSteps_built (steps : List Step) (status : Bytes) (log : Log) :
    List.Forall₂ (fun s r => Built strtod host maxCapture parameters docParameters s.1 s.2 r)
      (reached strtod host maxCapture parameters docParameters log.calls.length steps)
      (runSteps strtod host maxCapture parameters docParameters steps status log).1.steps := by
  induction steps generalizing status log with
  | nil => exact List.Forall₂.nil
  | cons st rest ih =>
    unfold runSteps reached
    dsimp only
    cases hcall : shellCall strtod maxCapture parameters docParameters st with
    | none =>
      obtain ⟨hbuilt, hstop, hcalls⟩ :=
        runStep_uncalled strtod host maxCapture parameters docParameters st status log hcall
      rw [if_neg (by simp [hstop])]
      refine List.Forall₂.cons ?_ ?_
      · exact hbuilt
      · rw [← hcalls]
        exact ih _ _
    | some call =>
      obtain ⟨hbuilt, hstop, hcalls⟩ :=
        runStep_called strtod host maxCapture parameters docParameters st status log call hcall
      dsimp only
      rw [hstop]
      split_ifs
      · refine List.Forall₂.cons ?_ List.Forall₂.nil
        exact hbuilt
      · refine List.Forall₂.cons ?_ ?_
        · exact hbuilt
        · rw [← hcalls]
          exact ih _ _

end Run

/-- The steps of a document that `run_document` comes to. -/
def reachedSteps (strtod : Bytes → Double × ℕ) (host : Host) (maxCapture : ℕ)
    (document parameters : Value) (log : Log) : List (ℕ × Step) :=
  reached strtod host maxCapture parameters ((document.find (lit "parameters")).getD .null)
    log.calls.length (documentSteps document)

/-- Every step that a document reaches has its result built. -/
theorem runDocument_built (strtod : Bytes → Double × ℕ) (host : Host) (maxCapture : ℕ)
    (document parameters : Value) (log : Log) :
    List.Forall₂ (fun s r =>
        Built strtod host maxCapture parameters ((document.find (lit "parameters")).getD .null) s.1 s.2 r)
      (reachedSteps strtod host maxCapture document parameters log)
      (runDocument strtod host maxCapture document parameters log).1.steps := by
  unfold runDocument reachedSteps
  cases documentSteps document with
  | nil => exact List.Forall₂.nil
  | cons st rest => exact runSteps_built strtod host maxCapture parameters _ (st :: rest) (lit "Success") log

/-- Related lists have the same keys, if related elements have. -/
theorem map_eq_of_forall₂ {α β γ : Type} {R : α → β → Prop} (f : α → γ) (g : β → γ)
    (hR : ∀ a b, R a b → g b = f a) {l : List α} {l' : List β} (h : List.Forall₂ R l l') :
    l'.map g = l.map f := by
  induction h with
  | nil => rfl
  | cons hab _ ih => rw [List.map_cons, List.map_cons, hR _ _ hab, ih]

/-- A result has the plugin id of its step. -/
theorem Built.pluginId {strtod : Bytes → Double × ℕ} {host : Host} {maxCapture : ℕ}
    {parameters docParameters : Value} {n : ℕ} {st : Step} {r : StepResult}
    (h : Built strtod host maxCapture parameters docParameters n st r) : r.pluginId = st.pluginId := by
  cases h <;> rfl

/-- A relation of the results to their steps is a property of the steps, if it is so for each. -/
theorem forall₂_iff {α β : Type} {R Q : α → β → Prop} {P : α → Prop}
    (hR : ∀ a b, R a b → (Q a b ↔ P a)) {l : List α} {l' : List β} (h : List.Forall₂ R l l') :
    List.Forall₂ Q l l' ↔ ∀ a ∈ l, P a := by
  induction h with
  | nil => simp
  | cons hab _ ih => rw [List.forall₂_cons, List.forall_mem_cons, hR _ _ hab, ih]

/-- The same for a property of the results alone. -/
theorem forall_results_iff {α β : Type} {R : α → β → Prop} {P : α → Prop} {Q : β → Prop}
    (hR : ∀ a b, R a b → (Q b ↔ P a)) {l : List α} {l' : List β} (h : List.Forall₂ R l l') :
    (∀ b ∈ l', Q b) ↔ ∀ a ∈ l, P a := by
  induction h with
  | nil => simp
  | cons hab _ ih => rw [List.forall_mem_cons, List.forall_mem_cons, hR _ _ hab, ih]

/-! ## A document of one command -/

/-- The example's step is reached. -/
theorem echo_reached (strtod : Bytes → Double × ℕ) (host : Host) (maxCapture : ℕ) (parameters : Value) :
    (0, echoStep) ∈ reachedSteps strtod host maxCapture echoDocument parameters Log.empty := by
  have hdocument : documentSteps echoDocument = [echoStep] := by rfl
  unfold reachedSteps reached
  rw [hdocument]
  exact List.mem_cons_self

/-- The example's step makes a call. -/
theorem echo_called : ∃ call, shellCall (fun _ => (.nan, 0)) 0 .null
    ((echoDocument.find (lit "parameters")).getD .null) echoStep = some call := by
  unfold shellCall
  dsimp only
  rw [if_neg (by decide), if_neg (by decide), if_neg (by decide)]
  exact ⟨_, rfl⟩

end HaikuAgent.Analysis.StepResults
