import Mathlib.Data.List.Basic

/-!
# Runs of a deterministic system

A system is a step function `step : σ → ε → σ`; a run folds it over a list of
events. `AllStates` says a property of every state a run goes through, the first
and the last included, and `AllSteps` a property of every step, read at the state
the step is taken in.

`runFrom_of_allSteps` is the invariant rule with a side condition on the steps.
`allStates_iff_allSteps` is its sharp form: when a step that misses the condition
already breaks the property, the condition is exactly what the runs need.
-/

set_option autoImplicit false

namespace HaikuAgent.Foundation

variable {σ ε : Type}

/-- The state a run ends in. -/
def runFrom (step : σ → ε → σ) (s : σ) (events : List ε) : σ := events.foldl step s

/-- Nothing happens in a run without events. -/
@[simp] theorem runFrom_nil (step : σ → ε → σ) (s : σ) : runFrom step s [] = s := rfl

/-- A run takes its first event and goes on from there. -/
@[simp] theorem runFrom_cons (step : σ → ε → σ) (s : σ) (e : ε) (events : List ε) :
    runFrom step s (e :: events) = runFrom step (step s e) events := rfl

/-- A run of two parts goes through the first and then the second. -/
theorem runFrom_append (step : σ → ε → σ) (s : σ) (l m : List ε) :
    runFrom step s (l ++ m) = runFrom step (runFrom step s l) m := by
  simp [runFrom]

/-- `Q` holds in every state the run goes through. -/
def AllStates (step : σ → ε → σ) (Q : σ → Prop) (s : σ) (events : List ε) : Prop :=
  ∀ l, l <+: events → Q (runFrom step s l)

/-- `P` holds of every step of the run, at the state the step is taken in. -/
def AllSteps (step : σ → ε → σ) (P : σ → ε → Prop) (s : σ) (events : List ε) : Prop :=
  ∀ l e, l ++ [e] <+: events → P (runFrom step s l) e

/-- A property of all states of a run is one of its first state and of the states of the rest. -/
theorem allStates_cons (step : σ → ε → σ) (Q : σ → Prop) (s : σ) (e : ε) (events : List ε) :
    AllStates step Q s (e :: events) ↔ Q s ∧ AllStates step Q (step s e) events := by
  constructor
  · intro h
    refine ⟨h [] (List.nil_prefix), ?_⟩
    intro l hl
    exact h (e :: l) (List.cons_prefix_cons.mpr ⟨rfl, hl⟩)
  · rintro ⟨h0, h⟩ l hl
    cases l with
    | nil => exact h0
    | cons a l =>
      obtain ⟨rfl, hl'⟩ := List.cons_prefix_cons.mp hl
      exact h l hl'

/-- A property of all steps of a run is one of its first step and of the steps of the rest. -/
theorem allSteps_cons (step : σ → ε → σ) (P : σ → ε → Prop) (s : σ) (e : ε) (events : List ε) :
    AllSteps step P s (e :: events) ↔ P s e ∧ AllSteps step P (step s e) events := by
  constructor
  · intro h
    refine ⟨h [] e (by simp), ?_⟩
    intro l a hl
    exact h (e :: l) a (List.cons_prefix_cons.mpr ⟨rfl, hl⟩)
  · rintro ⟨h0, h⟩ l a hl
    cases l with
    | nil =>
      obtain ⟨rfl, -⟩ := List.cons_prefix_cons.mp hl
      exact h0
    | cons b l =>
      obtain ⟨rfl, hl'⟩ := List.cons_prefix_cons.mp hl
      exact h l a hl'

/-- A run without events has one state. -/
theorem allStates_nil (step : σ → ε → σ) (Q : σ → Prop) (s : σ) :
    AllStates step Q s [] ↔ Q s := by
  constructor
  · intro h
    exact h [] List.nil_prefix
  · intro h l hl
    rw [List.prefix_nil.mp hl]
    exact h

/-- **The invariant rule**: what every step preserves holds of the state a run ends in. -/
theorem runFrom_invariant (step : σ → ε → σ) (I : σ → Prop) (h : ∀ s e, I s → I (step s e))
    (s : σ) (hs : I s) (events : List ε) : I (runFrom step s events) := by
  induction events generalizing s with
  | nil => exact hs
  | cons e events ih => exact ih (step s e) (h s e hs)

/-- The invariant rule with a condition on the steps. -/
theorem runFrom_of_allSteps (step : σ → ε → σ) (I : σ → Prop) (P : σ → ε → Prop)
    (h : ∀ s e, I s → P s e → I (step s e)) (s : σ) (hs : I s) (events : List ε)
    (hall : AllSteps step P s events) : I (runFrom step s events) := by
  induction events generalizing s with
  | nil => exact hs
  | cons e events ih =>
    obtain ⟨hP, hrest⟩ := (allSteps_cons step P s e events).mp hall
    exact ih (step s e) (h s e hs hP) hrest

/-- **The sharp invariant rule.** `J` is the inductive invariant and `Q` the property
it gives. If a step of a `J`-state keeps `J` when it meets `P`, and breaks `Q` when it
does not, then `Q` holds throughout a run exactly when all its steps meet `P`. -/
theorem allStates_iff_allSteps (step : σ → ε → σ) (J Q : σ → Prop) (P : σ → ε → Prop)
    (hJ : ∀ s, J s → Q s) (hok : ∀ s e, J s → P s e → J (step s e))
    (hbad : ∀ s e, J s → ¬P s e → ¬Q (step s e)) (s : σ) (hs : J s) (events : List ε) :
    AllStates step Q s events ↔ AllSteps step P s events := by
  induction events generalizing s with
  | nil =>
    rw [allStates_nil]
    refine iff_of_true (hJ s hs) ?_
    intro l e hl
    exact absurd (List.prefix_nil.mp hl) (by simp)
  | cons e events ih =>
    rw [allStates_cons, allSteps_cons]
    by_cases hP : P s e
    · rw [ih (step s e) (hok s e hs hP)]
      exact ⟨fun h => ⟨hP, h.2⟩, fun h => ⟨hJ s hs, h.2⟩⟩
    · refine iff_of_false ?_ (fun h => hP h.1)
      rintro ⟨-, h⟩
      exact hbad s e hs hP (h [] List.nil_prefix)

end HaikuAgent.Foundation
