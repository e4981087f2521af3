import HaikuAgent.Analysis.ReplyEncoding

/-!
# The account of a document

What `run_document` reports of the elements of `mainSteps`: one result for each, in order, up
to the first that is cancelled (`Listed`), and a status that sums the results up (`verdict`).
What an element asks for is read from the element itself (`callOf`).
-/

set_option autoImplicit false

namespace HaikuAgent.Analysis.StepAccounting

open HaikuAgent.Foundation
open HaikuAgent.Model
open HaikuAgent.Model.Json
open HaikuAgent.Model.Runner
open HaikuAgent.Analysis.ReplyEncoding (callStatus)

/-- The call ended by itself, in time and without an error. -/
def Succeeded (er : Exec.Result) : Prop :=
  er.error = [] ∧ er.cancelled = false ∧ er.timedOut = false ∧ er.exitCode = 0

def statuses : List Bytes :=
  [lit "Success", lit "Skipped", lit "Failed", lit "TimedOut", lit "Cancelled"]

section Element

variable (strtod : Bytes → Double × ℕ) (maxCapture : ℕ) (parameters docParameters : Value)

/-- The plugin that an element of `mainSteps` names. -/
def actionOf (e : Value) : Bytes := e.strAt (lit "action") []

/-- The element's own name, or else its plugin's. -/
def nameOf (e : Value) : Bytes := e.strAt (lit "name") (actionOf e)

/-- The element is for another platform. -/
def Excluded (e : Value) : Prop := preconditionExcludesStep ((e.find (lit "precondition")).getD .null) = true

/-- The element's inputs, with its placeholders filled in. -/
def inputsOf (e : Value) : Value := resolve ((e.find (lit "inputs")).getD .null) parameters docParameters

/-- The commands of the element. -/
def scriptOf (e : Value) : Bytes := join (commandLines (inputsOf parameters docParameters e)) (lit "\n")

/-- The element is a shell script for this platform and has commands. -/
def Runs (e : Value) : Prop :=
  ¬Excluded e ∧ actionOf e = kRunShellScript ∧ trim (scriptOf parameters docParameters e) ≠ []

instance decidableRuns (e : Value) : Decidable (Runs parameters docParameters e) :=
  inferInstanceAs (Decidable (¬(_ = true) ∧ _ = _ ∧ _ ≠ _))

/-- The call that the element asks for, if it is one that runs. -/
def callOf (e : Value) : Option ShellCall :=
  if Runs parameters docParameters e then some
    { script := scriptOf parameters docParameters e
      timeoutSeconds := ((inputsOf parameters docParameters e).numAt strtod (lit "timeoutSeconds")
        (.finite 3600)).toIntBounded (-2147483648) 2147483647
      workingDir := (inputsOf parameters docParameters e).strAt (lit "workingDirectory") []
      maxCaptureBytes := max maxCapture kMaxStdoutLength }
  else none

end Element

/-- The result of an element of `mainSteps`, `er` being what its call returned if it made one. -/
structure Recorded (e : Value) (er : Option Exec.Result) (r : StepResult) : Prop where
  pluginId : r.pluginId = nameOf e
  action : r.action = actionOf e
  status : r.status ∈ statuses
  skipped : r.status = lit "Skipped" ↔ Excluded e
  success : r.status = lit "Success" ↔ ∃ x, er = some x ∧ Succeeded x
  cancelled : r.status = lit "Cancelled" ↔ ∃ x, er = some x ∧ x.cancelled = true
  code : r.status ≠ lit "Success" → r.status ≠ lit "Skipped" → r.code ≠ 0

section Run

variable (strtod : Bytes → Double × ℕ) (host : Host) (maxCapture : ℕ) (parameters docParameters : Value)

/-- What the call of an element returns, `n` calls having been made before it. -/
def called (n : ℕ) (e : Value) : Option Exec.Result :=
  (callOf strtod maxCapture parameters docParameters e).map (host.shell n)

/-- One result for each element, up to and including the first that is cancelled. -/
def Listed : ℕ → List Value → List StepResult → Prop
  | _, [], results => results = []
  | _, _ :: _, [] => False
  | n, e :: elems, r :: results =>
    let er := called strtod host maxCapture parameters docParameters n e
    Recorded e er r ∧
      if r.status = lit "Cancelled" then results = []
      else Listed (n + er.toList.length) elems results

end Run

/-- The status that the results amount to, `status` being the one before them. -/
def verdict (status : Bytes) (results : List StepResult) : Bytes :=
  if ∃ r ∈ results, r.status = lit "Cancelled" then lit "Cancelled"
  else if ∀ r ∈ results, r.status = lit "Success" ∨ r.status = lit "Skipped" then status
  else lit "Failed"

/-- What the status of a document says of its results. -/
structure Verdict (status : Bytes) (results : List StepResult) : Prop where
  cancelled : status = lit "Cancelled" ↔ ∃ r ∈ results, r.status = lit "Cancelled"
  success : status = lit "Success" ↔
    ∀ r ∈ results, r.status = lit "Success" ∨ r.status = lit "Skipped"
  failed : status = lit "Failed" ↔
    (¬∃ r ∈ results, r.status = lit "Cancelled") ∧
      ¬∀ r ∈ results, r.status = lit "Success" ∨ r.status = lit "Skipped"

/-! ## One step -/

/-- A skipped step is none that succeeded. -/
theorem skipped_ne_success : lit "Skipped" ≠ lit "Success" := by decide
/-- A failed step is none that succeeded. -/
theorem failed_ne_success : lit "Failed" ≠ lit "Success" := by decide
/-- A step out of time is none that succeeded. -/
theorem timedOut_ne_success : lit "TimedOut" ≠ lit "Success" := by decide
/-- A cancelled step is none that succeeded. -/
theorem cancelled_ne_success : lit "Cancelled" ≠ lit "Success" := by decide
/-- A skipped step is none that was cancelled. -/
theorem skipped_ne_cancelled : lit "Skipped" ≠ lit "Cancelled" := by decide
/-- A failed step is none that was cancelled. -/
theorem failed_ne_cancelled : lit "Failed" ≠ lit "Cancelled" := by decide

/-- A call succeeds when its child ended with zero and was neither cut off nor cancelled. -/
theorem callStatus_success_iff (er : Exec.Result) (standardError : Bytes) :
    (callStatus er standardError).1 = lit "Success" ↔ Succeeded er := by
  unfold callStatus Succeeded
  dsimp only
  by_cases hcancelled : er.cancelled = true
  · rw [if_pos hcancelled]
    exact iff_of_false cancelled_ne_success fun h => Bool.false_ne_true (h.2.1.symm.trans hcancelled)
  rw [if_neg hcancelled]
  by_cases herror : er.error = []
  · rw [if_neg (not_not.mpr herror)]
    by_cases htimed : er.timedOut = true
    · rw [if_pos htimed]
      exact iff_of_false timedOut_ne_success fun h => Bool.false_ne_true (h.2.2.1.symm.trans htimed)
    rw [if_neg htimed]
    by_cases hcode : er.exitCode = 0
    · rw [if_pos hcode]
      exact iff_of_true rfl
        ⟨herror, Bool.eq_false_iff.mpr hcancelled, Bool.eq_false_iff.mpr htimed, hcode⟩
    · rw [if_neg hcode]
      exact iff_of_false failed_ne_success fun h => hcode h.2.2.2
  · rw [if_pos herror]
    exact iff_of_false failed_ne_success fun h => herror h.1

/-- A call is cancelled when its child was. -/
theorem callStatus_cancelled_iff (er : Exec.Result) (standardError : Bytes) :
    (callStatus er standardError).1 = lit "Cancelled" ↔ er.cancelled = true := by
  unfold callStatus
  dsimp only
  by_cases hcancelled : er.cancelled = true
  · rw [if_pos hcancelled]
    exact iff_of_true rfl hcancelled
  · rw [if_neg hcancelled]
    refine iff_of_false ?_ hcancelled
    split_ifs
    all_goals
      dsimp only
      decide

/-- A call that did not succeed has a code other than 0, whatever its exit code. -/
theorem callStatus_code (er : Exec.Result) (standardError : Bytes)
    (h : (callStatus er standardError).1 ≠ lit "Success") : (callStatus er standardError).2.1 ≠ 0 := by
  have hnonzero : (if er.exitCode = 0 then 1 else er.exitCode) ≠ 0 := by
    split_ifs with hcode
    · exact one_ne_zero
    · exact hcode
  unfold callStatus at h ⊢
  dsimp only at h ⊢
  by_cases hcancelled : er.cancelled = true
  · rw [if_pos hcancelled]
    exact hnonzero
  rw [if_neg hcancelled] at h ⊢
  by_cases herror : er.error ≠ []
  · rw [if_pos herror]
    exact hnonzero
  rw [if_neg herror] at h ⊢
  by_cases htimed : er.timedOut = true
  · rw [if_pos htimed]
    exact hnonzero
  rw [if_neg htimed] at h ⊢
  intro hcode
  exact h (if_pos hcode)

/-- A call is never skipped. -/
theorem callStatus_ne_skipped (er : Exec.Result) (standardError : Bytes) :
    (callStatus er standardError).1 ≠ lit "Skipped" := by
  unfold callStatus
  dsimp only
  split_ifs
  all_goals
    dsimp only
    decide

/-- A call ends with one of the statuses. -/
theorem callStatus_mem (er : Exec.Result) (standardError : Bytes) :
    (callStatus er standardError).1 ∈ statuses := by
  unfold callStatus
  dsimp only
  split_ifs
  all_goals
    dsimp only
    decide

/-- The one element there is has the property. -/
theorem exists_some {α : Type} (a : α) (p : α → Prop) : (∃ e, some a = some e ∧ p e) ↔ p a := by
  constructor
  · rintro ⟨e, he, h⟩
    cases he
    exact h
  · exact fun h => ⟨a, rfl, h⟩

/-- The step of `run_document` that an element of `mainSteps` becomes. -/
def mainStep (e : Value) : Step :=
  { pluginId := nameOf e
    action := actionOf e
    inputs := (e.find (lit "inputs")).getD .null
    precondition := (e.find (lit "precondition")).getD .null }

/-- The result of a shell step records its call. -/
theorem recorded_shellResult (e : Value) (startTime endTime : Bytes) (er : Exec.Result) (hplatform : ¬Excluded e) :
    Recorded e (some er) (shellResult (mainStep e) startTime endTime er) where
  pluginId := rfl
  action := rfl
  status := callStatus_mem er (clip er.stderrData kMaxStdoutLength [])
  skipped := iff_of_false (callStatus_ne_skipped er (clip er.stderrData kMaxStdoutLength [])) hplatform
  success := by
    rw [exists_some]
    exact callStatus_success_iff er (clip er.stderrData kMaxStdoutLength [])
  cancelled := by
    rw [exists_some]
    exact callStatus_cancelled_iff er (clip er.stderrData kMaxStdoutLength [])
  code h _ := callStatus_code er (clip er.stderrData kMaxStdoutLength []) h

/-- A result that no call led to. -/
theorem recorded_none (e : Value) (r : StepResult) (hpluginId : r.pluginId = nameOf e) (haction : r.action = actionOf e)
    (hstatus : r.status = lit "Skipped" ∧ Excluded e ∨ r.status = lit "Failed" ∧ r.code ≠ 0 ∧ ¬Excluded e) :
    Recorded e none r where
  pluginId := hpluginId
  action := haction
  status := by
    cases hstatus with
    | inl h => exact h.1 ▸ by decide
    | inr h => exact h.1 ▸ by decide
  skipped := by
    cases hstatus with
    | inl h => exact iff_of_true h.1 h.2
    | inr h => exact iff_of_false (h.1 ▸ by decide) h.2.2
  success := by
    refine iff_of_false ?_ (not_exists.mpr fun x hx => nomatch hx.1)
    cases hstatus with
    | inl h => exact h.1 ▸ skipped_ne_success
    | inr h => exact h.1 ▸ failed_ne_success
  cancelled := by
    refine iff_of_false ?_ (not_exists.mpr fun x hx => nomatch hx.1)
    cases hstatus with
    | inl h => exact h.1 ▸ skipped_ne_cancelled
    | inr h => exact h.1 ▸ failed_ne_cancelled
  code _ hskipped := (hstatus.resolve_left fun h => hskipped h.1).2.1

/-! ## The loop over the steps -/

/-- What a result makes of the status that the document had before it. -/
def Combined (status : Bytes) (r : StepResult) (status' : Bytes) : Prop :=
  if r.status = lit "Cancelled" then status' = lit "Cancelled"
  else if r.status = lit "Success" ∨ r.status = lit "Skipped" then status' = status
  else status' = lit "Failed"

/-- A failed step fails the document. -/
theorem combined_failed (status : Bytes) (r : StepResult) (h : r.status = lit "Failed") :
    Combined status r (lit "Failed") := by
  unfold Combined
  rw [h, if_neg failed_ne_cancelled, if_neg (by decide)]

/-- The code's combination of two statuses is the one meant, for steps that are not skipped. -/
theorem combined_combineStatus (status : Bytes) (r : StepResult) (hstatus : status ≠ lit "Cancelled")
    (hr : r.status ≠ lit "Skipped") : Combined status r (combineStatus status r.status) := by
  unfold Combined combineStatus
  by_cases hcancelled : r.status = lit "Cancelled"
  · rw [if_pos hcancelled, if_pos hcancelled]
  rw [if_neg hcancelled, if_neg hcancelled]
  by_cases hsuccess : r.status = lit "Success"
  · rw [if_pos (Or.inl hsuccess), if_neg (fun h => h.1 hsuccess)]
  · rw [if_neg (not_or.mpr ⟨hsuccess, hr⟩), if_pos ⟨hsuccess, hstatus⟩]

section Run

variable (strtod : Bytes → Double × ℕ) (host : Host) (maxCapture : ℕ) (parameters docParameters : Value)

/-- One round of the loop on an element, `call` being the call it makes if it makes one. -/
structure Accounted (e : Value) (call : Option ShellCall) (status : Bytes) (log : Log) (round : Round) : Prop where
  recorded : Recorded e (call.map (host.shell log.calls.length)) round.result
  combined : Combined status round.result round.status
  stop : round.stop = true ↔ round.result.status = lit "Cancelled"
  calls : round.log.calls = log.calls ++ call.toList

/-- A step that makes no call is accounted as skipped or as failed. -/
theorem accounted_uncalled (e : Value) (status : Bytes) (log : Log) (round : Round)
    (hpluginId : round.result.pluginId = nameOf e) (haction : round.result.action = actionOf e)
    (hstatus : (round.result.status = lit "Skipped" ∧ Excluded e) ∧ round.status = status ∨
      (round.result.status = lit "Failed" ∧ round.result.code ≠ 0 ∧ ¬Excluded e) ∧ round.status = lit "Failed")
    (hstop : round.stop = false) (hcalls : round.log.calls = log.calls) :
    Accounted host e none status log round := by
  have hrecorded : Recorded e none round.result :=
    recorded_none e _ hpluginId haction (hstatus.imp (fun h => h.1) fun h => h.1)
  have huncancelled : round.result.status ≠ lit "Cancelled" := fun h =>
    (hrecorded.cancelled.mp h).elim fun x hx => nomatch hx.1
  refine ⟨hrecorded, ?_, ?_, ?_⟩
  · cases hstatus with
    | inl h =>
      unfold Combined
      rw [if_neg huncancelled, if_pos (Or.inr h.1.1)]
      exact h.2
    | inr h =>
      rw [h.2]
      exact combined_failed status _ h.1.1
  · rw [hstop]
    exact iff_of_false Bool.false_ne_true huncancelled
  · rw [hcalls]
    exact (List.append_nil _).symm

/-- One step of the loop is accounted for. -/
theorem runStep_accounted (e : Value) (status : Bytes) (log : Log) (hstatus : status ≠ lit "Cancelled") :
    Accounted host e (callOf strtod maxCapture parameters docParameters e) status log
      (runStep strtod host maxCapture parameters docParameters (mainStep e) status log) := by
  unfold callOf runStep
  dsimp only
  by_cases hpre : Excluded e
  · rw [if_neg fun h : Runs parameters docParameters e => h.1 hpre,
      if_pos (show preconditionExcludesStep (mainStep e).precondition = true from hpre)]
    exact accounted_uncalled host e status log _ rfl rfl (Or.inl ⟨⟨rfl, hpre⟩, rfl⟩) rfl rfl
  rw [if_neg (show ¬preconditionExcludesStep (mainStep e).precondition = true from hpre)]
  by_cases haction : actionOf e = kRunShellScript
  · rw [if_neg (show ¬(mainStep e).action ≠ kRunShellScript from not_not.mpr haction)]
    by_cases hscript : trim (scriptOf parameters docParameters e) = []
    · rw [if_neg fun h : Runs parameters docParameters e => h.2.2 hscript]
      change Accounted host e none status log (if trim (scriptOf parameters docParameters e) = [] then _ else _)
      rw [if_pos hscript]
      exact accounted_uncalled host e status log _ rfl rfl (Or.inr ⟨⟨rfl, one_ne_zero, hpre⟩, rfl⟩) rfl rfl
    · have hruns : Runs parameters docParameters e := ⟨hpre, haction, hscript⟩
      rw [if_pos hruns]
      change Accounted host e _ status log (if trim (scriptOf parameters docParameters e) = [] then _ else _)
      rw [if_neg hscript]
      refine ⟨recorded_shellResult e _ _ _ hpre, combined_combineStatus _ _ hstatus ?_, ?_, rfl⟩
      · exact callStatus_ne_skipped _ _
      · exact (callStatus_cancelled_iff _ _).symm
  · rw [if_neg fun h : Runs parameters docParameters e => haction h.2.1,
      if_pos (show (mainStep e).action ≠ kRunShellScript from haction)]
    exact accounted_uncalled host e status log _ rfl rfl (Or.inr ⟨⟨rfl, one_ne_zero, hpre⟩, rfl⟩) rfl rfl

end Run

/-- Without results the status stays. -/
theorem verdict_nil (status : Bytes) : verdict status [] = status := by
  unfold verdict
  rw [if_neg fun ⟨_, hr, _⟩ => List.not_mem_nil hr, if_pos fun _ hr => absurd hr List.not_mem_nil]

/-- The loop stops at a cancelled result. -/
theorem verdict_cancelled (status : Bytes) (r : StepResult) (h : r.status = lit "Cancelled") :
    verdict status [r] = lit "Cancelled" :=
  if_pos ⟨r, List.mem_singleton_self r, h⟩

/-- A result that does not cancel leaves the verdict to those after it. -/
theorem verdict_cons (status status' : Bytes) (r : StepResult) (rest : List StepResult)
    (hr : r.status ≠ lit "Cancelled") (hcombined : Combined status r status') :
    verdict status (r :: rest) = verdict status' rest := by
  unfold Combined at hcombined
  rw [if_neg hr] at hcombined
  have hany : (∃ s ∈ r :: rest, s.status = lit "Cancelled") ↔ ∃ s ∈ rest, s.status = lit "Cancelled" := by
    rw [List.exists_mem_cons_iff]
    exact or_iff_right hr
  unfold verdict
  simp only [hany, List.forall_mem_cons]
  by_cases hok : r.status = lit "Success" ∨ r.status = lit "Skipped"
  · rw [if_pos hok] at hcombined
    rw [hcombined]
    simp only [hok, true_and]
  · rw [if_neg hok] at hcombined
    rw [hcombined]
    simp only [hok, false_and, if_false, ite_self]

/-- Before each round the status is `Success` or `Failed`: the loop stops once it is `Cancelled`. -/
theorem combined_ne_cancelled (status status' : Bytes) (r : StepResult) (hstatus : status ≠ lit "Cancelled")
    (hr : r.status ≠ lit "Cancelled") (hcombined : Combined status r status') :
    status' ≠ lit "Cancelled" := by
  unfold Combined at hcombined
  rw [if_neg hr] at hcombined
  split_ifs at hcombined
  · exact hcombined ▸ hstatus
  · exact hcombined ▸ failed_ne_cancelled

/-- The calls of the elements that have a result. -/
def callsOf (strtod : Bytes → Double × ℕ) (maxCapture : ℕ) (parameters docParameters : Value) (elems : List Value)
    (results : List StepResult) : List ShellCall :=
  (elems.take results.length).filterMap (callOf strtod maxCapture parameters docParameters)

/-- The call of an element is the first one of those that start with it. -/
theorem callsOf_cons (strtod : Bytes → Double × ℕ) (maxCapture : ℕ) (parameters docParameters e : Value)
    (elems : List Value) (r : StepResult) (results : List StepResult) :
    callsOf strtod maxCapture parameters docParameters (e :: elems) (r :: results) =
      (callOf strtod maxCapture parameters docParameters e).toList ++
        callsOf strtod maxCapture parameters docParameters elems results := by
  unfold callsOf
  rw [List.length_cons, List.take_succ_cons, List.filterMap_cons]
  cases callOf strtod maxCapture parameters docParameters e with
  | none => rfl
  | some call => rfl

/-- **The loop**, on what the elements become. -/
theorem runSteps_accounted (strtod : Bytes → Double × ℕ) (host : Host) (maxCapture : ℕ)
    (parameters docParameters : Value) (elems : List Value) (status : Bytes) (log : Log)
    (hstatus : status ≠ lit "Cancelled") :
    let ran := runSteps strtod host maxCapture parameters docParameters (elems.map mainStep) status log
    Listed strtod host maxCapture parameters docParameters log.calls.length elems ran.1.steps ∧
      ran.2.calls = log.calls ++ callsOf strtod maxCapture parameters docParameters elems ran.1.steps ∧
      ran.1.status = verdict status ran.1.steps := by
  induction elems generalizing status log with
  | nil => exact ⟨rfl, (List.append_nil _).symm, (verdict_nil status).symm⟩
  | cons e elems ih =>
    have hround := runStep_accounted strtod host maxCapture parameters docParameters e status log hstatus
    rw [List.map_cons]
    unfold runSteps
    dsimp only
    by_cases hstop : (runStep strtod host maxCapture parameters docParameters (mainStep e) status log).stop = true
    · rw [if_pos hstop]
      have hcancelled := hround.stop.mp hstop
      refine ⟨⟨hround.recorded, ?_⟩, ?_, ?_⟩
      · rw [if_pos hcancelled]
      · rw [callsOf_cons]
        refine hround.calls.trans ?_
        unfold callsOf
        rw [List.length_nil, List.take_zero, List.filterMap_nil, List.append_nil]
      · rw [verdict_cancelled status _ hcancelled]
        have hcombined := hround.combined
        unfold Combined at hcombined
        rwa [if_pos hcancelled] at hcombined
    · rw [if_neg hstop]
      have hcancelled := mt hround.stop.mpr hstop
      have hcount : (runStep strtod host maxCapture parameters docParameters (mainStep e) status log).log.calls.length =
          log.calls.length + (called strtod host maxCapture parameters docParameters log.calls.length e).toList.length := by
        rw [hround.calls, List.length_append]
        unfold called
        cases callOf strtod maxCapture parameters docParameters e with
        | none => rfl
        | some call => rfl
      obtain ⟨hlisted, hcalls, hverdict⟩ := ih _
        (runStep strtod host maxCapture parameters docParameters (mainStep e) status log).log
        (combined_ne_cancelled _ _ _ hstatus hcancelled hround.combined)
      refine ⟨⟨hround.recorded, ?_⟩, ?_, ?_⟩
      · rw [if_neg hcancelled, ← hcount]
        exact hlisted
      · rw [callsOf_cons, ← List.append_assoc, ← hround.calls]
        exact hcalls
      · rw [verdict_cons _ _ _ _ hcancelled hround.combined]
        exact hverdict

/-- The steps are what the elements of `mainSteps` become. -/
theorem documentSteps_main (document : Value) (elems : List Value)
    (hsteps : document.find (lit "mainSteps") = some (.arr elems)) : documentSteps document = elems.map mainStep := by
  unfold documentSteps
  rw [hsteps]
  rfl

/-- The verdict over all results, by induction on them. -/
theorem verdict_spec (results : List StepResult) : Verdict (verdict (lit "Success") results) results := by
  have hdisjoint (hcancelled : ∃ r ∈ results, r.status = lit "Cancelled") :
      ¬∀ r ∈ results, r.status = lit "Success" ∨ r.status = lit "Skipped" := by
    obtain ⟨r, hr, hstatus⟩ := hcancelled
    intro hok
    cases hok r hr with
    | inl h => exact cancelled_ne_success (hstatus.symm.trans h)
    | inr h => exact skipped_ne_cancelled (h.symm.trans hstatus)
  unfold verdict
  by_cases hcancelled : ∃ r ∈ results, r.status = lit "Cancelled"
  · rw [if_pos hcancelled]
    exact ⟨iff_of_true rfl hcancelled, iff_of_false cancelled_ne_success (hdisjoint hcancelled),
      iff_of_false failed_ne_cancelled.symm fun h => h.1 hcancelled⟩
  rw [if_neg hcancelled]
  by_cases hok : ∀ r ∈ results, r.status = lit "Success" ∨ r.status = lit "Skipped"
  · rw [if_pos hok]
    exact ⟨iff_of_false cancelled_ne_success.symm hcancelled, iff_of_true rfl hok,
      iff_of_false failed_ne_success.symm fun h => h.2 hok⟩
  · rw [if_neg hok]
    exact ⟨iff_of_false failed_ne_cancelled hcancelled, iff_of_false failed_ne_success hok,
      iff_of_true rfl ⟨hcancelled, hok⟩⟩

/-- **Every step is accounted for**: each element of `mainSteps` has a result of its own, in order, up to
the first that is cancelled; the calls are those that these elements ask for; and the status sums them up. -/
theorem runDocument_accounted (strtod : Bytes → Double × ℕ) (host : Host) (maxCapture : ℕ)
    (document parameters : Value) (log : Log) (first : Value) (rest : List Value)
    (hsteps : document.find (lit "mainSteps") = some (.arr (first :: rest))) :
    let docParameters := (document.find (lit "parameters")).getD .null
    let ran := runDocument strtod host maxCapture document parameters log
    Listed strtod host maxCapture parameters docParameters log.calls.length (first :: rest) ran.1.steps ∧
      ran.2.calls = log.calls ++ callsOf strtod maxCapture parameters docParameters (first :: rest) ran.1.steps ∧
      Verdict ran.1.status ran.1.steps := by
  intro docParameters ran
  obtain ⟨hlisted, hcalls, hverdict⟩ := runSteps_accounted strtod host maxCapture parameters docParameters
    (first :: rest) (lit "Success") log cancelled_ne_success.symm
  have hran : ran = runSteps strtod host maxCapture parameters docParameters ((first :: rest).map mainStep)
      (lit "Success") log := by
    unfold ran runDocument
    rw [documentSteps_main document (first :: rest) hsteps]
    rfl
  rw [hran]
  refine ⟨hlisted, hcalls, ?_⟩
  rw [hverdict]
  exact verdict_spec _

/-! ## A document of seven steps, of which six are reached -/

/-- A shell step with one command. -/
def shellStep (name command : String) : Value :=
  .obj [(lit "action", .string kRunShellScript),
    (lit "inputs", .obj [(lit "runCommand", .arr [.string (lit command)])]),
    (lit "name", .string (lit name))]

def windowsStep : Value :=
  .obj [(lit "action", .string kRunShellScript),
    (lit "precondition", .obj [(lit "StringEquals", .arr [.string (lit "platformType"), .string (lit "Windows")])])]

def laterSteps : List Value :=
  [shellStep "greet" "echo \x7b\x7b who \x7d\x7d",
    .obj [(lit "action", .string (lit "aws:softwareInventory"))],
    shellStep "blank" " ",
    shellStep "slow" "sleep 9",
    shellStep "long" "yes",
    shellStep "never" "true"]

def mixedDocument : Value :=
  .obj [(lit "mainSteps", .arr (windowsStep :: laterSteps)),
    (lit "parameters", .obj [(lit "who", .obj [(lit "default", .string (lit "you"))])])]

/-- The second call takes too long and the third one is cancelled. -/
def mixedHost : Host :=
  { nowMs := fun _ => 0
    shell := fun n _ => { Exec.Result.init with exitCode := 0, timedOut := decide (n = 1), cancelled := decide (n = 2) } }

/-- One step is for another platform, one has another plugin and one no commands. -/
theorem mixedDocument_accounted :
    let ran := runDocument (fun _ => (.finite 0, 0)) mixedHost 0 mixedDocument .null Log.empty
    Listed (fun _ => (.finite 0, 0)) mixedHost 0 .null ((mixedDocument.find (lit "parameters")).getD .null) 0
        (windowsStep :: laterSteps) ran.1.steps ∧
      ran.1.steps.map (fun r => (r.pluginId, r.status)) =
        [(kRunShellScript, lit "Skipped"), (lit "greet", lit "Success"), (lit "aws:softwareInventory", lit "Failed"),
          (lit "blank", lit "Failed"), (lit "slow", lit "TimedOut"), (lit "long", lit "Cancelled")] ∧
      ran.2.calls.map ShellCall.script = [lit "echo you", lit "sleep 9", lit "yes"] ∧
      ran.1.status = lit "Cancelled" := by
  obtain ⟨hlisted, hcalls, hverdict⟩ := runDocument_accounted (fun _ => (.finite 0, 0)) mixedHost 0 mixedDocument .null
    Log.empty windowsStep laterSteps rfl
  refine ⟨hlisted, by decide +kernel, ?_, ?_⟩
  · rw [hcalls]
    decide +kernel
  · exact hverdict.cancelled.mpr (by decide +kernel)

end HaikuAgent.Analysis.StepAccounting
