import Mathlib.Data.List.Nodup
import HaikuAgent.Analysis.StepResults

/-!
# The steps of a reply

The reply counts its steps by status and lists them by plugin id. The counts are those of
all steps (`find_statusCounts`); the list holds the last step of each id. The two agree, and
every step is listed, exactly when no two steps that the agent came to have the same id
(`keepsSteps_iff`).
-/

set_option autoImplicit false

namespace HaikuAgent.Analysis.ReplySteps

open HaikuAgent.Foundation
open HaikuAgent.Model
open HaikuAgent.Model.Json
open HaikuAgent.Model.Runner
open HaikuAgent.Analysis.ReplyText
open HaikuAgent.Analysis.StepResults

/-- The entries of `runtimeStatus`. -/
def entriesOf (payload : Value) : List (Bytes × Value) :=
  match payload.find (lit "runtimeStatus") with
  | some (.obj entries) => entries
  | _ => []

/-- `runtimeStatusCounts[status]`. -/
def countOf (payload : Value) (status : Bytes) : Option Value :=
  ((payload.find (lit "additionalInfo")).bind fun info => info.find (lit "runtimeStatusCounts")).bind
    fun counts => counts.find status

/-- What an entry says: its key, and the status, the code and the output under it. -/
def said (entry : Bytes × Value) : Bytes × List (Option Value) :=
  (entry.1, [lit "status", lit "code", lit "output"].map entry.2.find)

/-- What the entry of a step has to say. -/
def told (s : StepResult) : Bytes × List (Option Value) :=
  (s.pluginId, [some (.string s.status), some (intNumber s.code), some (.string s.output)])

/-- Each step has its entry, there are no others, and the counts are those of the entries. -/
structure KeepsSteps (steps : List StepResult) (payload : Value) : Prop where
  entries : ((entriesOf payload).map said).Perm (steps.map told)
  counts : ∀ status n, (entriesOf payload).countP (fun e => e.2.strAt (lit "status") [] = status) = n →
    countOf payload status = if n = 0 then none else some (intNumber n)

/-- A reply says of a step what the step's result told it. -/
theorem said_stepStatus (s : StepResult) : said (s.pluginId, stepStatus s) = told s := by
  unfold said told stepStatus
  simp only [List.map_cons, List.map_nil, find_objOf]
  rfl

/-- The status said of a step is its own. -/
theorem strAt_stepStatus (s : StepResult) : (stepStatus s).strAt (lit "status") [] = s.status := by
  unfold stepStatus Value.strAt
  rw [find_objOf]
  rfl

/-- The entries of a reply are its table of steps. -/
theorem entriesOf_replyValue (agent : AgentInfo) (documentStatus trace : Bytes)
    (steps : List StepResult) (nowMs : ℤ) (table : List (Bytes × Value))
    (h : objOf (steps.map fun s => (s.pluginId, stepStatus s)) = .obj table) :
    entriesOf (replyValue agent documentStatus trace steps nowMs) = table := by
  have hfind : (replyValue agent documentStatus trace steps nowMs).find (lit "runtimeStatus") =
      some (objOf (steps.map fun s => (s.pluginId, stepStatus s))) := rfl
  unfold entriesOf
  rw [hfind, h]

/-- The count of a status in a reply is the number of steps that ended with it. -/
theorem countOf_replyValue (agent : AgentInfo) (documentStatus trace : Bytes)
    (steps : List StepResult) (nowMs : ℤ) (status : Bytes) :
    countOf (replyValue agent documentStatus trace steps nowMs) status =
      findEntry ((statusCounts steps).map fun (status, n) => (status, intNumber n)) status := rfl

/-! ## The counts -/

/-- How often a status was counted. -/
theorem find_statusCounts (steps : List StepResult) (status : Bytes) :
    findEntry (statusCounts steps) status =
      if steps.countP (fun s => s.status = status) = 0 then none
      else some (steps.countP (fun s => s.status = status) : ℤ) := by
  induction steps using List.reverseRecOn with
  | nil => simp [statusCounts, findEntry]
  | append_singleton steps last ih =>
    have hstep : statusCounts (steps ++ [last]) = setEntry (statusCounts steps) last.status
        ((findEntry (statusCounts steps) last.status).getD 0 + 1) := by
      simp [statusCounts]
    rw [hstep, List.countP_append, findEntry, lookup_setEntry]
    by_cases hlast : status = last.status
    · subst hlast
      rw [if_pos rfl, ih]
      simp only [List.countP_singleton, decide_true, if_true]
      by_cases hzero : steps.countP (fun s => s.status = last.status) = 0
      · simp [hzero]
      · simp [hzero]
    · rw [if_neg hlast]
      have hnone : [last].countP (fun s => s.status = status) = 0 := by
        simp [Ne.symm hlast]
      rw [hnone, Nat.add_zero]
      exact ih

/-- An entry of a mapped table is the mapped entry. -/
theorem findEntry_map {α β : Type} (f : α → β) (table : List (Bytes × α)) (key : Bytes) :
    findEntry (table.map fun (k, v) => (k, f v)) key = (findEntry table key).map f := by
  induction table with
  | nil => rfl
  | cons entry table ih =>
    obtain ⟨k, v⟩ := entry
    simp only [findEntry, List.map_cons, lookup_cons_eq] at ih ⊢
    split_ifs
    · rfl
    · exact ih

/-! ## The entries -/

/-- A table in order has distinct keys. -/
theorem nodup_keys (table : List (Bytes × Value)) (h : InOrder table) :
    (table.map Prod.fst).Nodup := by
  apply List.pairwise_map.mpr
  apply List.Pairwise.imp _ h
  intro a b hlt heq
  exact List.lt_irrefl _ (heq ▸ hlt)

/-- The list of the entries has an entry for each step, if no id is given twice. -/
theorem entries_perm (steps : List StepResult) (table : List (Bytes × Value))
    (h : objOf (steps.map fun s => (s.pluginId, stepStatus s)) = .obj table)
    (hids : (steps.map StepResult.pluginId).Nodup) :
    table.Perm (steps.map fun s => (s.pluginId, stepStatus s)) := by
  obtain ⟨table', htable, horder, hmem⟩ := objOf_entries (steps.map fun s => (s.pluginId, stepStatus s))
  obtain rfl : table' = table := Value.obj.inj (htable.symm.trans h)
  have hkeys : ((steps.map fun s => (s.pluginId, stepStatus s)).map Prod.fst).Nodup := by
    rw [List.map_map]
    exact hids
  apply (List.perm_ext_iff_of_nodup _ _).mpr
  · intro entry
    rw [hmem]
    constructor
    · rintro ⟨front, back, heq, -⟩
      rw [heq]
      exact List.mem_append_right _ List.mem_cons_self
    · intro hentry
      obtain ⟨front, back, heq⟩ := List.append_of_mem hentry
      refine ⟨front, back, heq, ?_⟩
      intro later hlater hsame
      rw [heq, List.map_append, List.map_cons, List.nodup_append, List.nodup_cons] at hkeys
      exact hkeys.2.1.1 (hsame ▸ List.mem_map_of_mem hlater)
  · exact List.Nodup.of_map Prod.fst (nodup_keys _ horder)
  · exact List.Nodup.of_map Prod.fst hkeys

/-- A reply keeps all its steps exactly when their plugin ids differ. -/
theorem keepsSteps_iff_nodup (agent : AgentInfo) (documentStatus trace : Bytes)
    (steps : List StepResult) (nowMs : ℤ) :
    KeepsSteps steps (replyValue agent documentStatus trace steps nowMs) ↔
      (steps.map StepResult.pluginId).Nodup := by
  obtain ⟨table, htable, horder, -⟩ := objOf_entries (steps.map fun s => (s.pluginId, stepStatus s))
  have hentries := entriesOf_replyValue agent documentStatus trace steps nowMs table htable
  constructor
  · intro h
    have hperm := h.entries.map Prod.fst
    rw [hentries, List.map_map, List.map_map] at hperm
    apply (hperm.nodup_iff).mp
    exact nodup_keys table horder
  · intro hids
    have hperm := entries_perm steps table htable hids
    refine ⟨?_, ?_⟩
    · rw [hentries]
      have hsaid := hperm.map said
      simp only [List.map_map, Function.comp_def, said_stepStatus] at hsaid
      exact hsaid
    · intro status n hn
      rw [hentries, hperm.countP_eq, List.countP_map] at hn
      simp only [Function.comp_def, strAt_stepStatus] at hn
      rw [countOf_replyValue, findEntry_map, find_statusCounts, hn]
      split_ifs <;> rfl

/-- **The reply keeps the steps of a document** exactly when no two steps that the agent came
to have the same plugin id.
SRC: runner.cpp:216-243, 339-386 -/
theorem keepsSteps_iff (strtod : Bytes → Double × ℕ) (host : Host) (maxCapture : ℕ)
    (document parameters : Value) (log : Log) (agent : AgentInfo) (documentStatus trace : Bytes)
    (nowMs : ℤ) :
    let steps := (runDocument strtod host maxCapture document parameters log).1.steps
    let payload := replyValue agent documentStatus trace steps nowMs
    replyPayload agent documentStatus trace steps nowMs = dump payload ∧
      (KeepsSteps steps payload ↔
        ((reachedSteps strtod host maxCapture document parameters log).map fun s => s.2.pluginId).Nodup) := by
  refine ⟨rfl, ?_⟩
  rw [keepsSteps_iff_nodup]
  have hids := map_eq_of_forall₂ (fun s : ℕ × Step => s.2.pluginId) StepResult.pluginId
    (fun _ _ => Built.pluginId) (runDocument_built strtod host maxCapture document parameters log)
  rw [hids]

/-- Two steps with one name, and a plugin that the agent does not have. -/
def namedAlike : Value :=
  let step (action : Bytes) := objOf [(lit "name", .string (lit "run")), (lit "action", .string action)]
  objOf [(lit "mainSteps", .arr [step (lit "aws:configurePackage"), step (lit "aws:runDocument")])]

/-- What `run_document` makes of it: neither step is run. -/
def namedAlikeSteps : List StepResult :=
  (runDocument (fun _ => (.finite 0, 0)) ⟨fun _ => 0, fun _ _ => Exec.Result.init⟩ 24000 namedAlike .null
    Log.empty).1.steps

/-- Two steps of one name leave one entry. -/
theorem namedAlike_not_kept : ¬KeepsSteps namedAlikeSteps
    (replyValue ⟨lit "haiku-mgmt-agent", [], lit "en-US", lit "Haiku", []⟩ (lit "Failed") []
      namedAlikeSteps 0) := by
  rw [keepsSteps_iff_nodup]
  have hids : namedAlikeSteps.map StepResult.pluginId = [lit "run", lit "run"] := rfl
  rw [hids]
  simp

end HaikuAgent.Analysis.ReplySteps
