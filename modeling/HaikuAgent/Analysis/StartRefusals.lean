import HaikuAgent.Analysis.JsonRoundTrip
import HaikuAgent.Analysis.ShellPerSession

/-!
# What a start request asks for

The options of a session are read through accessors that fall back on a default, so a
payload can ask for encryption in a shape that is read as not asking. `Legible` is the shape
that is read as it is written; the control loop refuses what it should exactly for the
payloads of that shape.
-/

set_option autoImplicit false

namespace HaikuAgent.Analysis.StartRefusals

open HaikuAgent.Foundation
open HaikuAgent.Model
open HaikuAgent.Model.Json
open HaikuAgent.Model.ControlChannel
open HaikuAgent.Analysis.JsonRoundTrip
open HaikuAgent.Analysis.ShellPerSession

/-- The control loop starts no session for the payload, whatever it has seen. -/
def Refused (strtod : Bytes → Double × ℕ) (payload : Bytes) : Prop :=
  ∀ s : SessionThread, s.handleShell strtod payload = s

/-- The task asks for encryption with a key. -/
def AsksKey (task : Value) : Prop :=
  ∃ content inputs key, task.find (lit "DocumentContent") = some content ∧
    content.find (lit "inputs") = some inputs ∧ inputs.find (lit "kmsKeyId") = some key ∧
    key ≠ .null ∧ key ≠ .string []

/-- The content of the task or its inputs are there, but not as an object. -/
def Malformed (task : Value) : Prop :=
  ∃ content, task.find (lit "DocumentContent") = some content ∧
    (content.isObj = false ∨
      ∃ inputs, content.find (lit "inputs") = some inputs ∧ inputs.isObj = false)

/-- A payload that `parse_start_request` reports no error for is refused if it asks for
encryption, its key id having been read, and if its content is malformed. -/
def FailsClosed (strtod : Bytes → Double × ℕ) (payload : Bytes) : Prop :=
  ∀ task sr kmsKeyId, startTask strtod payload = .ok task →
    parseStartRequest strtod payload = .ok (sr, kmsKeyId) →
    (AsksKey task → kmsKeyId ≠ [] ∧ Refused strtod payload) ∧
      (Malformed task → Refused strtod payload)

/-- The session types that `run` starts. -/
def Supported (sessionType : Bytes) : Prop := sessionType = [] ∨ sessionType = lit "Standard_Stream"

/-- What `parse_start_request` reads of the inputs is what they say. -/
def LegibleInputs (inputs : Value) : Prop :=
  match inputs.find (lit "kmsKeyId") with
  | none | some .null | some (.string _) => True
  | _ => False

/-- The shape of a task that is refused when it should be: its content is an object, if it is
there, and so are the inputs, unless they are in a session of a type that is refused anyway. -/
def Legible (task : Value) : Prop :=
  match task.find (lit "DocumentContent") with
  | none => True
  | some content => content.isObj = true ∧
    match content.find (lit "inputs") with
    | none => True
    | some inputs =>
      if inputs.isObj then LegibleInputs inputs
      else ¬Supported (content.strAt (lit "sessionType") [])

variable (strtod : Bytes → Double × ℕ)

/-! ## What is read -/

def typeRead (task : Value) : Bytes :=
  match task.find (lit "DocumentContent") with
  | some (.obj content) => (Value.obj content).strAt (lit "sessionType") []
  | _ => []

def keyRead (task : Value) : Bytes :=
  match task.find (lit "DocumentContent") with
  | some (.obj content) =>
    match (Value.obj content).find (lit "inputs") with
    | some (.obj inputs) => (Value.obj inputs).strAt (lit "kmsKeyId") []
    | _ => []
  | _ => []

/-- A task with a session id is parsed, with the type that is read of it. -/
theorem parseStartRequest_spec (payload : Bytes) (task : Value)
    (htask : startTask strtod payload = .ok task) :
    ∃ sr, sr.sessionType = typeRead task ∧
      parseStartRequest strtod payload =
        if task.strAt (lit "SessionId") [] = [] then
          .error (lit "interactive_shell payload has no SessionId")
        else .ok (sr, keyRead task) := by
  have hfinal (read : Sessions.StartRequest × Bytes) (hid : read.1.sessionId = task.strAt (lit "SessionId") [])
      (htype : read.1.sessionType = typeRead task) (hkey : read.2 = keyRead task) :
      ∃ sr, sr.sessionType = typeRead task ∧
        (if read.1.sessionId = [] then
          (.error (lit "interactive_shell payload has no SessionId") : Except Bytes _)
        else .ok (read.1, read.2)) =
          if task.strAt (lit "SessionId") [] = [] then
            .error (lit "interactive_shell payload has no SessionId")
          else .ok (sr, keyRead task) := ⟨read.1, htype, by rw [hid, hkey]⟩
  unfold parseStartRequest
  rw [htask]
  refine hfinal _ ?_ ?_ ?_
  all_goals
    dsimp only [typeRead, keyRead]
    cases task.find (lit "DocumentContent") with
    | none => rfl
    | some content =>
      cases content with
      | null | bool | number | string | arr => rfl
      | obj entries =>
        dsimp only
        cases (Value.obj entries).find (lit "inputs") with
        | none => rfl
        | some inputs =>
          cases inputs with
          | null | bool | number | string | arr | obj => rfl

/-- The refusals of a payload that is parsed. -/
theorem refused_iff (payload : Bytes) (sr : Sessions.StartRequest) (kmsKeyId : Bytes)
    (hparse : parseStartRequest strtod payload = .ok (sr, kmsKeyId)) :
    Refused strtod payload ↔ kmsKeyId ≠ [] ∨ ¬Supported sr.sessionType := by
  constructor
  · intro hrefused
    by_contra hnot
    obtain ⟨hkey, htype⟩ := not_or.mp hnot
    rw [not_not] at hkey htype
    have hstartable : Startable strtod payload sr := ⟨hkey ▸ hparse, htype⟩
    -- a call that has seen no session starts this one
    cases handleShell_cases strtod { SessionThread.init with phase := .serving } payload with
    | inl h => exact absurd (h.2 sr hstartable) (Finset.notMem_empty _)
    | inr h =>
      obtain ⟨sr', -, -, hshell⟩ := h
      rw [hrefused] at hshell
      have hlog := congrArg SessionThread.log hshell
      cases hlog
  · intro h s
    cases handleShell_cases strtod s payload with
    | inl hsame => exact hsame.1
    | inr hstart =>
      obtain ⟨sr', ⟨hparse', htype⟩, -, -⟩ := hstart
      rw [hparse] at hparse'
      cases hparse'
      cases h with
      | inl hkey => exact absurd rfl hkey
      | inr hunsupported => exact absurd htype hunsupported

/-! ## The shape that is read as written -/

/-- A legible task that asks for a key has its key read. -/
theorem keyRead_ne_nil (task : Value) (hlegible : Legible task) (hasks : AsksKey task) :
    keyRead task ≠ [] := by
  obtain ⟨content, inputs, key, hcontent, hinputs, hkey, hnull, hempty⟩ := hasks
  unfold Legible at hlegible
  rw [hcontent] at hlegible
  dsimp only at hlegible
  rw [hinputs] at hlegible
  obtain ⟨-, hlegible⟩ := hlegible
  dsimp only at hlegible
  cases content with
  | null | bool | number | string | arr => cases hinputs
  | obj entries =>
    cases inputs with
    | null | bool | number | string | arr => cases hkey
    | obj options =>
      have hlegible : LegibleInputs (.obj options) := hlegible
      unfold LegibleInputs at hlegible
      rw [hkey] at hlegible
      unfold keyRead
      rw [hcontent]
      dsimp only
      rw [hinputs]
      dsimp only
      unfold Value.strAt
      rw [hkey]
      cases key with
      | null => exact absurd rfl hnull
      | string s => exact fun h => hempty (congrArg Value.string h)
      | bool | number | arr | obj => exact hlegible.elim

/-- A legible task with malformed content is of no supported type. -/
theorem unsupported_of_malformed (task : Value) (hlegible : Legible task) (hmalformed : Malformed task) :
    ¬Supported (typeRead task) := by
  obtain ⟨content, hcontent, hshape⟩ := hmalformed
  unfold Legible at hlegible
  rw [hcontent] at hlegible
  obtain ⟨hobj, hlegible⟩ := hlegible
  obtain ⟨inputs, hinputs, hinputsObj⟩ := hshape.resolve_left fun h => Bool.false_ne_true (h.symm.trans hobj)
  rw [hinputs] at hlegible
  dsimp only at hlegible
  rw [hinputsObj, if_neg Bool.false_ne_true] at hlegible
  cases content with
  | null | bool | number | string | arr => cases hobj
  | obj entries =>
    unfold typeRead
    rw [hcontent]
    exact hlegible

/-- A shape that is not read as it is written: a key that is lost, or a malformed content in a
session that would be started. -/
theorem not_legible (task : Value) (h : ¬Legible task) :
    (AsksKey task ∧ keyRead task = []) ∨
      (Malformed task ∧ keyRead task = [] ∧ Supported (typeRead task)) := by
  unfold Legible at h
  unfold AsksKey Malformed keyRead typeRead
  cases hcontent : task.find (lit "DocumentContent") with
  | none =>
    rw [hcontent] at h
    exact absurd trivial h
  | some content =>
    rw [hcontent] at h
    cases content with
    | null | bool | number | string | arr =>
      right
      exact ⟨⟨_, rfl, Or.inl rfl⟩, rfl, Or.inl rfl⟩
    | obj entries =>
      dsimp only at h ⊢
      cases hinputs : (Value.obj entries).find (lit "inputs") with
      | none =>
        rw [hinputs] at h
        exact absurd ⟨rfl, trivial⟩ h
      | some inputs =>
        rw [hinputs] at h
        cases inputs with
        | null | bool | number | string | arr =>
          right
          refine ⟨⟨_, rfl, Or.inr ⟨_, hinputs, rfl⟩⟩, rfl, ?_⟩
          by_contra hunsupported
          exact h ⟨rfl, hunsupported⟩
        | obj options =>
          left
          have h : ¬LegibleInputs (.obj options) := fun hlegible => h ⟨rfl, hlegible⟩
          unfold LegibleInputs at h
          dsimp only
          unfold Value.strAt
          cases hkey : (Value.obj options).find (lit "kmsKeyId") with
          | none =>
            rw [hkey] at h
            exact absurd trivial h
          | some key =>
            rw [hkey] at h
            cases key with
            | null | string => exact absurd trivial h
            | bool | number | arr | obj =>
              exact ⟨⟨_, _, _, rfl, hinputs, hkey, nofun, nofun⟩, rfl⟩

/-- Exactly when a start request fails closed: its task has no session id, which is an error, or
is of the shape that is read as it is written. -/
theorem failsClosed_iff (payload : Bytes) :
    FailsClosed strtod payload ↔
      ∀ task, startTask strtod payload = .ok task → task.strAt (lit "SessionId") [] ≠ [] →
        Legible task := by
  constructor
  · intro hclosed task htask hid
    obtain ⟨sr, htype, hparse⟩ := parseStartRequest_spec strtod payload task htask
    rw [if_neg hid] at hparse
    obtain ⟨hkey, hshape⟩ := hclosed task sr (keyRead task) htask hparse
    by_contra hlegible
    cases not_legible task hlegible with
    | inl h => exact (hkey h.1).1 h.2
    | inr h =>
      cases (refused_iff strtod payload sr _ hparse).mp (hshape h.1) with
      | inl hread => exact hread h.2.1
      | inr hunsupported => exact hunsupported (htype ▸ h.2.2)
  · intro h task sr kmsKeyId htask hok
    obtain ⟨sr', htype, hparse⟩ := parseStartRequest_spec strtod payload task htask
    rw [hparse] at hok
    split_ifs at hok with hid
    cases hok
    rw [if_neg hid] at hparse
    have hlegible := h task htask hid
    have hrefused := refused_iff strtod payload sr _ hparse
    constructor
    · intro hasks
      have hkey := keyRead_ne_nil task hlegible hasks
      exact ⟨hkey, hrefused.mpr (Or.inl hkey)⟩
    · intro hmalformed
      rw [hrefused, htype]
      exact Or.inr (unsupported_of_malformed task hlegible hmalformed)

/-! ## A key that is lost -/

/-- A task whose key id is in a list. -/
def listedKeyTask : Value :=
  .obj [(lit "DocumentContent", .obj [(lit "inputs", .obj [(lit "kmsKeyId", .arr [.string (lit "alias/k")])])]),
    (lit "SessionId", .string (lit "s-1"))]

def listedKeyPayload : Bytes := dump (.obj [(lit "Content", .string (dump listedKeyTask))])

/-- The example task loses nothing when it is printed. -/
theorem listedKeyTask_lossless : Lossless listedKeyTask := by
  have hkeys : [lit "DocumentContent", lit "SessionId"].Pairwise (· < ·) := by decide
  simp only [listedKeyTask, Lossless, LosslessEntries, LosslessElems, List.map_cons, List.map_nil, and_true,
    List.pairwise_singleton]
  exact hkeys

/-- A task that is sent as it is serialised is read back. -/
theorem startTask_dump (task : Value) (hlossless : Lossless task) (hobj : task.isObj = true) :
    startTask decimalStrtod (dump (.obj [(lit "Content", .string (dump task))])) = .ok task := by
  have henvelope : Lossless (.obj [(lit "Content", .string (dump task))]) := by
    simp only [Lossless, LosslessEntries, List.map_cons, List.map_nil, and_true, List.pairwise_singleton]
  have hne : (lit "content" == lit "Content") = false := by decide
  unfold startTask
  rw [parse_dump decimalStrtod decimalStrtod_reads _ henvelope]
  simp only [Value.strAt, Value.find, findEntry, List.lookup_cons, hne, BEq.rfl, List.lookup_nil, Value.str,
    Value.isObj, if_true]
  unfold Value.isObj at hobj
  rw [if_neg (by simp), parse_dump decimalStrtod decimalStrtod_reads _ hlossless]
  exact if_neg fun h => h.elim (fun herr => herr rfl) fun hshape => hshape hobj

/-- The example payload holds the example task. -/
theorem startTask_listedKey : startTask decimalStrtod listedKeyPayload = .ok listedKeyTask :=
  startTask_dump listedKeyTask listedKeyTask_lossless rfl

/-- The session that asks for a key in that shape is started without encryption. -/
theorem listedKey_not_failsClosed : ¬FailsClosed decimalStrtod listedKeyPayload := by
  rw [failsClosed_iff]
  intro h
  have hid : listedKeyTask.strAt (lit "SessionId") [] ≠ [] := by decide
  exact (h listedKeyTask startTask_listedKey hid).2

end HaikuAgent.Analysis.StartRefusals
