import HaikuAgent.Analysis.JsonRoundTrip
import HaikuAgent.Analysis.ReplySteps
import HaikuAgent.Analysis.StoredObjects
import HaikuAgent.Model.Commands

/-!
# The outputs that a reply refers to

A worker uploads what its steps wrote, and its final reply names a bucket and a prefix for the steps
whose output is there. `Uploaded` runs its calls against the service of `Interface.ObjectService`.

What the reply refers to is there (`reported_outputs_stored`): under the prefix of a step is a stream of
this very step, whole, whatever failed, was cut off or was sent twice; and nothing else is written.
-/

set_option autoImplicit false

namespace HaikuAgent.Analysis.ReportedOutputs

open HaikuAgent.Foundation
open HaikuAgent.Model
open HaikuAgent.Model.Json
open HaikuAgent.Model.Runner
open HaikuAgent.Model.Commands
open HaikuAgent.Interface.ObjectService
open HaikuAgent.Analysis.JsonRoundTrip (decimalStrtod)
open HaikuAgent.Analysis.SignedRequests (exampleDigests)
open HaikuAgent.Analysis.ReplyText
open HaikuAgent.Analysis.ReplySteps
open HaikuAgent.Analysis.StepResults
open HaikuAgent.Analysis.StoredObjects

/-! ## Keys -/

inductive StreamName where
  | stdout
  | stderr

namespace StreamName

def suffix : StreamName → Bytes
  | stdout => lit "/stdout"
  | stderr => lit "/stderr"

def content (sr : StepResult) : StreamName → Bytes
  | stdout => sr.fullStdout
  | stderr => sr.fullStderr

/-- The two streams have different suffixes. -/
theorem suffix_injective {name name' : StreamName} (h : name.suffix = name'.suffix) : name = name' := by
  cases name with
  | stdout =>
    cases name' with
    | stdout => rfl
    | stderr => exact absurd h (by decide)
  | stderr =>
    cases name' with
    | stdout => exact absurd h (by decide)
    | stderr => rfl

/-- Both suffixes are seven bytes long. -/
theorem length_suffix (name : StreamName) : name.suffix.length = 7 := by
  cases name with
  | stdout => rfl
  | stderr => rfl

end StreamName

section Keys

variable (cfg : Config) (region : Bytes) (w : Worker)

/-- SRC: main.cpp:250-252 -/
def keyPrefix (id : Bytes) : Bytes :=
  (if w.s3Prefix = [] then [] else w.s3Prefix ++ lit "/") ++ w.commandId ++ lit "/" ++ cfg.instanceId ++
    lit "/awsrunShellScript/" ++ id

/-- Where a stream of the step of an id is put. -/
def address (id : Bytes) (name : StreamName) : Address := addressIn region w.s3Bucket (keyPrefix cfg w id ++ name.suffix)

/-- An address tells the step and the stream it is for. -/
theorem address_injective {id id' : Bytes} {name name' : StreamName}
    (h : address cfg region w id name = address cfg region w id' name') : id = id' ∧ name = name' := by
  obtain ⟨-, hkey⟩ := addressIn_injective h
  obtain ⟨hpre, hsuffix⟩ := List.append_inj' hkey (by rw [name.length_suffix, name'.length_suffix])
  exact ⟨List.append_cancel_left hpre, StreamName.suffix_injective hsuffix⟩

/-! ## What is uploaded -/

/-- The upload of a stream, with its response. -/
def streamPut (sr : StepResult) (name : StreamName) (resp : Http.Response) : Call :=
  .putObject w.s3Bucket (keyPrefix cfg w sr.pluginId ++ name.suffix) (name.content sr) resp

/-- Some stream of the step is there to be uploaded, and one of the calls says that it was. -/
def Reported (sr : StepResult) (calls : List Call) : Prop :=
  ∃ name resp, streamPut cfg w sr name resp ∈ calls ∧ resp.ok = true ∧ name.content sr ≠ []

/-- A step before and after its uploads. -/
structure Mirrored (sr sr' : StepResult) (calls : List Call) : Prop where
  uploads : ∀ call ∈ calls, ∃ name resp, call = streamPut cfg w sr name resp
  result : sr' = sr ∨ Reported cfg w sr calls ∧
    sr' = { sr with outputS3Bucket := w.s3Bucket, outputS3KeyPrefix := keyPrefix cfg w sr.pluginId }

/-- The steps of a document, one after the other. -/
inductive AllMirrored : List StepResult → List StepResult → List Call → Prop
  | nil : AllMirrored [] [] []
  | cons {sr sr' : StepResult} {calls rest : List Call} {steps steps' : List StepResult}
      (h : Mirrored cfg w sr sr' calls) (hrest : AllMirrored steps steps' rest) :
      AllMirrored (sr :: steps) (sr' :: steps') (calls ++ rest)

/-- Uploading one stream makes puts at its own address only, and its success is one of them. -/
theorem uploadStream_puts (put : ℕ → Http.Response) (sr : StepResult) (name : StreamName) (calls : List Call) :
    ∃ new ok, uploadStream put w.s3Bucket (keyPrefix cfg w sr.pluginId ++ name.suffix) (name.content sr) calls =
        (calls ++ new, ok) ∧ (∀ call ∈ new, ∃ name resp, call = streamPut cfg w sr name resp) ∧
      (ok = true → Reported cfg w sr new) := by
  unfold uploadStream
  split_ifs with hempty
  · refine ⟨[], false, by rw [List.append_nil], ?_, nofun⟩
    intro call hcall
    exact absurd hcall List.not_mem_nil
  · refine ⟨[streamPut cfg w sr name (put calls.length)], _, rfl, ?_, ?_⟩
    · intro call hcall
      exact ⟨name, _, List.mem_singleton.mp hcall⟩
    · intro hok
      exact ⟨name, _, List.mem_singleton_self _, hok, hempty⟩

/-- One round of the loop.
SRC: main.cpp:249-281 -/
theorem uploadStep_mirrored (put : ℕ → Http.Response) (acc : List StepResult × List Call) (sr : StepResult) :
    ∃ sr' calls, uploadStep cfg put w.commandId w.s3Bucket w.s3Prefix acc sr = (acc.1 ++ [sr'], acc.2 ++ calls) ∧
      Mirrored cfg w sr sr' calls := by
  obtain ⟨out, okOut, hout, houtPuts, houtOk⟩ := uploadStream_puts cfg w put sr .stdout acc.2
  obtain ⟨errout, okErr, herr, herrPuts, herrOk⟩ := uploadStream_puts cfg w put sr .stderr (acc.2 ++ out)
  have hround : uploadStep cfg put w.commandId w.s3Bucket w.s3Prefix acc sr =
      (acc.1 ++ [if okOut || okErr then
        { sr with outputS3Bucket := w.s3Bucket, outputS3KeyPrefix := keyPrefix cfg w sr.pluginId } else sr],
        acc.2 ++ (out ++ errout)) := by
    unfold uploadStep keyPrefix
    unfold keyPrefix StreamName.suffix StreamName.content at hout herr
    dsimp only at hout herr ⊢
    rw [hout]
    dsimp only
    rw [herr, List.append_assoc]
  refine ⟨_, _, hround, ?_, ?_⟩
  · intro call hcall
    obtain hcall | hcall := List.mem_append.mp hcall
    · exact houtPuts call hcall
    · exact herrPuts call hcall
  · split_ifs with hok
    · refine .inr ⟨?_, rfl⟩
      obtain hok | hok := Bool.or_eq_true_iff.mp hok
      · obtain ⟨name, resp, hmem, hrest⟩ := houtOk hok
        exact ⟨name, resp, List.mem_append_left _ hmem, hrest⟩
      · obtain ⟨name, resp, hmem, hrest⟩ := herrOk hok
        exact ⟨name, resp, List.mem_append_right _ hmem, hrest⟩
    · exact .inl rfl

/-- The uploads of all steps are mirrored in their references. -/
theorem uploadOutputs_mirrored (put : ℕ → Http.Response) (steps : List StepResult) :
    AllMirrored cfg w steps (uploadOutputs cfg put w.commandId w.s3Bucket w.s3Prefix steps).1
      (uploadOutputs cfg put w.commandId w.s3Bucket w.s3Prefix steps).2 := by
  unfold uploadOutputs
  split_ifs with hbucket
  · induction steps with
    | nil => exact .nil
    | cons sr steps ih =>
      have hnone : Mirrored cfg w sr sr [] := ⟨fun call hcall => absurd hcall List.not_mem_nil, .inl rfl⟩
      exact .cons hnone ih
  · have hfold (acc : List StepResult × List Call) : ∃ steps' calls,
        steps.foldl (uploadStep cfg put w.commandId w.s3Bucket w.s3Prefix) acc = (acc.1 ++ steps', acc.2 ++ calls) ∧
          AllMirrored cfg w steps steps' calls := by
      induction steps generalizing acc with
      | nil => exact ⟨[], [], by rw [List.foldl_nil, List.append_nil, List.append_nil], .nil⟩
      | cons sr steps ih =>
        obtain ⟨sr', calls, hround, hmirrored⟩ := uploadStep_mirrored cfg w put acc sr
        obtain ⟨steps', rest, hrest, hall⟩ := ih (acc.1 ++ [sr'], acc.2 ++ calls)
        refine ⟨sr' :: steps', calls ++ rest, ?_, .cons hmirrored hall⟩
        rw [List.foldl_cons, hround, hrest, List.append_assoc, List.append_assoc]
        rfl
    obtain ⟨steps', calls, hsteps, hall⟩ := hfold ([], [])
    rw [hsteps]
    exact hall

variable {cfg w} {sr sr' : StepResult} {steps steps' : List StepResult} {calls : List Call}

/-- Uploading leaves the plugin's id alone. -/
theorem Mirrored.pluginId (h : Mirrored cfg w sr sr' calls) : sr'.pluginId = sr.pluginId := by
  obtain hsame | ⟨-, hset⟩ := h.result
  · rw [hsame]
  · rw [hset]

/-- Every upload is of a stream of one of the steps. -/
theorem AllMirrored.uploads (h : AllMirrored cfg w steps steps' calls) :
    ∀ call ∈ calls, ∃ sr ∈ steps, ∃ name resp, call = streamPut cfg w sr name resp := by
  induction h with
  | nil => exact fun call hcall => absurd hcall List.not_mem_nil
  | cons h _ ih =>
    intro call hcall
    obtain hcall | hcall := List.mem_append.mp hcall
    · exact ⟨_, List.mem_cons_self, h.uploads call hcall⟩
    · obtain ⟨sr, hsr, hput⟩ := ih call hcall
      exact ⟨sr, List.mem_cons_of_mem _ hsr, hput⟩

/-- Uploading leaves the plugin ids of the steps alone. -/
theorem AllMirrored.pluginIds (h : AllMirrored cfg w steps steps' calls) :
    steps'.map StepResult.pluginId = steps.map StepResult.pluginId := by
  induction h with
  | nil => rfl
  | cons h _ ih => rw [List.map_cons, List.map_cons, h.pluginId, ih]

/-- A step with the ones after it. -/
theorem AllMirrored.split {front back : List StepResult} (h : AllMirrored cfg w steps (front ++ sr' :: back) calls) :
    ∃ sr ∈ steps, ∃ later, ∃ earlier own rest, calls = earlier ++ (own ++ rest) ∧ Mirrored cfg w sr sr' own ∧
      AllMirrored cfg w later back rest := by
  induction front generalizing steps calls with
  | nil =>
    rw [List.nil_append] at h
    cases h with
    | cons h hrest => exact ⟨_, List.mem_cons_self, _, [], _, _, rfl, h, hrest⟩
  | cons first front ih =>
    rw [List.cons_append] at h
    cases h with
    | @cons _ _ own _ _ _ h hrest =>
      obtain ⟨sr, hsr, later, earlier, own', rest, hcalls, hmirrored, hall⟩ := ih hrest
      refine ⟨sr, List.mem_cons_of_mem _ hsr, later, own ++ earlier, own', rest, ?_, hmirrored, hall⟩
      rw [hcalls, List.append_assoc]

end Keys

/-! ## The service -/

/-- Calls of a worker that are made one after the other, with what others do in between. -/
inductive Uploaded (strtod : Bytes → Double × ℕ) (digests : Signing.Digests) (disk : Bytes → Option Bytes)
    (others : Objects → Objects → Prop) (region : Bytes) : List Call → Objects → Objects → Prop
  | done {objects : Objects} : Uploaded strtod digests disk others region [] objects objects
  | put {objects between stored objects' : Objects} {bucket key body : Bytes} {calls : List Call}
      {cached : CredentialProvider.Credentials} {meeting : S3.Meeting} {xs : List Http.Exchange}
      (hothers : others objects between)
      (h : Ran strtod digests disk others ⟨lit "PUT", region, bucket, key, [], body, [], lit "text/plain"⟩ cached meeting
        between xs stored)
      (hrest : Uploaded strtod digests disk others region calls stored objects') :
      Uploaded strtod digests disk others region
        (.putObject bucket key body (S3.put strtod digests region bucket key [] body (lit "text/plain") cached meeting).resp ::
          calls) objects objects'
  | reply {objects objects' : Objects} {what messageId payload : Bytes} {resp : Http.Response} {calls : List Call}
      (hrest : Uploaded strtod digests disk others region calls objects objects') :
      Uploaded strtod digests disk others region (.sendReply what messageId payload resp :: calls) objects objects'

section Service

variable {strtod : Bytes → Double × ℕ} {digests : Signing.Digests} {disk : Bytes → Option Bytes}
  {others : Objects → Objects → Prop} {region : Bytes} {calls later : List Call} {objects objects' : Objects}
  {a : Address}

/-- What an upload has in store for an address. -/
def PutsAt (region : Bytes) (a : Address) (body : Bytes) (resp : Http.Response) (call : Call) : Prop :=
  ∃ bucket key, call = .putObject bucket key body resp ∧ addressIn region bucket key = a

/-- What is at an address was there, or has been put there. -/
theorem Uploaded.origin (h : Uploaded strtod digests disk others region calls objects objects')
    (hkeeps : ∀ o o', others o o' → o' a = o a) :
    objects' a = objects a ∨ ∃ call ∈ calls, ∃ body resp, PutsAt region a body resp call ∧ objects' a = some body := by
  induction h with
  | done => exact .inl rfl
  | reply hrest ih =>
    obtain hsame | ⟨call, hcall, hput⟩ := ih
    · exact .inl hsame
    · exact .inr ⟨call, List.mem_cons_of_mem _ hcall, hput⟩
  | @put objects between stored _ bucket key body calls cached meeting xs hothers h hrest ih =>
    obtain hsame | ⟨call, hcall, hput⟩ := ih
    · rw [hsame, ← hkeeps _ _ hothers]
      by_cases hhere : addressIn region bucket key = a
      · subst hhere
        obtain hsame | hstored := h.put_only rfl hkeeps
        · exact .inl hsame
        · exact .inr ⟨_, List.mem_cons_self, body, _, ⟨bucket, key, rfl, rfl⟩, hstored⟩
      · exact .inl (h.frame (.inl rfl) hkeeps fun _ => Ne.symm hhere)
    · exact .inr ⟨call, List.mem_cons_of_mem _ hcall, hput⟩

/-- After an upload that reports success the value is there, if no other is put in its place. -/
theorem Uploaded.stored (h : Uploaded strtod digests disk others region calls objects objects') {value : Bytes}
    (hkeeps : ∀ o o', others o o' → o' a = o a)
    (hputs : ∀ call ∈ calls, ∀ body resp, PutsAt region a body resp call → body = value)
    (hok : ∃ call ∈ calls, ∃ body resp, PutsAt region a body resp call ∧ resp.ok = true) : objects' a = some value := by
  induction h with
  | done =>
    obtain ⟨call, hcall, -⟩ := hok
    exact absurd hcall List.not_mem_nil
  | reply hrest ih =>
    refine ih (fun call hcall => hputs call (List.mem_cons_of_mem _ hcall)) ?_
    obtain ⟨call, hcall, body, resp, hat, hresp⟩ := hok
    obtain rfl | hcall := List.mem_cons.mp hcall
    · obtain ⟨bucket, key, hput, -⟩ := hat
      cases hput
    · exact ⟨call, hcall, body, resp, hat, hresp⟩
  | @put objects between stored _ bucket key body calls cached meeting xs hothers h hrest ih =>
    have hputs' := fun call hcall => hputs call (List.mem_cons_of_mem _ hcall)
    obtain ⟨call, hcall, body', resp, hat, hresp⟩ := hok
    obtain rfl | hcall := List.mem_cons.mp hcall
    · have hbody := hputs _ List.mem_cons_self body' resp hat
      obtain ⟨bucket', key', hput, hhere⟩ := hat
      cases hput
      subst hhere hbody
      obtain ⟨content, hcontent, hstored⟩ := h.put rfl hkeeps hresp
      have hpayload : payload disk ⟨lit "PUT", region, bucket, key, [], body, [], lit "text/plain"⟩ = some body := if_pos rfl
      cases hpayload.symm.trans hcontent
      obtain hsame | ⟨call, hcall, body', resp, hat, hlater⟩ := hrest.origin hkeeps
      · rw [hsame]
        exact hstored
      · rw [hlater, hputs' call hcall body' resp hat]
    · exact ih hputs' ⟨call, hcall, body', resp, hat, hresp⟩

/-- Uploads in two parts pass through a state of the store between them. -/
theorem Uploaded.append (h : Uploaded strtod digests disk others region (calls ++ later) objects objects') :
    ∃ between, Uploaded strtod digests disk others region calls objects between ∧
      Uploaded strtod digests disk others region later between objects' := by
  induction calls generalizing objects with
  | nil => exact ⟨objects, .done, h⟩
  | cons call calls ih =>
    rw [List.cons_append] at h
    cases h with
    | put hothers hran hrest =>
      obtain ⟨between, hfirst, hsecond⟩ := ih hrest
      exact ⟨between, .put hothers hran hfirst, hsecond⟩
    | reply hrest =>
      obtain ⟨between, hfirst, hsecond⟩ := ih hrest
      exact ⟨between, .reply hfirst, hsecond⟩

end Service

/-! ## The reply -/

/-- The bucket a reply names for a step is the step's own. -/
theorem outputS3Bucket_stepStatus (s : StepResult) :
    (stepStatus s).strAt (lit "outputS3BucketName") [] = s.outputS3Bucket := by
  unfold stepStatus Value.strAt
  rw [find_objOf]
  rfl

/-- The key prefix a reply names for a step is the step's own. -/
theorem outputS3KeyPrefix_stepStatus (s : StepResult) :
    (stepStatus s).strAt (lit "outputS3KeyPrefix") [] = s.outputS3KeyPrefix := by
  unfold stepStatus Value.strAt
  rw [find_objOf]
  rfl

/-- No step refers to anything before the uploads. -/
theorem workerOutcome_unreferenced (cfg : Config) (w : Worker) (run : WorkerRun) :
    ∀ sr ∈ (workerOutcome cfg w run).steps, sr.outputS3Bucket = [] := by
  unfold workerOutcome
  by_cases hpatch : Patch.isPatchDocument w.documentName = true
  · rw [if_pos hpatch]
    intro sr hsr
    rw [List.mem_singleton.mp hsr]
    rfl
  · rw [if_neg hpatch]
    have hbuilt := runDocument_built cfg.strtod run.host
      (if w.s3Bucket = [] then defaultMaxCapture else kS3CaptureBytes) w.document w.parameters Log.empty
    have hbuckets := map_eq_of_forall₂ (fun _ => ([] : Bytes)) StepResult.outputS3Bucket
      (fun _ _ hst => by cases hst <;> rfl) hbuilt
    intro sr hsr
    have hmem := List.mem_map_of_mem (f := StepResult.outputS3Bucket) hsr
    rw [hbuckets] at hmem
    obtain ⟨-, -, hnone⟩ := List.mem_map.mp hmem
    exact hnone.symm

section Worker

variable {digests : Signing.Digests} {disk : Bytes → Option Bytes} (others : Objects → Objects → Prop) (region : Bytes)
  (cfg : Config) (w : Worker) (run : WorkerRun) (before after : Objects)

/-- Every step status of the final reply that names a bucket belongs to a step of that id, and one of its
streams is under the prefix that the status names, whole. -/
def ReferencesHold : Prop :=
  ∀ messageId payload resp, .sendReply replyFinal messageId payload resp ∈ workerCalls cfg w run →
    ∃ value, payload = dump value ∧ ∀ entry ∈ entriesOf value, entry.2.strAt (lit "outputS3BucketName") [] ≠ [] →
      ∃ sr ∈ (workerOutcome cfg w run).steps, sr.pluginId = entry.1 ∧
        entry.2.strAt (lit "outputS3BucketName") [] = w.s3Bucket ∧
        entry.2.strAt (lit "outputS3KeyPrefix") [] = keyPrefix cfg w entry.1 ∧
        ∃ name : StreamName, name.content sr ≠ [] ∧
          after (address cfg region w entry.1 name) = some (name.content sr)

/-- Nothing but streams of the steps is written, each under its own key. -/
def OnlyStreams : Prop :=
  ∀ a, (∀ o o', others o o' → o' a = o a) → after a = before a ∨
    ∃ sr ∈ (workerOutcome cfg w run).steps, ∃ name : StreamName, a = address cfg region w sr.pluginId name ∧
      after a = some (name.content sr)

variable {others region cfg w run before after}

/-- **What a reply refers to is stored**, if others leave the keys of the command alone, and nothing else
is written, also where an upload fails.
SRC: main.cpp:246-283, 355-376; runner.cpp:345-391; s3.cpp:28-47, 125-137 -/
theorem reported_outputs_stored
    (hkeeps : ∀ o o', others o o' → ∀ id name, o' (address cfg region w id name) = o (address cfg region w id name))
    (h : Uploaded cfg.strtod digests disk others region (workerCalls cfg w run) before after) :
    ReferencesHold region cfg w run after ∧ OnlyStreams others region cfg w run before after := by
  let steps := (workerOutcome cfg w run).steps
  let uploads := uploadOutputs cfg run.upload w.commandId w.s3Bucket w.s3Prefix steps
  have hall : AllMirrored cfg w steps uploads.1 uploads.2 := uploadOutputs_mirrored cfg w run.upload steps
  have hcalls : workerCalls cfg w run = uploads.2 ++ sendReply cfg replyFinal w.messageId
      (workerOutcome cfg w run).status (workerOutcome cfg w run).trace uploads.1 run.nowMs run.reply := rfl
  unfold ReferencesHold
  rw [hcalls] at h ⊢
  have hreply : ∀ call ∈ sendReply cfg replyFinal w.messageId (workerOutcome cfg w run).status
      (workerOutcome cfg w run).trace uploads.1 run.nowMs run.reply, ∃ resp, call = .sendReply replyFinal w.messageId
        (dump (replyValue cfg.info (workerOutcome cfg w run).status (workerOutcome cfg w run).trace uploads.1 run.nowMs))
        resp := by
    unfold sendReply
    intro call hcall
    cases hanswer : run.reply with
    | noCredentials =>
      rw [hanswer] at hcall
      exact absurd hcall List.not_mem_nil
    | answered resp =>
      rw [hanswer] at hcall
      exact ⟨resp, List.mem_singleton.mp hcall⟩
  constructor
  · intro messageId payload resp hsent
    have hpayload : payload = dump (replyValue cfg.info (workerOutcome cfg w run).status (workerOutcome cfg w run).trace
        uploads.1 run.nowMs) := by
      obtain hsent | hsent := List.mem_append.mp hsent
      · obtain ⟨sr, -, name, resp', hput⟩ := hall.uploads _ hsent
        cases hput
      · obtain ⟨resp', heq⟩ := hreply _ hsent
        exact (Call.sendReply.inj heq).2.2.1
    refine ⟨_, hpayload, ?_⟩
    intro entry hentry hnamed
    obtain ⟨table, htable, -, hmem⟩ := objOf_entries (uploads.1.map fun s => (s.pluginId, stepStatus s))
    rw [entriesOf_replyValue _ _ _ _ _ table htable, hmem] at hentry
    -- the entry is that of the last step of its id
    obtain ⟨front, back, hsplit, hlatest⟩ := hentry
    obtain ⟨first, last, hsteps, -, hlast⟩ := List.map_eq_append_iff.mp hsplit
    obtain ⟨sr', others', rfl, rfl, rfl⟩ := List.map_eq_cons_iff.mp hlast
    dsimp only at hnamed hlatest ⊢
    rw [outputS3Bucket_stepStatus] at hnamed ⊢
    rw [outputS3KeyPrefix_stepStatus]
    have hsplits := hall
    rw [hsteps] at hsplits
    obtain ⟨sr, hsr, later, earlier, own, rest, hparts, hmirrored, hlater⟩ := hsplits.split
    rw [hmirrored.pluginId] at hlatest ⊢
    obtain rfl | ⟨⟨name, resp', hput, hok, hnonempty⟩, rfl⟩ := hmirrored.result
    · exact absurd (workerOutcome_unreferenced cfg w run _ hsr) hnamed
    · refine ⟨sr, hsr, rfl, rfl, rfl, name, hnonempty, ?_⟩
      rw [hparts, List.append_assoc] at h
      obtain ⟨between, -, hend⟩ := h.append
      refine hend.stored (fun o o' h => hkeeps o o' h sr.pluginId name) ?_ ?_
      · rintro call hcall body resp'' ⟨bucket, key, rfl, hat⟩
        obtain hcall | hcall := List.mem_append.mp hcall
        · obtain hcall | hcall := List.mem_append.mp hcall
          · obtain ⟨name', resp', heq⟩ := hmirrored.uploads _ hcall
            obtain ⟨rfl, rfl, rfl, -⟩ := Call.putObject.inj heq
            obtain ⟨-, rfl⟩ := address_injective cfg region w hat
            rfl
          · obtain ⟨sr', hsr', name', resp', heq⟩ := hlater.uploads _ hcall
            obtain ⟨rfl, rfl, rfl, -⟩ := Call.putObject.inj heq
            obtain ⟨hid, -⟩ := address_injective cfg region w hat
            have hmem : sr'.pluginId ∈ others'.map StepResult.pluginId := by
              rw [hlater.pluginIds]
              exact List.mem_map_of_mem hsr'
            obtain ⟨s, hs, hsame⟩ := List.mem_map.mp hmem
            exact absurd (hsame.trans hid) (hlatest _ (List.mem_map_of_mem hs))
        · obtain ⟨resp', heq⟩ := hreply _ hcall
          cases heq
      · exact ⟨_, List.mem_append_left _ (List.mem_append_left _ hput), _, _, ⟨_, _, rfl, rfl⟩, hok⟩
  · intro a hkeepsA
    obtain hsame | ⟨call, hcall, body, resp, ⟨bucket, key, rfl, hat⟩, hstored⟩ := h.origin hkeepsA
    · exact .inl hsame
    · obtain hcall | hcall := List.mem_append.mp hcall
      · obtain ⟨sr, hsr, name, resp', hput⟩ := hall.uploads _ hcall
        obtain ⟨rfl, rfl, rfl, -⟩ := Call.putObject.inj hput
        exact .inr ⟨sr, hsr, name, hat.symm, hstored⟩
      · obtain ⟨resp', heq⟩ := hreply _ hcall
        cases heq

end Worker

/-! ## A command with one step -/

def exampleConfig : Config := ⟨decimalStrtod, ⟨lit "haiku-mgmt-agent", lit "0.4.0", lit "en-US", lit "Haiku", []⟩, lit "i-1"⟩

def exampleWorker : Worker :=
  { messageId := lit "message"
    commandId := lit "command"
    document := objOf [(lit "mainSteps", .arr [objOf [(lit "name", .string (lit "run")),
      (lit "action", .string kRunShellScript), (lit "inputs", objOf [(lit "runCommand", .arr [.string (lit "echo abc")])])]])]
    parameters := .null
    s3Bucket := lit "logs"
    s3Prefix := []
    documentName := []
    token := 0
    replied := false }

/-- Its command writes three bytes, which are uploaded with this response. -/
def exampleRun (resp : Http.Response) : WorkerRun :=
  { host := ⟨fun _ => 0, fun _ _ => { Exec.Result.init with stdoutData := lit "abc" }⟩
    patchCredentials := false
    putInventory := fun _ => S3.offline
    upload := fun _ => resp
    reply := .answered ⟨200, [], []⟩
    nowMs := 0 }

def exampleKey : Bytes := lit "command/i-1/awsrunShellScript/run/stdout"

/-- The example run stores one output and sends its reply. -/
theorem exampleRun_calls (resp : Http.Response) : ∃ payload, workerCalls exampleConfig exampleWorker (exampleRun resp) =
    [.putObject (lit "logs") exampleKey (lit "abc") resp, .sendReply replyFinal (lit "message") payload ⟨200, [], []⟩] :=
  ⟨_, rfl⟩

def exampleResponse : Http.Response :=
  (S3.put decimalStrtod exampleDigests (lit "eu-west-1") (lit "logs") exampleKey [] (lit "abc") (lit "text/plain") exampleCached
    exampleMeeting).resp

/-- The references of the example run hold, and nothing else was written. -/
theorem exampleWorker_reported : ∃ after,
    ReferencesHold (lit "eu-west-1") exampleConfig exampleWorker (exampleRun exampleResponse) after ∧
      OnlyStreams Eq (lit "eu-west-1") exampleConfig exampleWorker (exampleRun exampleResponse) (fun _ => none) after := by
  let stored : Objects :=
    Function.update (fun _ => none) (addressIn (lit "eu-west-1") (lit "logs") exampleKey) (some (lit "abc"))
  have hran : Ran decimalStrtod exampleDigests exampleDisk Eq
      ⟨lit "PUT", lit "eu-west-1", lit "logs", exampleKey, [], lit "abc", [], lit "text/plain"⟩ exampleCached
      exampleMeeting (fun _ => none) [exampleExchange []] stored :=
    exampleMeeting_ran (.inl rfl) rfl ⟨by decide, by decide, by decide, by decide, by decide, by decide⟩
      fun r hmethod haddress hcontent wire hread => .store r _ _ hread hmethod haddress hcontent
  obtain ⟨payload, hcalls⟩ := exampleRun_calls exampleResponse
  have huploaded : Uploaded exampleConfig.strtod exampleDigests exampleDisk Eq (lit "eu-west-1")
      (workerCalls exampleConfig exampleWorker (exampleRun exampleResponse)) (fun _ => none) stored := by
    rw [hcalls]
    exact .put rfl hran (.reply .done)
  exact ⟨stored, reported_outputs_stored (by rintro o o' rfl id name; rfl) huploaded⟩

end HaikuAgent.Analysis.ReportedOutputs
