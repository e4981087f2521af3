import HaikuAgent.Analysis.HttpDamage
import HaikuAgent.Analysis.JsonRoundTrip
import HaikuAgent.Analysis.SignedRequests
import HaikuAgent.Interface.ObjectService
import HaikuAgent.Model.HttpSend

/-!
# Objects that are put and got

The transfers of `s3.cpp` against a service that keeps objects, over connections that break at any
byte of the request or of the response, on which other clients act too. `Exchanged` is one request.

A transfer that reports success has done what it is for: what was uploaded is stored whole, and what
is in the file that was downloaded to is the object (`downloaded_as_uploaded`). One that does not has
done nothing but, perhaps, the same.
-/

set_option autoImplicit false

namespace HaikuAgent.Analysis.StoredObjects

open HaikuAgent.Foundation
open HaikuAgent.Model
open HaikuAgent.Model.Json (findEntry setEntry Double)
open HaikuAgent.Model.WebSocket (crlf headEnd)
open HaikuAgent.Model.Http hiding perform
open HaikuAgent.Model.Http.Exchange
open HaikuAgent.Model.HttpSend hiding perform
open HaikuAgent.Model.S3 (Outgoing Transfer outgoing)
open HaikuAgent.Interface
open HaikuAgent.Interface.HttpMessage (Message)
open HaikuAgent.Interface.HttpRequest (Solid)
open HaikuAgent.Interface.ObjectService
open HaikuAgent.Analysis.HttpReading
open HaikuAgent.Analysis.HttpBodies
open HaikuAgent.Analysis.HttpDecoding
open HaikuAgent.Analysis.HttpDamage
open HaikuAgent.Analysis.JsonRoundTrip (decimalStrtod)
open HaikuAgent.Analysis.SignedRequests

/-! ## What is on the wire -/

/-- The files that requests are streamed from stay as they are; what is read of one is a part of
it, and all of it where no error is found. -/
def Steady (disk : Bytes → Option Bytes) (s : Sending) : Prop :=
  ∀ path size content readError, s.stat path = .ok size → s.fopen path = .ok (content, readError) →
    ∃ c, disk path = some c ∧ size = c.length ∧ content <+: c

/-- The body of a request. -/
def bodyOf (disk : Bytes → Option Bytes) (out : Outgoing) : Option Bytes :=
  if out.bodyPath = [] then some out.request.body else disk out.bodyPath

/-- A write puts a beginning of its bytes on the wire. -/
theorem write_wire (s : Sending) (sent : Sent) (bytes : Bytes) : (s.write sent bytes).wire <+: sent.wire ++ bytes := by
  unfold Sending.write
  cases s.writeError sent.writes with
  | none => exact List.prefix_rfl
  | some failure => exact (List.prefix_append_right_inj _).mpr (List.take_prefix _ _)

/-- A write without an error puts everything on the wire. -/
theorem write_whole {s : Sending} {sent : Sent} {bytes : Bytes} (h : (s.write sent bytes).error.isSome = false) :
    (s.write sent bytes).wire = sent.wire ++ bytes := by
  unfold Sending.write at h ⊢
  cases hfails : s.writeError sent.writes with
  | none => rfl
  | some failure =>
    rw [hfails] at h
    cases h

/-- Streaming a file puts a beginning of its content on the wire. -/
theorem streamFile_wire (s : Sending) (rounds : ℕ) (sent : Sent) (content : Bytes) :
    (streamFile s rounds sent content).wire <+: sent.wire ++ content := by
  induction rounds generalizing sent content with
  | zero => exact List.prefix_append _ _
  | succ rounds ih =>
    unfold streamFile
    dsimp only
    have hpiece : sent.wire ++ content.take kChunk ++ content.drop kChunk = sent.wire ++ content := by
      rw [List.append_assoc, List.take_append_drop]
    split_ifs with hempty hfailed
    · exact List.prefix_append _ _
    · exact (write_wire s sent _).trans (hpiece ▸ List.prefix_append _ _)
    · rw [Bool.not_eq_true] at hfailed
      have hrest := ih (s.write sent (content.take kChunk)) (content.drop kChunk)
      rw [write_whole hfailed, hpiece] at hrest
      exact hrest

/-- What is on the wire is a part of the whole request. -/
theorem sendRequest_wire {disk : Bytes → Option Bytes} {s : Sending} (h : Steady disk s) (out : Outgoing) :
    (sendRequest s out).wire = [] ∨
      ∃ body, bodyOf disk out = some body ∧
        (sendRequest s out).wire <+: Signing.requestText { out.request with body := body } := by
  unfold sendRequest bodyOf
  cases s.connectError with
  | some err => exact .inl rfl
  | none =>
    dsimp only
    split_ifs with hpath
    · exact .inr ⟨_, rfl, write_wire s Sent.init _⟩
    · cases hstat : s.stat out.bodyPath with
      | error err => exact .inl rfl
      | ok size =>
        cases hopen : s.fopen out.bodyPath with
        | error err => exact .inl rfl
        | ok opened =>
          obtain ⟨content, readError⟩ := opened
          obtain ⟨body, hbody, rfl, hcontent⟩ := h _ _ _ _ hstat hopen
          refine .inr ⟨body, hbody, ?_⟩
          have hwire : (if (s.write Sent.init (Signing.wireHead out.request body.length)).error.isSome then
              s.write Sent.init (Signing.wireHead out.request body.length)
              else streamFile s content.length
                (s.write Sent.init (Signing.wireHead out.request body.length)) content).wire <+:
              Signing.wireHead out.request body.length ++ body := by
            split_ifs with hfailed
            · exact (write_wire s Sent.init _).trans (List.prefix_append _ _)
            · rw [Bool.not_eq_true] at hfailed
              have hstreamed := streamFile_wire s content.length
                (s.write Sent.init (Signing.wireHead out.request body.length)) content
              rw [write_whole hfailed] at hstreamed
              exact hstreamed.trans ((List.prefix_append_right_inj _).mpr hcontent)
          dsimp only
          generalize (if (s.write Sent.init (Signing.wireHead out.request body.length)).error.isSome then
              s.write Sent.init (Signing.wireHead out.request body.length)
              else streamFile s content.length (s.write Sent.init (Signing.wireHead out.request body.length)) content) = sent
            at hwire ⊢
          split
          · exact hwire
          · exact hwire

/-! ## What the service reads -/

/-- The address of an object. -/
def addressIn (region bucket key : Bytes) : Address := (Signing.bucketHost bucket region, 47 :: key)

/-- An object's address tells its bucket and its key. -/
theorem addressIn_injective {region bucket key bucket' key' : Bytes}
    (h : addressIn region bucket key = addressIn region bucket' key') : bucket = bucket' ∧ key = key' := by
  unfold addressIn Signing.bucketHost at h
  obtain ⟨hhost, hname⟩ := Prod.mk.inj h
  simp only [List.append_assoc] at hhost
  exact ⟨List.append_cancel_right hhost, (List.cons.inj hname).2⟩

section Read

variable (digests : Signing.Digests) {method region bucket contentType : Bytes} {creds : Signing.Credentials}
  (key : Bytes) (now : ℤ) (hmethod : Solid method) (hregion : Solid region) (hbucket : Solid bucket)
  (hcontentType : Solid contentType) (haccess : Solid creds.accessKey) (htoken : Solid creds.token)

include hmethod hregion hbucket hcontentType haccess htoken

/-- The service reads of a request what it was made for. -/
theorem read_buildRequest (body : Bytes) : ∃ r,
    HttpRequest.read (Signing.requestText
      (Signing.buildRequest digests method region creds bucket key now contentType body)) = some r ∧
      r.method = method ∧ addressOf r = some (addressIn region bucket key) ∧ HttpRequest.content r = some body := by
  let req := Signing.buildRequest digests method region creds bucket key now contentType body
  have hcarries := build_carries digests method region creds bucket key now contentType body hmethod hregion hbucket
    hcontentType haccess htoken
  have hhost : HttpRequest.valuesOf (written req).fields (lit "host") = [Signing.bucketHost bucket region] := by
    have hmem : (lit "Host", Signing.bucketHost bucket region) ∈ (written req).fields := List.mem_cons_self
    have hname : HttpRequest.lowerName (lit "Host") = lit "host" := by decide
    have hvalues := HttpRequest.valuesOf_of_mem _ hcarries.signedAs.distinct _ hmem
    rw [hname] at hvalues
    exact hvalues
  refine ⟨written req, ?_, rfl, ?_, hcarries.signedAs.content⟩
  · rw [requestText_eq _ hcarries.unmeasured]
    exact HttpRequest.read_render _ hcarries.signedAs.plain
  · unfold addressOf
    rw [hhost]
    exact congrArg (fun name => some (Signing.bucketHost bucket region, name)) (decode_objectPath key)

end Read

/-! ## What is received -/

/-- What is taken of a stream is taken of one that goes on behind it, if it has an end of its own. -/
theorem taken_more {headers : List (Bytes × Bytes)} {s s' used data : Bytes} (h : Taken headers s used data)
    (hmore : s <+: s') : Taken headers s' used data ∨
      isChunked headers = false ∧ findEntry headers (lit "content-length") = none := by
  cases h with
  | chunked hchunked r hr => exact .inl (.chunked hchunked r (hr.trans hmore))
  | sized hplain length hlength hsize =>
    obtain ⟨more, rfl⟩ := hmore
    have htaken : Taken headers (s ++ more) _ _ := .sized hplain length hlength (hsize.trans (by simp))
    rw [List.take_append_of_le_length hsize] at htaken
    exact .inl htaken
  | toEnd hplain hnone => exact .inr ⟨hplain, hnone⟩

/-- What a response without an error leaves: its status, and its body where it belongs. -/
structure Received (m : Message) (path : Bytes) (x : Exchange) : Prop where
  status : x.resp.status = m.status
  stored : stored x = m.payload.body
  file : path ≠ [] → Succeeds m → x.sink.file = some m.payload.body

/-- The sink of a download is the file at its path, emptied. -/
theorem openSink_file {files : Files} {path : Bytes} {x : Exchange} {sink : BodySink}
    (h : x.openSink files path = { x with sink := sink }) (hopen : sink.failed = false) (hpath : path ≠ []) :
    sink.file = some [] := by
  have hsink : (x.openSink files path).sink = sink := by rw [h]
  unfold openSink at hsink
  rw [if_neg hpath] at hsink
  cases hfails : files.openError with
  | some err =>
    rw [hfails] at hsink
    subst hsink
    cases hopen
  | none =>
    rw [hfails] at hsink
    subst hsink
    rfl

/-- The status that `perform` leaves, and whether there is a file. -/
theorem perform_head {t : Transport} {path : Bytes} {files : Files} (h : (Http.perform path files none t).resp.error = []) :
    ∃ stop status headers, find t.incoming headEnd 0 = some stop ∧
      parseHead (t.incoming.take stop) = .ok (status, headers) ∧ (Http.perform path files none t).resp.status = status ∧
      (path ≠ [] → 200 ≤ status ∧ status < 300 → (Http.perform path files none t).sink.file.isSome = true) := by
  obtain ⟨y, stop, status, headers, hread, hstop, -, hparse, hprogress⟩ | ⟨y, hread, herror, -⟩ :=
    readHeaders_spec 4096 (start t) (fun call => min_le_left _ _) (Nat.zero_le _)
  · refine ⟨stop, status, headers, hstop, hparse, ?_⟩
    have hstatus : (withHead y status headers).resp.status = status := rfl
    rw [perform_eq path files t _ hread, hstatus] at h ⊢
    obtain ⟨sink, hsink, hopen, -⟩ | ⟨hfailed, herror⟩ := openSink_spec files
      (if 200 ≤ status ∧ status < 300 then path else []) (withHead y status headers)
    · rw [hsink] at h ⊢
      obtain ⟨z, hz, used, data, -, hdone⟩ | ⟨z, hz, herror, -⟩ :=
        readBody_spec files { withHead y status headers with sink := sink } hopen
      · rw [hz]
        refine ⟨hdone.status, ?_⟩
        intro hpath hsuccess
        rw [if_pos hsuccess] at hsink
        have hfile : z.sink.file.isSome = sink.file.isSome := hdone.file
        rw [hfile, openSink_file hsink hopen hpath]
        rfl
      · rw [hz] at h
        exact absurd h herror
    · refine absurd ?_ herror
      unfold readBody at h
      rw [hfailed, if_pos rfl] at h
      exact h
  · unfold Http.perform at h
    rw [hread] at h
    exact absurd h herror

/-- The header block of a response, where its end has come in. -/
theorem head_of_part {m : Message} {incoming : Bytes} (h : incoming <+: m.encode) {stop : ℕ}
    (hstop : find incoming headEnd 0 = some stop) :
    incoming.take stop = crlf.intercalate m.lines ∧ incoming.drop (stop + 4) <+: m.payload.text := by
  obtain ⟨more, hmore⟩ := h
  have hencode : m.encode = crlf.intercalate m.lines ++ (headEnd ++ m.payload.text) := by
    rw [Message.encode, MessageHead.headerBlock_eq, List.append_assoc]
  have hfind : find m.encode headEnd 0 = some (crlf.intercalate m.lines).length := by
    rw [hencode]
    exact find_headEnd m.statusLine (m.fields.map HttpMessage.Field.text) (MessageHead.lines_ok m) m.payload.text
  have hlength : stop = (crlf.intercalate m.lines).length := by
    have hwhole := find_append incoming headEnd more 0 stop hstop
    rw [hmore, hfind] at hwhole
    exact (Option.some.inj hwhole).symm
  have hfits : stop + 4 ≤ incoming.length := by
    obtain ⟨-, -, hpat, -⟩ := (find_eq_some _ _ _ _).mp hstop
    have hle := hpat.length_le
    rw [List.length_drop, show headEnd.length = 4 from rfl] at hle
    omega
  constructor
  · have htake : (incoming ++ more).take stop = incoming.take stop := List.take_append_of_le_length (by omega)
    rw [← htake, hmore, hencode, hlength, List.take_left]
  · refine ⟨more, ?_⟩
    rw [← List.drop_append_of_le_length hfits, hmore, hencode, ← List.append_assoc, hlength]
    exact List.drop_left' (by rw [List.length_append]; rfl)

/-- A response that was cut off anywhere is received whole, or there is an error. -/
theorem received_of_ok {m : Message} (hend : Delimited m) {t : Transport} (ht : t.incoming <+: m.encode) {path : Bytes}
    {files : Files} (h : (Http.perform path files none t).resp.error = []) :
    Received m path (Http.perform path files none t) := by
  obtain ⟨stop, status, headers, hstop, hparse, hstatus, hfile⟩ := perform_head h
  obtain ⟨stop', status', headers', used, hstop', -, hparse', -, htaken⟩ := taken_of_perform t path files h
  cases hstop.symm.trans hstop'
  cases hparse.symm.trans hparse'
  obtain ⟨hhead, hrest⟩ := head_of_part ht hstop
  rw [hhead, MessageHead.parseHead_lines] at hparse
  cases hparse
  have hfields (key : Bytes) : findEntry (m.fields.foldl (fun table f => setEntry table f.key f.value) []) key =
      m.field key := by
    rw [findEntry, lookup_fields m.fields m.distinct, List.lookup_nil, Option.or_none]
    rfl
  have hstored : stored (Http.perform path files none t) = m.payload.body := by
    obtain hmore | ⟨hplain, hnone⟩ := taken_more htaken hrest
    · obtain ⟨used', hpayload⟩ := taken_payload m _ hfields
      exact hmore.unique hpayload
    · obtain ⟨body, hbody⟩ := toEnd_of_unframed m _ hfields hplain hnone
      exact absurd hbody (hend body)
  refine ⟨hstatus, hstored, ?_⟩
  intro hpath hsuccess
  have hsome := hfile hpath (by exact_mod_cast hsuccess)
  obtain ⟨bytes, hbytes⟩ := Option.isSome_iff_exists.mp hsome
  unfold HttpReading.stored at hstored
  rw [hbytes, Option.getD_some] at hstored
  rw [hbytes, hstored]

/-! ## One request -/

/-- A request and what is left of its response, between two states of the objects. The connection may
break anywhere. -/
def Exchanged (disk : Bytes → Option Bytes) (objects : Objects) (out : Outgoing) (x : Exchange) (objects' : Objects) :
    Prop :=
  ∃ (s : Sending) (files : Files) (m : Message) (t : Transport), Steady disk s ∧
    Serves objects (sendRequest s out).wire m objects' ∧ Delimited m ∧ t.incoming <+: m.encode ∧
    x = HttpSend.perform s files t out

/-- A response that is in order is the service's. -/
theorem received_of_perform {s : Sending} {files : Files} {m : Message} {t : Transport} {out : Outgoing}
    (hend : Delimited m) (ht : t.incoming <+: m.encode)
    (hok : (HttpSend.perform s files t out).resp.ok = true) :
    Succeeds m ∧ Received m out.sinkPath (HttpSend.perform s files t out) := by
  unfold HttpSend.perform at hok ⊢
  cases hsent : (sendRequest s out).error with
  | some err =>
    rw [hsent] at hok
    unfold Http.Response.ok at hok
    simp [Http.perform, Exchange.fail, start, FullResponse.init, Response.init] at hok
  | none =>
    rw [hsent] at hok
    unfold Http.Response.ok at hok
    simp only [Bool.and_eq_true, List.isEmpty_iff, decide_eq_true_eq] at hok
    have hreceived := received_of_ok hend ht hok.1.1
    refine ⟨?_, hreceived⟩
    rw [hreceived.status] at hok
    exact ⟨by exact_mod_cast hok.1.2, by exact_mod_cast hok.2⟩

section Transfers

variable (digests : Signing.Digests) (disk : Bytes → Option Bytes) (t : Transfer)

/-- What is uploaded. -/
def payload : Option Bytes := if t.bodyPath = [] then some t.content else disk t.bodyPath

def Transfer.address (t : Transfer) : Address := addressIn t.region t.bucket t.key

/-- No whitespace in what is put into the head of the request. -/
structure Clean (creds : CredentialProvider.Credentials) : Prop where
  method : Solid t.method
  region : Solid t.region
  bucket : Solid t.bucket
  contentType : Solid t.contentType
  accessKey : Solid creds.accessKey
  token : Solid creds.token

/-- The body of a request is the payload of its transfer. -/
theorem bodyOf_outgoing (creds : CredentialProvider.Credentials) (now : ℤ) :
    bodyOf disk (outgoing digests t creds now) = payload disk t := by
  unfold bodyOf payload outgoing Signing.buildRequest
  dsimp only
  split_ifs <;> rfl

variable {digests disk t} {creds : CredentialProvider.Credentials} {now : ℤ} {objects objects' : Objects} {x : Exchange}

/-- What the service makes of a transfer's request. -/
theorem served_of_exchanged (hclean : Clean t creds)
    (h : Exchanged disk objects (outgoing digests t creds now) x objects') :
    ∃ m, (x.resp.ok = true → Succeeds m ∧ Received m t.sinkPath x) ∧
      (objects' = objects ∧ ¬Succeeds m ∨
        ∃ r body, Served objects r m objects' ∧ r.method = t.method ∧ addressOf r = some (Transfer.address t) ∧
          HttpRequest.content r = some body ∧ payload disk t = some body) := by
  obtain ⟨s, files, m, tr, hsteady, hserves, hend, htr, rfl⟩ := h
  refine ⟨m, received_of_perform hend htr, ?_⟩
  obtain hnothing | ⟨body, hbody, hwire⟩ := sendRequest_wire hsteady (outgoing digests t creds now)
  · rw [hnothing] at hserves
    cases hserves with
    | store r address body hread => cases hread
    | fetch r address hread => cases hread
    | refuse hrefused => exact .inl ⟨rfl, hrefused⟩
  · rw [bodyOf_outgoing] at hbody
    have hread := read_buildRequest digests t.key now hclean.method hclean.region hclean.bucket hclean.contentType
      hclean.accessKey hclean.token body
    obtain ⟨r, hread, hmethod, haddress, hcontent⟩ := hread
    exact .inr ⟨r, body, hserves.served hwire hread, hmethod, haddress, hcontent, hbody⟩

/-- An upload stores its payload under its own address, or nothing; it is stored if the response says
so. -/
theorem exchanged_put (hput : t.method = lit "PUT") (hclean : Clean t creds)
    (h : Exchanged disk objects (outgoing digests t creds now) x objects') :
    (objects' = objects ∧ x.resp.ok = false) ∨
      ∃ body, payload disk t = some body ∧ objects' = Function.update objects (Transfer.address t) (some body) := by
  obtain ⟨m, hok, ⟨hsame, hrefused⟩ | ⟨r, body, hserved, hmethod, haddress, hcontent, hbody⟩⟩ := served_of_exchanged hclean h
  · exact .inl ⟨hsame, Bool.eq_false_iff.mpr fun h => hrefused (hok h).1⟩
  · cases hserved with
    | stored address body' _ haddress' hcontent' =>
      cases haddress.symm.trans haddress'
      cases hcontent.symm.trans hcontent'
      exact .inr ⟨body, hbody, rfl⟩
    | fetched address hget =>
      rw [hmethod, hput] at hget
      exact absurd hget (by decide)
    | refused hrefused => exact .inl ⟨rfl, Bool.eq_false_iff.mpr fun h => hrefused (hok h).1⟩

/-- A download changes nothing; what it has got is the object, if the response says so. -/
theorem exchanged_get (hget : t.method = lit "GET") (hclean : Clean t creds)
    (h : Exchanged disk objects (outgoing digests t creds now) x objects') :
    objects' = objects ∧ (x.resp.ok = true → t.sinkPath ≠ [] →
      ∃ body, objects (Transfer.address t) = some body ∧ x.sink.file = some body) := by
  obtain ⟨m, hok, ⟨hsame, hrefused⟩ | ⟨r, body, hserved, hmethod, haddress, -, -⟩⟩ := served_of_exchanged hclean h
  · exact ⟨hsame, fun h => absurd (hok h).1 hrefused⟩
  · cases hserved with
    | stored address body' hput =>
      rw [hmethod, hget] at hput
      exact absurd hput (by decide)
    | fetched address _ haddress' hfound =>
      cases haddress.symm.trans haddress'
      refine ⟨rfl, fun h hsink => ⟨_, hfound, ?_⟩⟩
      exact (hok h).2.file hsink (hok h).1
    | refused hrefused => exact ⟨rfl, fun h => absurd (hok h).1 hrefused⟩

/-! ## A transfer -/

/-- The exchanges of a transfer, one after the other, with what others do to the objects after each.
An attempt is given the response of its exchange. -/
inductive Transferred (disk : Bytes → Option Bytes) (others : Objects → Objects → Prop) :
    List (S3.Attempt × Outgoing) → Objects → List Exchange → Objects → Prop
  | done {objects : Objects} : Transferred disk others [] objects [] objects
  | exchange {objects between between' objects' : Objects} {a : S3.Attempt} {out : Outgoing}
      {rest : List (S3.Attempt × Outgoing)} {x : Exchange} {xs : List Exchange}
      (h : Exchanged disk objects out x between) (hresp : a.perform out = x.resp.toResponse)
      (hothers : others between between') (hrest : Transferred disk others rest between' xs objects') :
      Transferred disk others ((a, out) :: rest) objects (x :: xs) objects'

/-- The requests of a transfer, each with its attempt. -/
def attempted (strtod : Bytes → Double × ℕ) (digests : Signing.Digests) (t : Transfer)
    (cached : CredentialProvider.Credentials) (meeting : S3.Meeting) : List (S3.Attempt × Outgoing) :=
  [meeting.first, meeting.second].zip (S3.transfer strtod digests t cached meeting).sent

/-- A transfer that was run with credentials that can be put into a request. -/
structure Ran (strtod : Bytes → Double × ℕ) (digests : Signing.Digests) (disk : Bytes → Option Bytes)
    (others : Objects → Objects → Prop) (t : Transfer) (cached : CredentialProvider.Credentials) (meeting : S3.Meeting)
    (objects : Objects) (xs : List Exchange) (objects' : Objects) : Prop where
  clean : ∀ pair ∈ attempted strtod digests t cached meeting, ∃ creds now,
    pair.2 = outgoing digests t creds now ∧ Clean t creds
  exchanges : Transferred disk others (attempted strtod digests t cached meeting) objects xs objects'

variable {others : Objects → Objects → Prop} {pairs : List (S3.Attempt × Outgoing)} {xs : List Exchange}

/-- The last of the requests, and the objects it finds: at an address that the requests before it and
the others leave alone, they are as they were. -/
theorem Transferred.last (h : Transferred disk others pairs objects xs objects') {a : S3.Attempt} {out : Outgoing}
    (hlast : pairs.getLast? = some (a, out)) :
    ∃ before x after, xs.getLast? = some x ∧ Exchanged disk before out x after ∧ a.perform out = x.resp.toResponse ∧
      others after objects' ∧ ∀ address, (∀ o o', others o o' → o' address = o address) →
        (∀ pair ∈ pairs, ∀ o y o', Exchanged disk o pair.2 y o' → o' address = o address) →
          before address = objects address := by
  induction h with
  | done => cases hlast
  | exchange h hresp hothers hrest ih =>
    cases hrest with
    | done =>
      cases hlast
      exact ⟨_, _, _, rfl, h, hresp, hothers, fun _ _ _ => rfl⟩
    | exchange h' hresp' hothers' hrest' =>
      rw [List.getLast?_cons_cons] at hlast
      obtain ⟨before, x, after, hx, hexchanged, hperform, hafter, hbefore⟩ := ih hlast
      refine ⟨before, x, after, List.getLast?_cons_cons.trans hx, hexchanged, hperform, hafter, ?_⟩
      intro address hkeeps hpairs
      rw [hbefore address hkeeps fun pair hpair => hpairs pair (List.mem_cons_of_mem _ hpair), hkeeps _ _ hothers,
        hpairs _ List.mem_cons_self _ _ _ h]

/-- Other addresses are left alone. -/
theorem Transferred.frame (h : Transferred disk others pairs objects xs objects') {address : Address}
    (hkeeps : ∀ o o', others o o' → o' address = o address)
    (hpairs : ∀ pair ∈ pairs, ∀ o y o', Exchanged disk o pair.2 y o' → o' address = o address) :
    objects' address = objects address := by
  induction h with
  | done => rfl
  | exchange h hresp hothers hrest ih =>
    rw [ih fun pair hpair => hpairs pair (List.mem_cons_of_mem _ hpair), hkeeps _ _ hothers,
      hpairs _ List.mem_cons_self _ _ _ h]

/-- What the requests leave at an address is what was there, or the one value that they store. -/
theorem Transferred.stored (h : Transferred disk others pairs objects xs objects') {address : Address} {value : Option Bytes}
    (hkeeps : ∀ o o', others o o' → o' address = o address)
    (hpairs : ∀ pair ∈ pairs, ∀ o y o', Exchanged disk o pair.2 y o' → o' address = o address ∨ o' address = value) :
    objects' address = objects address ∨ objects' address = value := by
  induction h with
  | done => exact .inl rfl
  | exchange h hresp hothers hrest ih =>
    have hrest := ih fun pair hpair => hpairs pair (List.mem_cons_of_mem _ hpair)
    rw [hkeeps _ _ hothers] at hrest
    obtain hsame | hstored := hpairs _ List.mem_cons_self _ _ _ h
    · rw [hsame] at hrest
      exact hrest
    · rw [hstored, or_self] at hrest
      exact .inr hrest

variable {strtod : Bytes → Double × ℕ} {cached : CredentialProvider.Credentials} {meeting : S3.Meeting}

/-- What a transfer returns is what its last attempt was given, unless there were no credentials. -/
theorem resp_of_ok (hok : (S3.transfer strtod digests t cached meeting).resp.ok = true) :
    ∃ a out, (attempted strtod digests t cached meeting).getLast? = some (a, out) ∧
      (S3.transfer strtod digests t cached meeting).resp = a.perform out := by
  have honce (cached : CredentialProvider.Credentials) (a : S3.Attempt) :
      (S3.transferOnce strtod digests t cached a).resp = S3.offline ∧
        (S3.transferOnce strtod digests t cached a).sent = [] ∨
      ∃ out, (S3.transferOnce strtod digests t cached a).resp = a.perform out ∧
        (S3.transferOnce strtod digests t cached a).sent = [out] := by
    unfold S3.transferOnce
    dsimp only
    split_ifs
    · exact .inl ⟨rfl, rfl⟩
    · exact .inr ⟨_, rfl, rfl⟩
  have hoffline : Http.Response.ok S3.offline = false := by decide
  unfold attempted
  unfold S3.transfer at hok ⊢
  dsimp only at hok ⊢
  obtain ⟨hresp, hsent⟩ | ⟨out, hresp, hsent⟩ := honce cached meeting.first
  · have hfinal : S3.expiredToken S3.offline = false := by decide
    rw [hresp, hfinal, if_neg Bool.false_ne_true, hresp, hoffline] at hok
    cases hok
  · split_ifs at hok ⊢ with hexpired
    · obtain ⟨hresp', hsent'⟩ | ⟨out', hresp', hsent'⟩ := honce (runFrom (CredentialProvider.next strtod)
        (S3.transferOnce strtod digests t cached meeting.first).cached
        (meeting.during ++ CredentialProvider.Event.invalidate :: meeting.between)) meeting.second
      · rw [hresp', hoffline] at hok
        cases hok
      · rw [hsent, hsent', hresp']
        exact ⟨_, _, rfl, rfl⟩
    · rw [hsent, hresp]
      exact ⟨_, _, rfl, rfl⟩

/-- Whatever it returns, a transfer leaves the other objects alone, and a download its own too. -/
theorem Ran.frame (hmethod : t.method = lit "PUT" ∨ t.method = lit "GET")
    (h : Ran strtod digests disk others t cached meeting objects xs objects') {address : Address}
    (hkeeps : ∀ o o', others o o' → o' address = o address)
    (hother : t.method = lit "PUT" → address ≠ Transfer.address t) : objects' address = objects address := by
  refine h.exchanges.frame hkeeps ?_
  intro pair hpair o y o' hexchanged
  obtain ⟨creds, now, hout, hclean⟩ := h.clean pair hpair
  rw [hout] at hexchanged
  obtain hput | hget := hmethod
  · obtain ⟨hsame, -⟩ | ⟨body, -, hupdate⟩ := exchanged_put hput hclean hexchanged
    · rw [hsame]
    · rw [hupdate, Function.update_of_ne (hother hput)]
  · rw [(exchanged_get hget hclean hexchanged).1]

/-- An upload that reports success has stored its payload. -/
theorem Ran.put (hput : t.method = lit "PUT") (h : Ran strtod digests disk others t cached meeting objects xs objects')
    (hkeeps : ∀ o o', others o o' → o' (Transfer.address t) = o (Transfer.address t))
    (hok : (S3.transfer strtod digests t cached meeting).resp.ok = true) :
    ∃ body, payload disk t = some body ∧ objects' (Transfer.address t) = some body := by
  obtain ⟨a, out, hlast, hresp⟩ := resp_of_ok hok
  obtain ⟨before, x, after, -, hexchanged, hperform, hothers, -⟩ := h.exchanges.last hlast
  obtain ⟨creds, now, hout, hclean⟩ := h.clean _ (List.mem_of_getLast? hlast)
  dsimp only at hout
  rw [hresp, hperform] at hok
  rw [hout] at hexchanged
  obtain ⟨-, hfailed⟩ | ⟨body, hbody, hupdate⟩ := exchanged_put hput hclean hexchanged
  · rw [hfailed] at hok
    cases hok
  · refine ⟨body, hbody, ?_⟩
    rw [hkeeps _ _ hothers, hupdate, Function.update_self]

/-- One that does not has stored it, or nothing. -/
theorem Ran.put_only (hput : t.method = lit "PUT")
    (h : Ran strtod digests disk others t cached meeting objects xs objects')
    (hkeeps : ∀ o o', others o o' → o' (Transfer.address t) = o (Transfer.address t)) :
    objects' (Transfer.address t) = objects (Transfer.address t) ∨ objects' (Transfer.address t) = payload disk t := by
  refine h.exchanges.stored hkeeps ?_
  intro pair hpair o y o' hexchanged
  obtain ⟨creds, now, hout, hclean⟩ := h.clean pair hpair
  rw [hout] at hexchanged
  obtain ⟨hsame, -⟩ | ⟨body, hbody, hupdate⟩ := exchanged_put hput hclean hexchanged
  · exact .inl (by rw [hsame])
  · exact .inr (by rw [hupdate, Function.update_self, hbody])

/-- What a download that reports success has in its file was the object all along. -/
theorem Ran.get (hget : t.method = lit "GET") (hsink : t.sinkPath ≠ [])
    (h : Ran strtod digests disk others t cached meeting objects xs objects')
    (hkeeps : ∀ o o', others o o' → o' (Transfer.address t) = o (Transfer.address t))
    (hok : (S3.transfer strtod digests t cached meeting).resp.ok = true) :
    ∃ body x, objects (Transfer.address t) = some body ∧ xs.getLast? = some x ∧ x.sink.file = some body := by
  obtain ⟨a, out, hlast, hresp⟩ := resp_of_ok hok
  obtain ⟨before, x, after, hx, hexchanged, hperform, -, hbefore⟩ := h.exchanges.last hlast
  have hfound := hbefore (Transfer.address t) hkeeps (by
    intro pair hpair o y o' hexchanged
    obtain ⟨creds, now, hout, hclean⟩ := h.clean pair hpair
    rw [hout] at hexchanged
    rw [(exchanged_get hget hclean hexchanged).1])
  obtain ⟨creds, now, hout, hclean⟩ := h.clean _ (List.mem_of_getLast? hlast)
  dsimp only at hout
  rw [hresp, hperform] at hok
  rw [hout] at hexchanged
  obtain ⟨body, hobject, hfile⟩ := (exchanged_get hget hclean hexchanged).2 hok hsink
  exact ⟨body, x, hfound.symm.trans hobject, hx, hfile⟩

end Transfers

/-- **What is downloaded is what was uploaded.** After an upload that reports success, a download of the
same object that reports success leaves in its file what was uploaded, whatever broke or was sent twice
on the way, as long as nobody else writes to the object. Neither changes another object, nor the
download its own, also where it fails.
SRC: s3.cpp:28-47, 62-137; http.cpp:316-590 -/
theorem downloaded_as_uploaded (strtod : Bytes → Double × ℕ) (digests : Signing.Digests) (disk : Bytes → Option Bytes)
    (others : Objects → Objects → Prop) (region bucket key srcPath content contentType destPath : Bytes)
    (hdest : destPath ≠ [])
    (hkeeps : ∀ o o', others o o' → o' (addressIn region bucket key) = o (addressIn region bucket key))
    (cached cached' : CredentialProvider.Credentials) (meeting meeting' : S3.Meeting) (xs xs' : List Exchange)
    (before stored after : Objects)
    (hput : Ran strtod digests disk others ⟨lit "PUT", region, bucket, key, srcPath, content, [], contentType⟩ cached
      meeting before xs stored)
    (hget : Ran strtod digests disk others ⟨lit "GET", region, bucket, key, [], [], destPath, []⟩ cached' meeting'
      stored xs' after) :
    ((S3.put strtod digests region bucket key srcPath content contentType cached meeting).resp.ok = true →
      (S3.get strtod digests region bucket key destPath cached' meeting').resp.ok = true →
        ∃ body x, (if srcPath = [] then some content else disk srcPath) = some body ∧ xs'.getLast? = some x ∧
          x.sink.file = some body) ∧
    ∀ address, (∀ o o', others o o' → o' address = o address) →
      (address ≠ addressIn region bucket key → stored address = before address) ∧ after address = stored address := by
  constructor
  · intro hputOk hgetOk
    obtain ⟨body, hbody, hstored⟩ := hput.put rfl hkeeps hputOk
    obtain ⟨body', x, hfound, hlast, hfile⟩ := hget.get rfl hdest hkeeps hgetOk
    cases hstored.symm.trans hfound
    exact ⟨body, x, hbody, hlast, hfile⟩
  · intro address haddress
    have hmethod : lit "GET" ≠ lit "PUT" := by decide
    exact ⟨fun hother => hput.frame (.inl rfl) haddress fun _ => hother,
      hget.frame (.inr rfl) haddress fun hno => absurd hno hmethod⟩

/-! ## An object that is put and got -/

/-- Nothing fails while a request is sent. -/
def exampleSending : Sending := ⟨none, fun _ => .error [], fun _ => .error [], fun _ => none⟩

def exampleFiles : Files := ⟨none, fun _ => none, none⟩

/-- The exchange of a request that is answered with `abc`. -/
def exampleExchange (sinkPath : Bytes) : Exchange :=
  Http.perform sinkPath exampleFiles none ⟨exampleResponse.encode, fun n => n % 3, 0, .closed⟩

def exampleMeeting : S3.Meeting :=
  { first := ⟨fun _ => [], 0, 0, 0, fun out => (exampleExchange out.sinkPath).resp.toResponse⟩
    during := []
    between := []
    second := ⟨fun _ => [], 0, 0, 0, fun _ => S3.offline⟩ }

def exampleCached : CredentialProvider.Credentials := ⟨exampleCredentials, 0⟩

def exampleDisk : Bytes → Option Bytes := fun _ => none

/-- The example's answer is final and a success. -/
theorem exampleExchange_final (sinkPath : Bytes) (h : sinkPath = [] ∨ sinkPath = lit "/tmp/a") :
    S3.expiredToken (exampleExchange sinkPath).resp.toResponse = false ∧
      (exampleExchange sinkPath).resp.toResponse.ok = true := by
  obtain rfl | rfl := h
  · decide +kernel
  · decide +kernel

/-- The first attempt of such a transfer is its last. -/
theorem exampleMeeting_transfer (t : Transfer) (h : t.sinkPath = [] ∨ t.sinkPath = lit "/tmp/a") :
    (S3.transfer decimalStrtod exampleDigests t exampleCached exampleMeeting).sent =
        [outgoing exampleDigests t exampleCached 0] ∧
      (S3.transfer decimalStrtod exampleDigests t exampleCached exampleMeeting).resp.ok = true := by
  have honce : S3.transferOnce decimalStrtod exampleDigests t exampleCached exampleMeeting.first =
      ⟨(exampleExchange t.sinkPath).resp.toResponse, exampleCached, [outgoing exampleDigests t exampleCached 0]⟩ := rfl
  unfold S3.transfer
  dsimp only
  rw [honce]
  dsimp only
  rw [(exampleExchange_final t.sinkPath h).1, if_neg Bool.false_ne_true]
  exact ⟨rfl, (exampleExchange_final t.sinkPath h).2⟩

/-- It is run where the service takes the request, which has come in whole. -/
theorem exampleMeeting_ran {t : Transfer} (h : t.sinkPath = [] ∨ t.sinkPath = lit "/tmp/a") (hpath : t.bodyPath = [])
    (hclean : Clean t exampleCached) {objects objects' : Objects}
    (hserved : ∀ r, r.method = t.method → addressOf r = some (Transfer.address t) →
      HttpRequest.content r = some t.content → ∀ wire, HttpRequest.read wire = some r →
        Serves objects wire exampleResponse objects') :
    Ran decimalStrtod exampleDigests exampleDisk Eq t exampleCached exampleMeeting objects
      [exampleExchange t.sinkPath] objects' := by
  have hattempted : attempted decimalStrtod exampleDigests t exampleCached exampleMeeting =
      [(exampleMeeting.first, outgoing exampleDigests t exampleCached 0)] := by
    unfold attempted
    rw [(exampleMeeting_transfer t h).1]
    rfl
  have hread := read_buildRequest exampleDigests t.key 0 hclean.method hclean.region hclean.bucket hclean.contentType
    hclean.accessKey hclean.token t.content
  obtain ⟨r, hread, hmethod, haddress, hcontent⟩ := hread
  have hsent : sendRequest exampleSending (outgoing exampleDigests t exampleCached 0) =
      ⟨Signing.requestText (outgoing exampleDigests t exampleCached 0).request, 1, none⟩ := by
    unfold sendRequest
    rw [if_pos (show (outgoing exampleDigests t exampleCached 0).bodyPath = [] from hpath)]
    rfl
  have hbody : (outgoing exampleDigests t exampleCached 0).request = Signing.buildRequest exampleDigests t.method
      t.region exampleCredentials t.bucket t.key 0 t.contentType t.content := by
    unfold outgoing
    rw [if_pos hpath]
    rfl
  have hexchanged : Exchanged exampleDisk objects (outgoing exampleDigests t exampleCached 0)
      (exampleExchange t.sinkPath) objects' := by
    refine ⟨exampleSending, exampleFiles, exampleResponse, ⟨exampleResponse.encode, fun n => n % 3, 0, .closed⟩, ?_, ?_,
      ?_, List.prefix_rfl, ?_⟩
    · intro path size content readError hstat
      cases hstat
    · rw [hsent, hbody]
      exact hserved r hmethod haddress hcontent _ hread
    · intro body hend
      cases hend
    · unfold HttpSend.perform
      rw [hsent]
      rfl
  constructor
  · intro pair hpair
    rw [hattempted, List.mem_singleton] at hpair
    rw [hpair]
    exact ⟨exampleCached, 0, rfl, hclean⟩
  · rw [hattempted]
    exact .exchange hexchanged rfl rfl .done

/-- An upload and a download of it, over connections that give a few bytes at a time. -/
theorem exampleObject_downloaded :
    (S3.put decimalStrtod exampleDigests (lit "eu-west-1") (lit "logs") (lit "std out") [] (lit "abc") (lit "text/plain")
      exampleCached exampleMeeting).resp.ok = true ∧
    (S3.get decimalStrtod exampleDigests (lit "eu-west-1") (lit "logs") (lit "std out") (lit "/tmp/a") exampleCached
      exampleMeeting).resp.ok = true ∧
    (exampleExchange (lit "/tmp/a")).sink.file = some (lit "abc") := by
  let address := addressIn (lit "eu-west-1") (lit "logs") (lit "std out")
  let stored : Objects := Function.update (fun _ => none) address (some (lit "abc"))
  have hput : Ran decimalStrtod exampleDigests exampleDisk Eq
      ⟨lit "PUT", lit "eu-west-1", lit "logs", lit "std out", [], lit "abc", [], lit "text/plain"⟩ exampleCached
      exampleMeeting (fun _ => none) [exampleExchange []] stored :=
    exampleMeeting_ran (.inl rfl) rfl ⟨by decide, by decide, by decide, by decide, by decide, by decide⟩
      fun r hmethod haddress hcontent wire hread => .store r _ _ hread hmethod haddress hcontent
  have hget : Ran decimalStrtod exampleDigests exampleDisk Eq
      ⟨lit "GET", lit "eu-west-1", lit "logs", lit "std out", [], [], lit "/tmp/a", []⟩ exampleCached
      exampleMeeting stored [exampleExchange (lit "/tmp/a")] stored :=
    exampleMeeting_ran (.inr rfl) rfl ⟨by decide, by decide, by decide, by decide, by decide, by decide⟩
      fun r hmethod haddress hcontent wire hread => .fetch r address hread hmethod haddress (Function.update_self _ _ _)
  have h := downloaded_as_uploaded decimalStrtod exampleDigests exampleDisk Eq (lit "eu-west-1") (lit "logs")
    (lit "std out") [] (lit "abc") (lit "text/plain") (lit "/tmp/a") (by decide) (by rintro o o' rfl; rfl) exampleCached
    exampleCached exampleMeeting exampleMeeting [exampleExchange []] [exampleExchange (lit "/tmp/a")] (fun _ => none)
    stored stored hput hget
  have hputOk : (S3.put decimalStrtod exampleDigests (lit "eu-west-1") (lit "logs") (lit "std out") [] (lit "abc")
      (lit "text/plain") exampleCached exampleMeeting).resp.ok = true := by
    unfold S3.put
    exact (exampleMeeting_transfer _ (.inl rfl)).2
  have hgetOk : (S3.get decimalStrtod exampleDigests (lit "eu-west-1") (lit "logs") (lit "std out") (lit "/tmp/a")
      exampleCached exampleMeeting).resp.ok = true := by
    unfold S3.get
    exact (exampleMeeting_transfer _ (.inr rfl)).2
  obtain ⟨body, x, hbody, hlast, hfile⟩ := h.1 hputOk hgetOk
  rw [if_pos rfl, Option.some.injEq] at hbody
  rw [List.getLast?_singleton, Option.some.injEq] at hlast
  rw [← hbody, ← hlast] at hfile
  exact ⟨hputOk, hgetOk, hfile⟩

end HaikuAgent.Analysis.StoredObjects
