import HaikuAgent.Analysis.SignedRequests
import HaikuAgent.Analysis.StartRefusals

/-!
# The requests of a data channel

The id of a session comes out of two JSON texts and is put in a path as it is. The requests of
its data channel are well formed exactly for the ids that need no encoding; an id derived from
an e-mail address is none of them.
-/

set_option autoImplicit false

namespace HaikuAgent.Analysis.ChannelRequests

open HaikuAgent.Foundation
open HaikuAgent.Model
open HaikuAgent.Model.Json
open HaikuAgent.Model.Signing
open HaikuAgent.Model.ControlChannel
open HaikuAgent.Interface
open HaikuAgent.Interface.HttpRequest (Solid PlainField Plain lowerName render)
open HaikuAgent.Analysis.SignedRequests
open HaikuAgent.Analysis.JsonRoundTrip

/-- Credentials and a region that break no header. -/
structure Clean (creds : Credentials) (region : Bytes) : Prop where
  region : Solid region
  accessKey : Solid creds.accessKey
  token : Solid creds.token

/-- The upgrade request as the server is to read it. -/
def upgradeWritten (host path key : Bytes) (extraHeaders : List (Bytes × Bytes)) : HttpRequest.Request where
  method := lit "GET"
  target := path
  fields :=
    [(lit "Host", host), (lit "Upgrade", lit "websocket"), (lit "Connection", lit "Upgrade"),
      (lit "Sec-WebSocket-Key", key), (lit "Sec-WebSocket-Version", lit "13")] ++ extraHeaders
  body := []

/-- The upgrade request of `run_session` as the server is to read it. -/
def dataChannelWritten (digests : Digests) (creds : Credentials) (region sessionId key : Bytes) (now : ℤ) :
    HttpRequest.Request :=
  let host := mgsEndpoint region
  let path := dataChannelPath sessionId
  upgradeWritten host (path ++ lit "?" ++ dataChannelQuery) key
    (wsUpgradeHeaders digests creds region host path dataChannelQuery now)

/-- The path is encoded, stands for the id, and is the URI that a server recomputes; each of the
two requests is read back with its one request line and its headers. -/
structure WellFormed (sessionId : Bytes) : Prop where
  encoded : PercentEncoding.IsEncoded PercentEncoding.isPathByte (dataChannelPath sessionId)
  decoded : PercentEncoding.decode (dataChannelPath sessionId) = lit "/v1/data-channel/" ++ sessionId
  canonical : SigV4.canonicalUri (dataChannelPath sessionId) = dataChannelPath sessionId
  created : ∀ digests creds region payload now, Clean creds region →
    HttpRequest.read (requestText (createChannel digests creds region (lit "data-channel") sessionId payload now)) =
      some (written (createChannel digests creds region (lit "data-channel") sessionId payload now))
  upgraded : ∀ digests creds region keyRaw now, Clean creds region →
    HttpRequest.read (dataChannelUpgrade digests creds region sessionId (base64Encode keyRaw) now) =
      some (dataChannelWritten digests creds region sessionId (base64Encode keyRaw) now)

/-- The requests for a session that `parse_start_request` accepts are well formed. -/
def RequestsWellFormed (strtod : Bytes → Double × ℕ) (payload : Bytes) : Prop :=
  ∀ sr kmsKeyId, parseStartRequest strtod payload = .ok (sr, kmsKeyId) → WellFormed sr.sessionId

/-- The id needs no encoding. -/
def Unreserved (sessionId : Bytes) : Prop := ∀ b ∈ sessionId, PercentEncoding.isPathByte b = true

/-! ## The key of the handshake -/

/-- No digit of base64 comes before the plus sign. -/
theorem ge_base64Digit (v shift : UInt32) : 43 ≤ base64Digit v shift := by
  have hall : alphabet.all (fun b => 43 ≤ b) = true := by decide
  have hlength : alphabet.length = 64 := by decide
  have hindex : ((v >>> shift) &&& 63).toNat < alphabet.length := by
    rw [UInt32.toNat_and, hlength]
    exact Nat.and_lt_two_pow _ (show (63 : UInt32).toNat < 2 ^ 6 by decide)
  unfold base64Digit
  rw [List.getD_eq_getElem?_getD, List.getElem?_eq_getElem hindex, Option.getD_some]
  exact of_decide_eq_true (List.all_eq_true.mp hall _ (List.getElem_mem hindex))

/-- So does no byte of an encoded text. -/
theorem ge_base64Encode (raw : Bytes) : ∀ b ∈ base64Encode raw, 43 ≤ b := by
  induction raw using base64Encode.induct with
  | case1 a b c rest ih =>
    intro d hd
    rw [base64Encode] at hd
    simp only [List.mem_cons] at hd
    rcases hd with rfl | rfl | rfl | rfl | hd
    · exact ge_base64Digit _ _
    · exact ge_base64Digit _ _
    · exact ge_base64Digit _ _
    · exact ge_base64Digit _ _
    · exact ih d hd
  | case2 a =>
    intro d hd
    rw [base64Encode] at hd
    rcases List.mem_append.mp hd with hd | hd
    · simp only [List.mem_cons, List.not_mem_nil, or_false] at hd
      rcases hd with rfl | rfl
      · exact ge_base64Digit _ _
      · exact ge_base64Digit _ _
    · have hpad : (lit "==").all (fun b => 43 ≤ b) = true := by decide
      exact of_decide_eq_true (List.all_eq_true.mp hpad d hd)
  | case3 a b =>
    intro d hd
    rw [base64Encode] at hd
    rcases List.mem_append.mp hd with hd | hd
    · simp only [List.mem_cons, List.not_mem_nil, or_false] at hd
      rcases hd with rfl | rfl | rfl
      · exact ge_base64Digit _ _
      · exact ge_base64Digit _ _
      · exact ge_base64Digit _ _
    · have hpad : (lit "=").all (fun b => 43 ≤ b) = true := by decide
      exact of_decide_eq_true (List.all_eq_true.mp hpad d hd)
  | case4 => exact fun _ hd => nomatch hd

/-- Base64 has no whitespace. -/
theorem solid_base64Encode (raw : Bytes) : Solid (base64Encode raw) := by
  have hlow : HttpRequest.whitespace.all (fun w => decide (w < 43)) = true := by decide
  intro b hb hmem
  exact UInt8.not_le.mpr (of_decide_eq_true (List.all_eq_true.mp hlow b hmem)) (ge_base64Encode raw b hb)

/-! ## The headers -/

section Headers

variable (digests : Digests) (method region : Bytes) (creds : Credentials) (host path query payloadHash : Bytes)
  (now : ℤ)

def channelSignedNames (token : Bool) : List Bytes :=
  [lit "host", lit "x-amz-date"] ++ (if token then [lit "x-amz-security-token"] else [])

/-- The names that are signed for a channel. -/
theorem sigv4_signedNames :
    (sigv4Signed digests method (lit "ssmmessages") region creds host path query payloadHash now).names =
      SigV4.nameList (channelSignedNames (decide (creds.token ≠ []))) := by
  show (canonicalHeaders (sortHeaders _)).2 = _
  unfold tokenHeader channelSignedNames
  by_cases h : creds.token ≠ []
  · rw [decide_eq_true h, if_pos h]
    rfl
  · rw [decide_eq_false h, if_neg h]
    rfl

/-- The fields that a signature adds are plain. -/
theorem plainField_sigv4Headers (hclean : Clean creds region) :
    ∀ field ∈ sigv4Headers digests method (lit "ssmmessages") region creds host path query payloadHash now,
      PlainField field := by
  have hservice : Solid (lit "ssmmessages") := by decide
  have hnames : ∀ token, ∀ name ∈ channelSignedNames token, Solid name := by decide
  have hauthorization := plainField_authorization digests creds region (lit "ssmmessages") now
    ⟨hclean.accessKey, hclean.region, hservice⟩ _ _
    (sigv4_signedNames digests method region creds host path query payloadHash now) (hnames _)
  intro field hfield
  rcases List.mem_append.mp hfield with hfront | hlast
  · rcases List.mem_append.mp hfront with hdate | htok
    · rw [List.mem_singleton.mp hdate]
      exact plainField (by decide) (solid_amzDate now)
    · exact plainField_tokenHeader creds hclean.token field htok
  · rw [List.mem_singleton.mp hlast]
    exact hauthorization

end Headers

/-! ## Ids that need no encoding -/

section Paths

variable {sessionId : Bytes}

/-- The path of an unreserved session id needs no escapes. -/
theorem keep_dataChannelPath (h : Unreserved sessionId) :
    ∀ b ∈ dataChannelPath sessionId, PercentEncoding.isPathByte b = true := by
  have hroot : (lit "/v1/data-channel/").all PercentEncoding.isPathByte = true := by decide
  intro b hb
  exact (List.mem_append.mp hb).elim (List.all_eq_true.mp hroot b) (h b)

/-- Bytes that stand for themselves in a path are no whitespace. -/
theorem solid_of_keep {s : Bytes} (h : ∀ b ∈ s, PercentEncoding.isPathByte b = true) : Solid s := by
  intro b hb hmem
  exact Bool.false_ne_true ((isPathByte_low b (List.mem_cons_of_mem _ hmem)).1.symm.trans (h b hb))

/-- A path of such bytes is its own canonical form. -/
theorem canonicalUri_of_keep {s : Bytes} (h : ∀ b ∈ s, PercentEncoding.isPathByte b = true) :
    SigV4.canonicalUri s = s := by
  have hquestion : ∀ b ∈ s, decide (b ≠ 63) = true := by
    intro b hb
    refine decide_eq_true fun heq => ?_
    exact Bool.false_ne_true ((isPathByte_low 63 List.mem_cons_self).1.symm.trans (heq ▸ h b hb))
  unfold SigV4.canonicalUri
  rw [List.takeWhile_eq_self_iff.mpr hquestion, (PercentEncoding.isEncoded_of_keep (by decide) s h).2,
    PercentEncoding.encode_of_keep s h]

/-- The request that creates a data channel is plain for an unreserved id. -/
theorem plain_created (digests : Digests) (creds : Credentials) (region payload : Bytes) (now : ℤ)
    (hclean : Clean creds region) (h : Unreserved sessionId) :
    Plain (written (createChannel digests creds region (lit "data-channel") sessionId payload now)) := by
  have hhost : Solid (mgsEndpoint region) := Solid.append (Solid.append (by decide) hclean.region) (by decide)
  apply plain_written
  · show Solid (lit "POST")
    decide
  · show Solid (dataChannelPath sessionId)
    exact solid_of_keep (keep_dataChannelPath h)
  · exact hhost
  · intro field hfield
    rcases List.mem_append.mp hfield with hfront | hlast
    · rcases List.mem_append.mp hfront with htype | hsigned
      · rw [List.mem_singleton.mp htype]
        exact plainField (by decide) (by decide)
      · exact plainField_sigv4Headers digests _ region creds _ _ _ _ now hclean field hsigned
    · rw [List.mem_singleton.mp hlast]
      exact plainField (by decide) (by decide)

/-- It does not set its own length. -/
theorem created_unmeasured (digests : Digests) (creds : Credentials) (region payload : Bytes) (now : ℤ) :
    lit "content-length" ∉
      (createChannel digests creds region (lit "data-channel") sessionId payload now).headers.map fun f =>
        lowerName f.1 := by
  have hnames : ∀ token : Bool, lit "content-length" ∉
      [lit "content-type"] ++ ([lit "x-amz-date"] ++ (if token then [lit "x-amz-security-token"] else []) ++
        [lit "authorization"]) ++ [lit "user-agent"] := by decide
  unfold createChannel sigv4Headers
  dsimp only
  simp only [List.map_append]
  rw [lowerNames_tokenHeader]
  exact hnames _

/-- The upgrade request is rendered from its parts. -/
theorem upgradeRequest_eq (host path key : Bytes) (extraHeaders : List (Bytes × Bytes)) :
    WebSocket.upgradeRequest host path key extraHeaders = render (upgradeWritten host path key extraHeaders) := by
  have hfield : HttpRequest.renderField = fun f => f.1 ++ lit ": " ++ f.2 ++ WebSocket.crlf := rfl
  unfold WebSocket.upgradeRequest render upgradeWritten
  rw [hfield]
  simp [lit, WebSocket.crlf, HttpRequest.crlf]

/-- The upgrade request of a data channel is plain for an unreserved id. -/
theorem plain_upgraded (digests : Digests) (creds : Credentials) (region keyRaw : Bytes) (now : ℤ)
    (hclean : Clean creds region) (h : Unreserved sessionId) :
    Plain (dataChannelWritten digests creds region sessionId (base64Encode keyRaw) now) := by
  have hhost : Solid (mgsEndpoint region) := Solid.append (Solid.append (by decide) hclean.region) (by decide)
  constructor
  · show Solid (lit "GET")
    decide
  · show Solid (dataChannelPath sessionId ++ lit "?" ++ dataChannelQuery)
    exact Solid.append (Solid.append (solid_of_keep (keep_dataChannelPath h)) (by decide)) (by decide)
  · intro field hfield
    rcases List.mem_append.mp hfield with hfront | hsigned
    · simp only [List.mem_cons, List.not_mem_nil, or_false] at hfront
      rcases hfront with rfl | rfl | rfl | rfl | rfl
      · exact plainField (by decide) hhost
      · exact plainField (by decide) (by decide)
      · exact plainField (by decide) (by decide)
      · exact plainField (by decide) (solid_base64Encode keyRaw)
      · exact plainField (by decide) (by decide)
    · exact plainField_sigv4Headers digests _ region creds _ _ _ _ now hclean field hsigned

/-- Both requests are well formed for an unreserved id. -/
theorem wellFormed_of_unreserved (h : Unreserved sessionId) : WellFormed sessionId where
  encoded := (PercentEncoding.isEncoded_of_keep (by decide) _ (keep_dataChannelPath h)).1
  decoded := (PercentEncoding.isEncoded_of_keep (by decide) _ (keep_dataChannelPath h)).2
  canonical := canonicalUri_of_keep (keep_dataChannelPath h)
  created := by
    intro digests creds region payload now hclean
    rw [requestText_eq _ (created_unmeasured digests creds region payload now)]
    exact HttpRequest.read_render _ (plain_created digests creds region payload now hclean h)
  upgraded := by
    intro digests creds region keyRaw now hclean
    unfold dataChannelUpgrade
    dsimp only
    rw [upgradeRequest_eq]
    exact HttpRequest.read_render _ (plain_upgraded digests creds region keyRaw now hclean h)

/-- What is not kept is lost: the path stands for itself only if it has no escape in it. -/
theorem wellFormed_iff : WellFormed sessionId ↔ Unreserved sessionId := by
  constructor
  · intro h b hb
    exact PercentEncoding.keep_of_decode_eq _ h.encoded h.decoded b (List.mem_append_right _ hb)
  · exact wellFormed_of_unreserved

end Paths

/-- **When the requests of a data channel are well formed.** For the sessions that are accepted,
exactly when the bytes of the id are unreserved or slashes.
SRC: mgs.cpp:170-199, session.cpp:207-226, 495-533, aws.h:89-98 -/
theorem requestsWellFormed_iff (strtod : Bytes → Double × ℕ) (payload : Bytes) :
    RequestsWellFormed strtod payload ↔
      ∀ sr kmsKeyId, parseStartRequest strtod payload = .ok (sr, kmsKeyId) → Unreserved sr.sessionId := by
  constructor
  · exact fun h sr kmsKeyId hparse => wellFormed_iff.mp (h sr kmsKeyId hparse)
  · exact fun h sr kmsKeyId hparse => wellFormed_iff.mpr (h sr kmsKeyId hparse)

/-- A task for a session of a user with an e-mail address. -/
def mailTask : Value := .obj [(lit "SessionId", .string (lit "alice@example.com-0abc"))]

def mailPayload : Bytes := dump (.obj [(lit "Content", .string (dump mailTask))])

/-- The payload of the example asks for a session with an address as its id. -/
theorem parse_mailPayload : ∃ sr, sr.sessionId = lit "alice@example.com-0abc" ∧
    parseStartRequest decimalStrtod mailPayload = .ok (sr, []) := by
  have hlossless : Lossless mailTask := by
    simp only [mailTask, Lossless, LosslessEntries, List.map_cons, List.map_nil, and_true, List.pairwise_singleton]
  have htask : startTask decimalStrtod mailPayload = .ok mailTask :=
    StartRefusals.startTask_dump mailTask hlossless rfl
  refine ⟨⟨lit "alice@example.com-0abc", [], false, [], []⟩, rfl, ?_⟩
  unfold parseStartRequest
  rw [htask]
  rfl

/-- The at sign is neither unreserved nor escaped. -/
theorem mail_not_wellFormed : ¬RequestsWellFormed decimalStrtod mailPayload := by
  rw [requestsWellFormed_iff]
  intro h
  obtain ⟨sr, hid, hparse⟩ := parse_mailPayload
  have hkeep := h sr [] hparse 64 (by rw [hid]; decide)
  revert hkeep
  decide

end HaikuAgent.Analysis.ChannelRequests
