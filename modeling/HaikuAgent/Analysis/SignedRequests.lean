import HaikuAgent.Analysis.JsonRoundTrip
import HaikuAgent.Interface.SigV4
import HaikuAgent.Model.Signing

/-!
# What is signed is what is sent

The text of a request is the one `Interface.HttpRequest` renders, its fields in the order of
`perform`. The headers that `aws::call` and `s3::build_request` sign are among these fields, and
so the service obtains the string that was signed.
-/

set_option autoImplicit false

namespace HaikuAgent.Analysis.SignedRequests

open HaikuAgent.Foundation
open HaikuAgent.Model
open HaikuAgent.Model.Signing
open HaikuAgent.Interface
open HaikuAgent.Interface.HttpRequest (Solid PlainField Plain lowerName render content)
open HaikuAgent.Interface.SigV4 (Account SignedAs verify)

/-! ## Encodings -/

/-- The high digit of a byte. -/
theorem toNat_highNibble (b : UInt8) : (b >>> 4).toNat = b.toNat / 16 := by
  rw [UInt8.toNat_shiftRight]
  exact Nat.shiftRight_eq_div_pow _ _

/-- The low digit of a byte. -/
theorem toNat_lowNibble (b : UInt8) : (b &&& 0x0F).toNat = b.toNat % 16 := by
  rw [UInt8.toNat_and]
  exact Nat.and_two_pow_sub_one_eq_mod b.toNat 4

/-- A table of sixteen digits is a function of the value. -/
theorem table_nibbles (table : Bytes) (digit : ℕ → UInt8) (h : ∀ n : Fin 16, table.getD n 0 = digit n) (b : UInt8) :
    table.getD (b >>> 4).toNat 0 = digit (b.toNat / 16) ∧ table.getD (b &&& 0x0F).toNat 0 = digit (b.toNat % 16) := by
  rw [toNat_highNibble, toNat_lowNibble]
  exact ⟨h ⟨b.toNat / 16, Nat.div_lt_of_lt_mul b.toNat_lt⟩, h ⟨b.toNat % 16, Nat.mod_lt _ (Nat.succ_pos 15)⟩⟩

/-- The code's hex text is the verifier's. -/
theorem toHex_eq (s : Bytes) : toHex s = SigV4.hexText s := by
  unfold toHex SigV4.hexText
  congr 1
  funext b
  obtain ⟨hhi, hlo⟩ := table_nibbles Mgs.digits SigV4.hexDigit (by decide) b
  unfold Mgs.hexPair
  rw [hhi, hlo]

/-- The code's encoding of a path is the library's for the bytes a path may hold. -/
theorem uriEncode_eq (s : Bytes) : uriEncode s false = PercentEncoding.encode PercentEncoding.isPathByte s := by
  unfold uriEncode PercentEncoding.encode
  congr 1
  funext b
  obtain ⟨hhi, hlo⟩ := table_nibbles upperDigits PercentEncoding.hexDigit (by decide) b
  simp only [Bool.not_false, Bool.and_true]
  rw [hhi, hlo]
  rfl

/-! ## Numbers and times -/

/-- The bytes of a number. -/
def Numeral (s : Bytes) : Prop := ∀ b ∈ s, 45 ≤ b ∧ b ≤ 57

/-- A text without low bytes has no whitespace. -/
theorem solid_of_ge {s : Bytes} (h : ∀ b ∈ s, 45 ≤ b) : Solid s := by
  have hlow : HttpRequest.whitespace.all (fun w => decide (w < 45)) = true := by decide
  intro b hb hmem
  exact UInt8.not_le.mpr (of_decide_eq_true (List.all_eq_true.mp hlow b hmem)) (h b hb)

/-- A number has no whitespace. -/
theorem Numeral.solid {s : Bytes} (h : Numeral s) : Solid s := solid_of_ge fun b hb => (h b hb).1

/-- Two numbers side by side are a number. -/
theorem Numeral.append {s t : Bytes} (hs : Numeral s) (ht : Numeral t) : Numeral (s ++ t) := by
  intro b hb
  exact (List.mem_append.mp hb).elim (hs b) (ht b)

/-- A natural number is written with digits only. -/
theorem digit_toStringNat (n : ℕ) : ∀ b ∈ toStringNat n, 48 ≤ b ∧ b ≤ 57 := by
  obtain ⟨ds, hds⟩ := JsonRoundTrip.toStringNat_digits n
  have hdigit : ∀ d : Fin 10, 48 ≤ JsonText.digitByte d ∧ JsonText.digitByte d ≤ 57 := by decide
  rw [hds]
  intro b hb
  obtain ⟨d, -, rfl⟩ := List.mem_map.mp hb
  exact hdigit d

/-- A natural number's text is a number. -/
theorem numeral_toStringNat (n : ℕ) : Numeral (toStringNat n) := by
  intro b hb
  obtain ⟨hlo, hhi⟩ := digit_toStringNat n b hb
  exact ⟨UInt8.le_trans (show (45 : UInt8) ≤ 48 by decide) hlo, hhi⟩

/-- A natural number's text reads back as that number. -/
theorem readNumber_toStringNat (n : ℕ) : HttpRequest.readNumber (toStringNat n) = some n := by
  have hne : toStringNat n ≠ [] := by
    obtain ⟨ds, hds⟩ := JsonRoundTrip.toStringNat_digits n
    rw [hds]
    exact List.cons_ne_nil _ _
  have hall : (toStringNat n).all (fun b => 48 ≤ b && b ≤ 57) = true := by
    rw [List.all_eq_true]
    intro b hb
    obtain ⟨hlo, hhi⟩ := digit_toStringNat n b hb
    simp [hlo, hhi]
  unfold HttpRequest.readNumber
  rw [if_pos ⟨hne, hall⟩, JsonRoundTrip.foldl_toStringNat]

/-- A padded number is a number. -/
theorem numeral_padded (width : ℕ) (n : ℤ) : Numeral (Time.padded width n) := by
  have hsign : Numeral (if n < 0 then lit "-" else []) := by
    split_ifs
    · intro b hb
      rw [List.mem_singleton.mp hb]
      decide
    · exact fun _ hb => nomatch hb
  have hzeros : ∀ k, Numeral (List.replicate k 48) := by
    intro k b hb
    rw [List.eq_of_mem_replicate hb]
    decide
  exact Numeral.append (Numeral.append hsign (hzeros _)) (numeral_toStringNat _)

/-- The date stamp is a number. -/
theorem numeral_amzDatestamp (now : ℤ) : Numeral (amzDatestamp now) :=
  Numeral.append (Numeral.append (numeral_padded _ _) (numeral_padded _ _)) (numeral_padded _ _)

/-- The time of day. -/
theorem amzDate_eq (now : ℤ) : ∃ time, Solid time ∧ amzDate now = amzDatestamp now ++ 84 :: time := by
  let tm := Time.gmt now
  have htime : Numeral (Time.padded 2 tm.hour ++ Time.padded 2 tm.min ++ Time.padded 2 tm.sec) :=
    Numeral.append (Numeral.append (numeral_padded _ _) (numeral_padded _ _)) (numeral_padded _ _)
  refine ⟨_, Solid.append htime.solid (show Solid (lit "Z") by decide), ?_⟩
  simp [amzDate, amzDatestamp, lit, tm]

/-- The date has no whitespace. -/
theorem solid_amzDate (now : ℤ) : Solid (amzDate now) := by
  obtain ⟨time, htime, heq⟩ := amzDate_eq now
  rw [heq]
  exact Solid.append (numeral_amzDatestamp now).solid (Solid.append (show Solid [84] by decide) htime)

/-- The date's first part is the date stamp. -/
theorem takeWhile_amzDate (now : ℤ) : (amzDate now).takeWhile (· ≠ 84) = amzDatestamp now := by
  obtain ⟨time, -, heq⟩ := amzDate_eq now
  have hall : ∀ b ∈ amzDatestamp now, decide (b ≠ 84) = true := by
    intro b hb
    have hle : b ≤ 57 := (numeral_amzDatestamp now b hb).2
    exact decide_eq_true fun h => absurd (h ▸ hle) (by decide)
  rw [heq, List.takeWhile_append_of_pos hall, List.takeWhile_cons_of_neg (by decide), List.append_nil]

/-! ## The text of a request -/

/-- `Content-Length`, where `perform` writes it. -/
def lengthField (req : Signing.Request) : List (Bytes × Bytes) :=
  if 0 < req.body.length ∨ req.method = lit "POST" ∨ req.method = lit "PUT" then
    [(lit "Content-Length", toStringNat req.body.length)]
  else []

/-- The request as the server is to read it. -/
def written (req : Signing.Request) : HttpRequest.Request where
  method := req.method
  target := req.path
  fields := (lit "Host", req.host) :: (lit "Connection", lit "close") :: (req.headers ++ lengthField req)
  body := req.body

/-- The code lowers a name as the verifier does. -/
theorem lower_eq (s : Bytes) : lower s = lowerName s := by
  unfold lower lowerName
  apply List.map_congr_left
  intro c _
  have hshift : c - 65 + 97 = c + 32 := by
    rw [UInt8.sub_eq_add_neg, UInt8.add_assoc]
    rfl
  simp only [Bool.and_eq_true, decide_eq_true_eq, hshift]

/-- The text that goes out is the written request, rendered. -/
theorem requestText_eq (req : Signing.Request)
    (h : lit "content-length" ∉ req.headers.map fun f => lowerName f.1) :
    requestText req = render (written req) := by
  have hlen : (req.headers.any fun f => lower f.1 == lit "content-length") = false := by
    rw [List.any_eq_false]
    intro f hf heq
    rw [lower_eq] at heq
    exact h (List.mem_map.mpr ⟨f, hf, eq_of_beq heq⟩)
  have hfield : HttpRequest.renderField = fun f => f.1 ++ lit ": " ++ f.2 ++ lit "\r\n" := rfl
  unfold requestText wireHead render written lengthField
  rw [hlen, hfield]
  simp only [Bool.not_false, true_and]
  split_ifs
  · simp [lit, HttpRequest.crlf]
  · simp [lit, HttpRequest.crlf]

/-- The content is the body. -/
theorem content_written (req : Signing.Request)
    (h : ((written req).fields.map fun f => lowerName f.1).Nodup)
    (hnotMem : lit "content-length" ∉ req.headers.map fun f => lowerName f.1) :
    content (written req) = some req.body := by
  unfold content
  by_cases hlength : 0 < req.body.length ∨ req.method = lit "POST" ∨ req.method = lit "PUT"
  · have hmem : (lit "Content-Length", toStringNat req.body.length) ∈ (written req).fields := by
      unfold written lengthField
      rw [if_pos hlength]
      simp
    have hvalues := HttpRequest.valuesOf_of_mem _ h _ hmem
    have hname : lowerName (lit "Content-Length") = lit "content-length" := by decide
    rw [hname] at hvalues
    rw [hvalues]
    dsimp only
    rw [readNumber_toStringNat]
    show (if req.body.length ≤ req.body.length then some (req.body.take req.body.length) else none) = _
    rw [if_pos (Nat.le_refl _), List.take_length]
  · have hvalues : HttpRequest.valuesOf (written req).fields (lit "content-length") = [] := by
      apply HttpRequest.valuesOf_of_notMem
      have hhost : lit "content-length" ≠ lowerName (lit "Host") := by decide
      have hconnection : lit "content-length" ≠ lowerName (lit "Connection") := by decide
      unfold written lengthField
      rw [if_neg hlength, List.append_nil, List.map_cons, List.map_cons]
      exact List.not_mem_cons_of_ne_of_not_mem hhost (List.not_mem_cons_of_ne_of_not_mem hconnection hnotMem)
    have hbody : req.body = [] := List.length_eq_zero_iff.mp (Nat.eq_zero_of_not_pos fun hpos => hlength (Or.inl hpos))
    rw [hvalues, hbody]

/-! ## The signature -/

/-- The account of the credentials, for a service in a region. -/
def accountOf (creds : Credentials) (region service : Bytes) : Account where
  accessKey := creds.accessKey
  secretKey := creds.secretKey
  region := region
  service := service

section Signature

variable (digests : Digests) (creds : Credentials) (region service : Bytes) (now : ℤ)

/-- The code's string to sign is the verifier's for the same account and time. -/
theorem stringToSign_eq (canonical : Bytes) :
    Signing.stringToSign digests (amzDate now) (scopeOf (amzDatestamp now) region service) canonical =
      SigV4.stringToSign digests.sha256 (accountOf creds region service) (amzDate now) canonical := by
  unfold Signing.stringToSign SigV4.stringToSign sha256Hex
  rw [takeWhile_amzDate, toHex_eq]
  rfl

/-- The code's authorization header is the verifier's for the same signed names. -/
theorem authorization_eq (signed : Signed) (names : List Bytes) (hnames : signed.names = SigV4.nameList names) :
    authorization digests creds (amzDatestamp now) region service signed =
      SigV4.authorizationText digests.hmacSha256 (accountOf creds region service) (amzDatestamp now) names
        signed.stringToSign := by
  unfold authorization SigV4.authorizationText
  dsimp only
  rw [hnames, toHex_eq]
  simp only [List.append_assoc]
  rfl

/-- A request that carries the signature over the fields `headers`. -/
structure Carries (req : Signing.Request) (signed : Signed) (headers : List (Bytes × Bytes)) : Prop where
  signedAs : SignedAs (accountOf creds region service) (written req) req.body (amzDate now) headers
  names : signed.names = SigV4.nameList (headers.map Prod.fst)
  canonical : signed.stringToSign = SigV4.stringToSign digests.sha256 (accountOf creds region service) (amzDate now)
    (SigV4.canonicalText digests.sha256 (written req) req.body headers)
  authorization : (lit "Authorization",
    Signing.authorization digests creds (amzDatestamp now) region service signed) ∈ req.headers
  unmeasured : lit "content-length" ∉ req.headers.map fun f => lowerName f.1

/-- A request that carries a signature is verified from its text, and what was signed is what is read. -/
theorem verify_requestText (req : Signing.Request) (signed : Signed) (headers : List (Bytes × Bytes))
    (h : Carries digests creds region service now req signed headers) :
    verify digests.sha256 digests.hmacSha256 (accountOf creds region service) (requestText req) =
      some ⟨signed.stringToSign, true⟩ := by
  have hmem : (lit "Authorization", authorization digests creds (amzDatestamp now) region service signed) ∈
      (written req).fields :=
    List.mem_cons_of_mem _ (List.mem_cons_of_mem _ (List.mem_append_left _ h.authorization))
  rw [requestText_eq req h.unmeasured]
  apply SigV4.verify_render digests.sha256 digests.hmacSha256 h.signedAs _ h.canonical _ hmem
  · show lowerName (lit "Authorization") = lit "authorization"
    decide
  · show authorization digests creds (amzDatestamp now) region service signed = _
    rw [authorization_eq digests creds region service now signed _ h.names, takeWhile_amzDate]

end Signature

/-! ## The fields of a request -/

/-- The names in a request, and those of them that are signed. -/
structure NameTable (all signed : List Bytes) : Prop where
  distinct : all.Nodup
  ordered : signed.insertionSort (· ≤ ·) = signed
  host : lit "host" ∈ signed
  amz : ∀ name ∈ all, lit "x-amz-" <+: name → name ∈ signed
  clean : ∀ name ∈ signed, Solid name ∧ (59 : UInt8) ∉ name

/-- The name of a field, for the canonical request. -/
def lowered (field : Bytes × Bytes) : Bytes × Bytes := (lowerName field.1, field.2)

/-- A field of whole words is a plain one. -/
theorem plainField {name value : Bytes} (hname : Solid name ∧ name ≠ [] ∧ (58 : UInt8) ∉ name) (hvalue : Solid value) :
    PlainField (name, value) where
  name := hname.1
  ne_nil := hname.2.1
  colon := hname.2.2
  line := hvalue.notMem 13 (by decide)
  trimmed := hvalue.trimmed

/-- The length header is a plain field. -/
theorem plainField_lengthField (req : Signing.Request) : ∀ field ∈ lengthField req, PlainField field := by
  intro field hfield
  unfold lengthField at hfield
  split_ifs at hfield
  · rw [List.mem_singleton.mp hfield]
    exact plainField (by decide) (numeral_toStringNat _).solid
  · cases hfield

/-- The token header is a plain field when the token has no whitespace. -/
theorem plainField_tokenHeader (creds : Credentials) (htoken : Solid creds.token) :
    ∀ field ∈ tokenHeader (lit "X-Amz-Security-Token") creds, PlainField field := by
  intro field hfield
  unfold tokenHeader at hfield
  split_ifs at hfield
  · rw [List.mem_singleton.mp hfield]
    exact plainField (by decide) htoken
  · cases hfield

/-- The token header is there when there is a token. -/
theorem lowerNames_tokenHeader (creds : Credentials) :
    ((tokenHeader (lit "X-Amz-Security-Token") creds).map fun f => lowerName f.1) =
      if decide (creds.token ≠ []) then [lit "x-amz-security-token"] else [] := by
  unfold tokenHeader
  by_cases h : creds.token ≠ []
  · rw [decide_eq_true h, if_pos h]
    rfl
  · rw [decide_eq_false h, if_neg h]
    rfl

/-- The token header has no whitespace when the token has none. -/
theorem solid_tokenHeader (creds : Credentials) (htoken : Solid creds.token) (name : Bytes) :
    ∀ field ∈ tokenHeader name creds, Solid field.2 := by
  intro field hfield
  unfold tokenHeader at hfield
  split_ifs at hfield
  · rw [List.mem_singleton.mp hfield]
    exact htoken
  · cases hfield

/-- A header of the request is among the fields that are written. -/
theorem mem_written_of_header (req : Signing.Request) (field : Bytes × Bytes) (h : field ∈ req.headers) :
    field ∈ (written req).fields :=
  List.mem_cons_of_mem _ (List.mem_cons_of_mem _ (List.mem_append_left _ h))

/-- A request of plain parts is written plainly. -/
theorem plain_written (req : Signing.Request) (hmethod : Solid req.method) (hpath : Solid req.path)
    (hhost : Solid req.host) (hheaders : ∀ field ∈ req.headers, PlainField field) : Plain (written req) where
  method := hmethod
  target := hpath
  fields := by
    apply List.forall_mem_cons.mpr ⟨plainField (by decide) hhost, ?_⟩
    apply List.forall_mem_cons.mpr ⟨plainField (by decide) (by decide), ?_⟩
    intro field hfield
    exact (List.mem_append.mp hfield).elim (hheaders field) (plainField_lengthField req field)

/-- The authorization header is a plain field. -/
theorem plainField_authorization (digests : Digests) (creds : Credentials) (region service : Bytes) (now : ℤ)
    (hclean : (accountOf creds region service).Clean) (signed : Signed) (names : List Bytes)
    (hsigned : signed.names = SigV4.nameList names) (hnames : ∀ name ∈ names, Solid name) :
    PlainField (lit "Authorization", authorization digests creds (amzDatestamp now) region service signed) := by
  rw [authorization_eq digests creds region service now signed names hsigned]
  exact SigV4.plainField_authorizationText digests.hmacSha256 hclean _ (numeral_amzDatestamp now).solid names hnames _

/-- The names of the fields that `perform` writes around the headers. -/
def fieldNames (headers : List Bytes) (measured : Bool) : List Bytes :=
  lit "host" :: lit "connection" :: (headers ++ if measured then [lit "content-length"] else [])

/-- The names written are the code's own around those of the headers. -/
theorem fieldNames_eq (req : Signing.Request) :
    ((written req).fields.map fun f => lowerName f.1) =
      fieldNames (req.headers.map fun f => lowerName f.1) (decide (lengthField req ≠ [])) := by
  have hhost : lowerName (lit "Host") = lit "host" := by decide
  have hconnection : lowerName (lit "Connection") = lit "connection" := by decide
  have hlength : lowerName (lit "Content-Length") = lit "content-length" := by decide
  have hmeasure : (lengthField req).map (fun f => lowerName f.1) =
      if decide (lengthField req ≠ []) then [lit "content-length"] else [] := by
    by_cases h : 0 < req.body.length ∨ req.method = lit "POST" ∨ req.method = lit "PUT"
    · have hfield : lengthField req = [(lit "Content-Length", toStringNat req.body.length)] := if_pos h
      rw [hfield, List.map_singleton, hlength]
      rfl
    · have hfield : lengthField req = [] := if_neg h
      rw [hfield]
      rfl
  unfold written fieldNames
  rw [List.map_cons, List.map_cons, List.map_append, hmeasure, hhost, hconnection]

/-- The fields that are signed are picked from those that are written. -/
theorem signedAs_of_table (account : Account) (hclean : account.Clean) (req : Signing.Request) (now : ℤ)
    (hplain : Plain (written req)) (picked : List (Bytes × Bytes)) (hpicked : picked ⊆ (written req).fields)
    (htable : NameTable ((written req).fields.map fun f => lowerName f.1) (picked.map fun f => lowerName f.1))
    (hvalues : ∀ f ∈ picked, Solid f.2) (hdate : (lit "X-Amz-Date", amzDate now) ∈ picked)
    (hunmeasured : lit "content-length" ∉ req.headers.map fun f => lowerName f.1) :
    SignedAs account (written req) req.body (amzDate now) (picked.map lowered) := by
  have hnames : (picked.map lowered).map Prod.fst = picked.map fun f => lowerName f.1 := List.map_map
  constructor
  · exact hplain
  · exact hclean
  · exact content_written req htable.distinct hunmeasured
  · exact htable.distinct
  · intro f hf
    obtain ⟨field, hfield, rfl⟩ := List.mem_map.mp hf
    exact ⟨field, hpicked hfield, rfl, rfl⟩
  · intro f hf
    obtain ⟨field, hfield, rfl⟩ := List.mem_map.mp hf
    exact hvalues field hfield
  · intro f hf
    obtain ⟨field, hfield, rfl⟩ := List.mem_map.mp hf
    exact htable.clean _ (List.mem_map_of_mem hfield)
  · rw [hnames]
    exact htable.ordered
  · rw [hnames]
    exact ⟨htable.host, fun field hfield => htable.amz _ (List.mem_map_of_mem hfield)⟩
  · have hlower : lowered (lit "X-Amz-Date", amzDate now) = (lit "x-amz-date", amzDate now) :=
      Prod.ext (show lowerName (lit "X-Amz-Date") = lit "x-amz-date" by decide) rfl
    rw [← hlower]
    exact List.mem_map_of_mem hdate

/-! ## `aws::call` -/

section Call

variable (digests : Digests) (service targetPrefix operation region : Bytes) (creds : Credentials) (body : Bytes)
  (now : ℤ)

/-- The fields that `call` signs, as they are written. -/
def callPicked : List (Bytes × Bytes) :=
  [(lit "Content-Type", kJsonContentType), (lit "Host", endpoint service region), (lit "X-Amz-Date", amzDate now)] ++
    tokenHeader (lit "X-Amz-Security-Token") creds ++
    [(lit "X-Amz-Target", targetPrefix ++ lit "." ++ operation)]

/-- The names of the headers. -/
def callHeaderNames (token : Bool) : List Bytes :=
  [lit "content-type", lit "x-amz-date", lit "x-amz-target"] ++
    (if token then [lit "x-amz-security-token"] else []) ++ [lit "authorization", lit "user-agent"]

def callSignedNames (token : Bool) : List Bytes :=
  [lit "content-type", lit "host", lit "x-amz-date"] ++ (if token then [lit "x-amz-security-token"] else []) ++
    [lit "x-amz-target"]

/-- The names of an API call, with and without a token. -/
theorem call_table (token : Bool) :
    NameTable (fieldNames (callHeaderNames token) true) (callSignedNames token) := by
  cases token with
  | false => constructor <;> decide
  | true => constructor <;> decide

/-- The header names of an API call. -/
theorem callHeaderNames_eq :
    ((callRequest digests service targetPrefix operation region creds body now).headers.map fun f =>
      lowerName f.1) = callHeaderNames (decide (creds.token ≠ [])) := by
  unfold callRequest
  dsimp only
  rw [List.map_append, List.map_append, lowerNames_tokenHeader]
  rfl

/-- The names that an API call writes. -/
theorem callNames_eq :
    ((written (callRequest digests service targetPrefix operation region creds body now)).fields.map fun f =>
      lowerName f.1) = fieldNames (callHeaderNames (decide (creds.token ≠ []))) true := by
  rw [fieldNames_eq, callHeaderNames_eq]
  congr 1
  apply decide_eq_true
  unfold lengthField
  split_ifs with h
  · exact List.cons_ne_nil _ _
  · exact absurd (Or.inr (Or.inl rfl)) h

/-- The names that an API call signs. -/
theorem callSignedNames_eq :
    ((callPicked service targetPrefix operation region creds now).map fun f => lowerName f.1) =
      callSignedNames (decide (creds.token ≠ [])) := by
  unfold callPicked
  rw [List.map_append, List.map_append, lowerNames_tokenHeader]
  rfl

/-- The sort changes the place of the token only. -/
theorem callHeaders_eq :
    sortHeaders ([(lit "content-type", kJsonContentType), (lit "host", endpoint service region),
      (lit "x-amz-date", amzDate now), (lit "x-amz-target", targetPrefix ++ lit "." ++ operation)] ++
      tokenHeader (lit "x-amz-security-token") creds) =
      (callPicked service targetPrefix operation region creds now).map lowered := by
  unfold callPicked tokenHeader
  by_cases h : creds.token ≠ []
  · rw [if_pos h, if_pos h]
    rfl
  · rw [if_neg h, if_neg h]
    rfl

/-- An API call lists the names it signs. -/
theorem call_signedNames :
    (callSigned digests service targetPrefix operation region creds body now).names =
      SigV4.nameList (((callPicked service targetPrefix operation region creds now).map lowered).map Prod.fst) := by
  show (canonicalHeaders (sortHeaders _)).2 = _
  rw [callHeaders_eq]
  rfl

/-- The canonical request of `call` is that of what is written. -/
theorem call_canonical :
    (callSigned digests service targetPrefix operation region creds body now).stringToSign =
      SigV4.stringToSign digests.sha256 (accountOf creds region service) (amzDate now)
        (SigV4.canonicalText digests.sha256
          (written (callRequest digests service targetPrefix operation region creds body now)) body
          ((callPicked service targetPrefix operation region creds now).map lowered)) := by
  have huri : SigV4.canonicalUri (lit "/") = lit "/" := by decide
  have hquery : SigV4.canonicalQuery (lit "/") = [] := by decide
  have hhash : SigV4.payloadHash digests.sha256
      (written (callRequest digests service targetPrefix operation region creds body now)).fields body =
        sha256Hex digests body := by
    have hnames : ∀ token, lit "x-amz-content-sha256" ∉ fieldNames (callHeaderNames token) true := by decide
    have hvalues := HttpRequest.valuesOf_of_notMem
      (written (callRequest digests service targetPrefix operation region creds body now)).fields
      (lit "x-amz-content-sha256") (by rw [callNames_eq]; exact hnames _)
    unfold SigV4.payloadHash sha256Hex
    rw [hvalues, if_neg (List.cons_ne_nil _ _).symm, toHex_eq]
  show Signing.stringToSign digests (amzDate now) (scopeOf (amzDatestamp now) region service)
    (lit "POST\n/\n\n" ++ (canonicalHeaders (sortHeaders _)).1 ++ lit "\n" ++ (canonicalHeaders (sortHeaders _)).2 ++
      lit "\n" ++ sha256Hex digests body) = _
  rw [stringToSign_eq digests creds, callHeaders_eq]
  congr 1
  unfold SigV4.canonicalText
  rw [hhash]
  show _ = lit "POST" ++ lit "\n" ++ SigV4.canonicalUri (lit "/") ++ lit "\n" ++ SigV4.canonicalQuery (lit "/") ++
    lit "\n" ++ _ ++ lit "\n" ++ _ ++ lit "\n" ++ _
  rw [huri, hquery]
  rfl

/-- An API call does not set its own length. -/
theorem call_unmeasured : lit "content-length" ∉
    (callRequest digests service targetPrefix operation region creds body now).headers.map fun f => lowerName f.1 := by
  have hnames : ∀ token, lit "content-length" ∉ callHeaderNames token := by decide
  rw [callHeaderNames_eq]
  exact hnames _

section Clean

variable (hservice : Solid service) (htarget : Solid (targetPrefix ++ lit "." ++ operation))
  (hregion : Solid region) (haccess : Solid creds.accessKey) (htoken : Solid creds.token)

include hservice htarget hregion haccess htoken

/-- An API call is written plainly. -/
theorem call_plain : Plain (written (callRequest digests service targetPrefix operation region creds body now)) := by
  have hhost : Solid (endpoint service region) :=
    Solid.append (Solid.append (Solid.append hservice (by decide)) hregion) (by decide)
  have hcontentType : Solid kJsonContentType := by decide
  have hauthorization := plainField_authorization digests creds region service now ⟨haccess, hregion, hservice⟩
    (callSigned digests service targetPrefix operation region creds body now) _
    (call_signedNames digests service targetPrefix operation region creds body now) (by
      rw [List.map_map]
      show ∀ name ∈ (callPicked service targetPrefix operation region creds now).map fun f => lowerName f.1, Solid name
      rw [callSignedNames_eq]
      exact fun name hname => ((call_table _).clean name hname).1)
  apply plain_written
  · show Solid (lit "POST")
    decide
  · show Solid (lit "/")
    decide
  · exact hhost
  · intro field hfield
    rcases List.mem_append.mp hfield with hfront | hlast
    · rcases List.mem_append.mp hfront with hfirst | htok
      · simp only [List.mem_cons, List.not_mem_nil, or_false] at hfirst
        rcases hfirst with rfl | rfl | rfl
        · exact plainField (by decide) hcontentType
        · exact plainField (by decide) (solid_amzDate now)
        · exact plainField (by decide) htarget
      · exact plainField_tokenHeader creds htoken field htok
    · simp only [List.mem_cons, List.not_mem_nil, or_false] at hlast
      rcases hlast with rfl | rfl
      · exact hauthorization
      · exact plainField (by decide) (by decide)

/-- An API call is signed as its text says. -/
theorem call_signedAs :
    SignedAs (accountOf creds region service)
      (written (callRequest digests service targetPrefix operation region creds body now)) body (amzDate now)
      ((callPicked service targetPrefix operation region creds now).map lowered) := by
  have hplain := call_plain digests service targetPrefix operation region creds body now hservice htarget hregion
    haccess htoken
  have hhost : Solid (endpoint service region) :=
    Solid.append (Solid.append (Solid.append hservice (by decide)) hregion) (by decide)
  have hcontentType : Solid kJsonContentType := by decide
  apply signedAs_of_table (accountOf creds region service) ⟨haccess, hregion, hservice⟩ _ now hplain
  · intro field hfield
    simp only [callPicked, List.mem_append, List.mem_cons, List.not_mem_nil, or_false] at hfield
    rcases hfield with ((rfl | rfl | rfl) | htok) | rfl
    · apply mem_written_of_header
      simp [callRequest]
    · exact List.mem_cons_self
    · apply mem_written_of_header
      simp [callRequest]
    · exact mem_written_of_header _ _ (List.mem_append_left _ (List.mem_append_right _ htok))
    · apply mem_written_of_header
      simp [callRequest]
  · rw [callNames_eq, callSignedNames_eq]
    exact call_table _
  · intro field hfield
    simp only [callPicked, List.mem_append, List.mem_cons, List.not_mem_nil, or_false] at hfield
    rcases hfield with ((rfl | rfl | rfl) | htok) | rfl
    · exact hcontentType
    · exact hhost
    · exact solid_amzDate now
    · exact solid_tokenHeader creds htoken _ field htok
    · exact htarget
  · simp [callPicked]
  · exact call_unmeasured digests service targetPrefix operation region creds body now

/-- An API call carries its signature. -/
theorem call_carries :
    Carries digests creds region service now
      (callRequest digests service targetPrefix operation region creds body now)
      (callSigned digests service targetPrefix operation region creds body now)
      ((callPicked service targetPrefix operation region creds now).map lowered) where
  signedAs := call_signedAs digests service targetPrefix operation region creds body now hservice htarget hregion
    haccess htoken
  names := call_signedNames digests service targetPrefix operation region creds body now
  canonical := call_canonical digests service targetPrefix operation region creds body now
  authorization := List.mem_append_right _ List.mem_cons_self
  unmeasured := call_unmeasured digests service targetPrefix operation region creds body now

end Clean

end Call

/-! ## `s3::build_request` -/

section Paths

/-- Blanks and question marks are neither path bytes nor part of an escape. -/
theorem isPathByte_low (w : UInt8) (hw : w ∈ 63 :: HttpRequest.whitespace) :
    PercentEncoding.isPathByte w = false ∧ w ≠ 37 ∧ ∀ n : Fin 16, w ≠ PercentEncoding.hexDigit n := by
  have hall : (63 :: HttpRequest.whitespace).all (fun w => decide
      (PercentEncoding.isPathByte w = false ∧ w ≠ 37 ∧ ∀ n : Fin 16, w ≠ PercentEncoding.hexDigit n)) = true := by
    decide
  exact of_decide_eq_true (List.all_eq_true.mp hall w hw)

/-- An encoded path has no blanks and no question marks. -/
theorem notMem_encode (s : Bytes) (w : UInt8) (hw : w ∈ 63 :: HttpRequest.whitespace) :
    w ∉ PercentEncoding.encode PercentEncoding.isPathByte s := by
  obtain ⟨hkeep, hpercent, hdigit⟩ := isPathByte_low w hw
  intro h
  rcases PercentEncoding.mem_encode s w h with hpath | hescape | ⟨n, hn⟩
  · exact Bool.false_ne_true (hkeep.symm.trans hpath)
  · exact hpercent hescape
  · exact hdigit n hn

variable (key : Bytes)

/-- The path of an object is its key behind a slash, encoded. -/
theorem objectPath_eq : objectPath key = PercentEncoding.encode PercentEncoding.isPathByte (47 :: key) := by
  unfold objectPath
  rw [uriEncode_eq]
  rfl

/-- The path of an object decodes to its key behind a slash. -/
theorem decode_objectPath : PercentEncoding.decode (objectPath key) = 47 :: key := by
  rw [objectPath_eq]
  exact PercentEncoding.decode_encode (by decide) _

/-- The path of an object has no whitespace. -/
theorem solid_objectPath : Solid (objectPath key) := by
  rw [objectPath_eq]
  intro b hb hmem
  exact notMem_encode _ b (List.mem_cons_of_mem _ hmem) hb

/-- The path of an object has no query. -/
theorem question_objectPath : ∀ b ∈ objectPath key, decide (b ≠ 63) = true := by
  rw [objectPath_eq]
  intro b hb
  exact decide_eq_true fun heq => notMem_encode _ 63 List.mem_cons_self (heq ▸ hb)

/-- The path of an object is in canonical form. -/
theorem canonicalUri_objectPath : SigV4.canonicalUri (objectPath key) = objectPath key := by
  unfold SigV4.canonicalUri
  rw [List.takeWhile_eq_self_iff.mpr (question_objectPath key), decode_objectPath, objectPath_eq]

/-- The path of an object has no query to put in canonical form. -/
theorem canonicalQuery_objectPath : SigV4.canonicalQuery (objectPath key) = [] := by
  unfold SigV4.canonicalQuery
  rw [List.dropWhile_eq_nil_iff.mpr (question_objectPath key)]
  rfl

end Paths

section Build

variable (digests : Digests) (method region : Bytes) (creds : Credentials) (bucket key : Bytes) (now : ℤ)
  (contentType body : Bytes)

/-- The fields that `build_request` signs, as they are written. -/
def buildPicked : List (Bytes × Bytes) :=
  [(lit "Host", bucketHost bucket region), (lit "X-Amz-Content-Sha256", kUnsignedPayload),
    (lit "X-Amz-Date", amzDate now)] ++ tokenHeader (lit "X-Amz-Security-Token") creds

def buildHeaderNames (token typed : Bool) : List Bytes :=
  [lit "x-amz-content-sha256", lit "x-amz-date"] ++ (if token then [lit "x-amz-security-token"] else []) ++
    (if typed then [lit "content-type"] else []) ++ [lit "authorization", lit "user-agent"]

def buildSignedNames (token : Bool) : List Bytes :=
  [lit "host", lit "x-amz-content-sha256", lit "x-amz-date"] ++ (if token then [lit "x-amz-security-token"] else [])

/-- The names of an object request, in every combination of its optional headers. -/
theorem build_table (token typed measured : Bool) :
    NameTable (fieldNames (buildHeaderNames token typed) measured) (buildSignedNames token) := by
  cases token <;> cases typed <;> cases measured
  all_goals constructor <;> decide

/-- The header names of an object request. -/
theorem buildHeaderNames_eq :
    ((buildRequest digests method region creds bucket key now contentType body).headers.map fun f =>
      lowerName f.1) =
      buildHeaderNames (decide (creds.token ≠ [])) (decide (method = lit "PUT" ∧ contentType ≠ [])) := by
  have htype : (if method = lit "PUT" ∧ contentType ≠ [] then [(lit "Content-Type", contentType)] else []).map
      (fun f : Bytes × Bytes => lowerName f.1) =
      if decide (method = lit "PUT" ∧ contentType ≠ []) then [lit "content-type"] else [] := by
    by_cases h : method = lit "PUT" ∧ contentType ≠ []
    · rw [decide_eq_true h, if_pos h]
      rfl
    · rw [decide_eq_false h, if_neg h]
      rfl
  unfold buildRequest buildHeaderNames
  simp only [List.map_append]
  rw [lowerNames_tokenHeader, htype]
  rfl

/-- The names that an object request writes. -/
theorem buildNames_eq :
    ((written (buildRequest digests method region creds bucket key now contentType body)).fields.map fun f =>
      lowerName f.1) =
      fieldNames
        (buildHeaderNames (decide (creds.token ≠ [])) (decide (method = lit "PUT" ∧ contentType ≠ [])))
        (decide (lengthField (buildRequest digests method region creds bucket key now contentType body) ≠ [])) := by
  rw [fieldNames_eq, buildHeaderNames_eq]

/-- The names that an object request signs. -/
theorem buildSignedNames_eq :
    ((buildPicked region creds bucket now).map fun f => lowerName f.1) =
      buildSignedNames (decide (creds.token ≠ [])) := by
  unfold buildPicked
  rw [List.map_append, lowerNames_tokenHeader]
  rfl

/-- The headers signed in an object request are in order as they stand. -/
theorem buildHeaders_eq :
    sortHeaders ([(lit "host", bucketHost bucket region), (lit "x-amz-content-sha256", kUnsignedPayload),
      (lit "x-amz-date", amzDate now)] ++ tokenHeader (lit "x-amz-security-token") creds) =
      (buildPicked region creds bucket now).map lowered := by
  unfold buildPicked tokenHeader
  by_cases h : creds.token ≠ []
  · rw [if_pos h, if_pos h]
    rfl
  · rw [if_neg h, if_neg h]
    rfl

/-- An object request lists the names it signs. -/
theorem build_signedNames :
    (buildSigned digests method region creds bucket key now).names =
      SigV4.nameList (((buildPicked region creds bucket now).map lowered).map Prod.fst) := by
  show (canonicalHeaders (sortHeaders _)).2 = _
  rw [buildHeaders_eq]
  rfl

/-- An object request does not set its own length. -/
theorem build_unmeasured : lit "content-length" ∉
    (buildRequest digests method region creds bucket key now contentType body).headers.map fun f =>
      lowerName f.1 := by
  have hnames : ∀ token typed, lit "content-length" ∉ buildHeaderNames token typed := by decide
  rw [buildHeaderNames_eq]
  exact hnames _ _

/-- The canonical request of `build_request` is that of what is written. -/
theorem build_canonical :
    (buildSigned digests method region creds bucket key now).stringToSign =
      SigV4.stringToSign digests.sha256 (accountOf creds region (lit "s3")) (amzDate now)
        (SigV4.canonicalText digests.sha256
          (written (buildRequest digests method region creds bucket key now contentType body)) body
          ((buildPicked region creds bucket now).map lowered)) := by
  have hhash : SigV4.payloadHash digests.sha256
      (written (buildRequest digests method region creds bucket key now contentType body)).fields body =
        kUnsignedPayload := by
    have hdistinct : ((written (buildRequest digests method region creds bucket key now contentType body)).fields.map
        fun f => lowerName f.1).Nodup := by
      rw [buildNames_eq]
      exact (build_table _ _ _).distinct
    have hmem : (lit "X-Amz-Content-Sha256", kUnsignedPayload) ∈
        (written (buildRequest digests method region creds bucket key now contentType body)).fields := by
      apply mem_written_of_header
      simp [buildRequest]
    have hname : lowerName (lit "X-Amz-Content-Sha256") = lit "x-amz-content-sha256" := by decide
    have hvalues := HttpRequest.valuesOf_of_mem _ hdistinct _ hmem
    rw [hname] at hvalues
    unfold SigV4.payloadHash
    rw [hvalues]
    exact if_pos rfl
  show Signing.stringToSign digests (amzDate now) (scopeOf (amzDatestamp now) region (lit "s3"))
    (method ++ lit "\n" ++ objectPath key ++ lit "\n\n" ++ (canonicalHeaders (sortHeaders _)).1 ++ lit "\n" ++
      (canonicalHeaders (sortHeaders _)).2 ++ lit "\n" ++ kUnsignedPayload) = _
  rw [stringToSign_eq digests creds, buildHeaders_eq]
  congr 1
  unfold SigV4.canonicalText
  rw [hhash]
  show _ = method ++ lit "\n" ++ SigV4.canonicalUri (objectPath key) ++ lit "\n" ++
    SigV4.canonicalQuery (objectPath key) ++ lit "\n" ++ _ ++ lit "\n" ++ _ ++ lit "\n" ++ _
  rw [canonicalUri_objectPath, canonicalQuery_objectPath, List.append_nil]
  simp only [List.append_assoc]
  rfl

section Clean

variable (hmethod : Solid method) (hregion : Solid region) (hbucket : Solid bucket)
  (hcontentType : Solid contentType) (haccess : Solid creds.accessKey) (htoken : Solid creds.token)

include hmethod hregion hbucket hcontentType haccess htoken

/-- An object request is written plainly. -/
theorem build_plain :
    Plain (written (buildRequest digests method region creds bucket key now contentType body)) := by
  have hhost : Solid (bucketHost bucket region) :=
    Solid.append (Solid.append (Solid.append hbucket (by decide)) hregion) (by decide)
  have hunsigned : Solid kUnsignedPayload := by decide
  have hauthorization := plainField_authorization digests creds region (lit "s3") now
    ⟨haccess, hregion, by show Solid (lit "s3"); decide⟩
    (buildSigned digests method region creds bucket key now) _
    (build_signedNames digests method region creds bucket key now) (by
      rw [List.map_map]
      show ∀ name ∈ (buildPicked region creds bucket now).map fun f => lowerName f.1, Solid name
      rw [buildSignedNames_eq]
      exact fun name hname => ((build_table _ false false).clean name hname).1)
  apply plain_written
  · exact hmethod
  · exact solid_objectPath key
  · exact hhost
  · intro field hfield
    rcases List.mem_append.mp hfield with hfront | hlast
    · rcases List.mem_append.mp hfront with hfirst | htype
      · rcases List.mem_append.mp hfirst with hfirst | htok
        · simp only [List.mem_cons, List.not_mem_nil, or_false] at hfirst
          rcases hfirst with rfl | rfl
          · exact plainField (by decide) hunsigned
          · exact plainField (by decide) (solid_amzDate now)
        · exact plainField_tokenHeader creds htoken field htok
      · split_ifs at htype
        · rw [List.mem_singleton.mp htype]
          exact plainField (by decide) hcontentType
        · cases htype
    · simp only [List.mem_cons, List.not_mem_nil, or_false] at hlast
      rcases hlast with rfl | rfl
      · exact hauthorization
      · exact plainField (by decide) (by decide)

/-- An object request carries its signature. -/
theorem build_carries :
    Carries digests creds region (lit "s3") now
      (buildRequest digests method region creds bucket key now contentType body)
      (buildSigned digests method region creds bucket key now)
      ((buildPicked region creds bucket now).map lowered) := by
  have hunmeasured := build_unmeasured digests method region creds bucket key now contentType body
  have hhost : Solid (bucketHost bucket region) :=
    Solid.append (Solid.append (Solid.append hbucket (by decide)) hregion) (by decide)
  have hunsigned : Solid kUnsignedPayload := by decide
  have hplain := build_plain digests method region creds bucket key now contentType body hmethod hregion hbucket
    hcontentType haccess htoken
  constructor
  · apply signedAs_of_table (accountOf creds region (lit "s3")) ⟨haccess, hregion, by show Solid (lit "s3"); decide⟩
      _ now hplain
    · intro field hfield
      simp only [buildPicked, List.mem_append, List.mem_cons, List.not_mem_nil, or_false] at hfield
      rcases hfield with (rfl | rfl | rfl) | htok
      · exact List.mem_cons_self
      · apply mem_written_of_header
        simp [buildRequest]
      · apply mem_written_of_header
        simp [buildRequest]
      · exact mem_written_of_header _ _
          (List.mem_append_left _ (List.mem_append_left _ (List.mem_append_right _ htok)))
    · rw [buildNames_eq, buildSignedNames_eq]
      exact build_table _ _ _
    · intro field hfield
      simp only [buildPicked, List.mem_append, List.mem_cons, List.not_mem_nil, or_false] at hfield
      rcases hfield with (rfl | rfl | rfl) | htok
      · exact hhost
      · exact hunsigned
      · exact solid_amzDate now
      · exact solid_tokenHeader creds htoken _ field htok
    · simp [buildPicked]
    · exact hunmeasured
  · exact build_signedNames digests method region creds bucket key now
  · exact build_canonical digests method region creds bucket key now contentType body
  · exact List.mem_append_right _ List.mem_cons_self
  · exact hunmeasured

end Clean

end Build

/-! ## Both builders -/

/-- **What is signed is what is sent.** The service that knows the account reads the request,
obtains the string that was signed and accepts; the path of an object is its key.
SRC: aws.cpp:219-279, s3.cpp:62-111, http.cpp:550-563, util.cpp:286-302 -/
theorem signed_as_sent (digests : Digests) (creds : Credentials) (region : Bytes) (now : ℤ)
    (hregion : Solid region) (haccess : Solid creds.accessKey) (htoken : Solid creds.token) :
    (∀ service targetPrefix operation body req, Solid service → Solid (targetPrefix ++ lit "." ++ operation) →
      call digests service targetPrefix operation region creds body now = .ok req →
      verify digests.sha256 digests.hmacSha256 (accountOf creds region service) (requestText req) =
        some ⟨(callSigned digests service targetPrefix operation region creds body now).stringToSign, true⟩) ∧
    ∀ method bucket key contentType body, method = lit "GET" ∨ method = lit "PUT" → Solid bucket → Solid contentType →
      verify digests.sha256 digests.hmacSha256 (accountOf creds region (lit "s3"))
          (requestText (buildRequest digests method region creds bucket key now contentType body)) =
        some ⟨(buildSigned digests method region creds bucket key now).stringToSign, true⟩ ∧
      PercentEncoding.decode (buildRequest digests method region creds bucket key now contentType body).path =
        lit "/" ++ key := by
  constructor
  · intro service targetPrefix operation body req hservice htarget h
    unfold call at h
    split_ifs at h
    cases h
    exact verify_requestText digests creds region service now _ _ _
      (call_carries digests service targetPrefix operation region creds body now hservice htarget hregion haccess
        htoken)
  · intro method bucket key contentType body hmethod hbucket hcontentType
    have hword : Solid method := by
      cases hmethod with
      | inl h => exact h ▸ (show Solid (lit "GET") by decide)
      | inr h => exact h ▸ (show Solid (lit "PUT") by decide)
    constructor
    · exact verify_requestText digests creds region (lit "s3") now _ _ _
        (build_carries digests method region creds bucket key now contentType body hword hregion hbucket hcontentType
          haccess htoken)
    · exact decode_objectPath key

/-- Digests of four bytes, and credentials of an instance role. -/
def exampleDigests : Digests where
  sha256 := fun s => s.take 4
  hmacSha256 := fun key s => (key ++ s).take 4

def exampleCredentials : Credentials where
  accessKey := lit "ASIAEXAMPLE"
  secretKey := lit "secret/key"
  token := lit "IQoJb3JpZ2luX2Vj=="

/-- A reply, and an upload of a key with a space in it. -/
theorem example_as_sent :
    verify exampleDigests.sha256 exampleDigests.hmacSha256
        (accountOf exampleCredentials (lit "eu-west-1") (lit "ec2messages"))
        (requestText (callRequest exampleDigests (lit "ec2messages") (lit "EC2WindowsMessageDeliveryService_v20150723")
          (lit "SendReply") (lit "eu-west-1") exampleCredentials (lit "payload") 1787274535)) =
      some ⟨(callSigned exampleDigests (lit "ec2messages") (lit "EC2WindowsMessageDeliveryService_v20150723")
        (lit "SendReply") (lit "eu-west-1") exampleCredentials (lit "payload") 1787274535).stringToSign, true⟩ ∧
    verify exampleDigests.sha256 exampleDigests.hmacSha256
        (accountOf exampleCredentials (lit "eu-west-1") (lit "s3"))
        (requestText (buildRequest exampleDigests (lit "PUT") (lit "eu-west-1") exampleCredentials (lit "logs")
          (lit "i-1/std out") 1787274535 (lit "text/plain") (lit "content"))) =
      some ⟨(buildSigned exampleDigests (lit "PUT") (lit "eu-west-1") exampleCredentials (lit "logs")
        (lit "i-1/std out") 1787274535).stringToSign, true⟩ := by
  have h := signed_as_sent exampleDigests exampleCredentials (lit "eu-west-1") 1787274535 (by decide) (by decide)
    (by decide)
  exact ⟨h.1 _ _ _ _ _ (by decide) (by decide) rfl,
    (h.2 (lit "PUT") (lit "logs") (lit "i-1/std out") (lit "text/plain") (lit "content") (Or.inr rfl) (by decide)
      (by decide)).1⟩

end HaikuAgent.Analysis.SignedRequests
