import Mathlib.Data.List.Sort
import HaikuAgent.Foundation.PercentEncoding
import HaikuAgent.Interface.HttpRequest

/-!
# A verifier of SigV4 signatures

A service that knows an account rebuilds the string to sign from the request it read: the
request line, the fields that `SignedHeaders` lists, and the body. It compares the signature
it computes with the one in the request. A request that was signed as it is written is accepted
(`verify_render`).

SHA-256 and HMAC are arbitrary functions.
-/

set_option autoImplicit false

namespace HaikuAgent.Interface.SigV4

open HaikuAgent.Foundation
open HaikuAgent.Interface.HttpRequest

/-- What the service knows. -/
structure Account where
  accessKey : Bytes
  secretKey : Bytes
  region : Bytes
  service : Bytes

/-- What an `Authorization` value says. -/
structure Authorization where
  credential : Bytes
  signedHeaders : List Bytes
  signature : Bytes

structure Verdict where
  stringToSign : Bytes
  accepted : Bool
  deriving DecidableEq

variable (sha256 : Bytes → Bytes) (hmac : Bytes → Bytes → Bytes)

/-- A lower-case hexadecimal digit. -/
def hexDigit (n : ℕ) : UInt8 := UInt8.ofNat (if n < 10 then 48 + n else 87 + n)

def hexText (s : Bytes) : Bytes := s.flatMap fun b => [hexDigit (b.toNat / 16), hexDigit (b.toNat % 16)]

/-! ## The canonical request -/

/-- RFC 3986 encoding of what the path stands for. -/
def canonicalUri (target : Bytes) : Bytes :=
  PercentEncoding.encode PercentEncoding.isPathByte (PercentEncoding.decode (target.takeWhile (· ≠ 63)))

def canonicalParameter (parameter : Bytes) : Bytes :=
  let again := fun s => PercentEncoding.encode PercentEncoding.isUnreserved (PercentEncoding.decode s)
  again (parameter.takeWhile (· ≠ 61)) ++ lit "=" ++ again ((parameter.dropWhile (· ≠ 61)).drop 1)

/-- The parameters after the question mark, encoded and in order. -/
def canonicalQuery (target : Bytes) : Bytes :=
  match (target.dropWhile (· ≠ 63)).drop 1 with
  | [] => []
  | query => [38].intercalate (((query.splitOn 38).map canonicalParameter).insertionSort (· ≤ ·))

/-- Runs of spaces count as one. -/
def collapse : Bytes → Bytes
  | 32 :: 32 :: rest => collapse (32 :: rest)
  | b :: rest => b :: collapse rest
  | [] => []

/-- One line for each name; a name without a field is an error. -/
def canonicalLines (fields : List (Bytes × Bytes)) : List Bytes → Option Bytes
  | [] => some []
  | name :: names =>
    match valuesOf fields name, canonicalLines fields names with
    | value :: values, some lines =>
      some (name ++ lit ":" ++ [44].intercalate ((value :: values).map collapse) ++ lit "\n" ++ lines)
    | _, _ => none

def nameList (names : List Bytes) : Bytes := [59].intercalate names

/-- The hash of the content, or what the request puts in its place. -/
def payloadHash (fields : List (Bytes × Bytes)) (body : Bytes) : Bytes :=
  if valuesOf fields (lit "x-amz-content-sha256") = [lit "UNSIGNED-PAYLOAD"] then lit "UNSIGNED-PAYLOAD"
  else hexText (sha256 body)

def canonicalRequest (r : Request) (body : Bytes) (names : List Bytes) : Option Bytes :=
  match canonicalLines r.fields names with
  | some lines =>
    some (r.method ++ lit "\n" ++ canonicalUri r.target ++ lit "\n" ++ canonicalQuery r.target ++ lit "\n" ++ lines ++
      lit "\n" ++ nameList names ++ lit "\n" ++ payloadHash sha256 r.fields body)
  | none => none

/-! ## The signature -/

def scope (account : Account) (date : Bytes) : Bytes :=
  date ++ lit "/" ++ account.region ++ lit "/" ++ account.service ++ lit "/aws4_request"

def stringToSign (account : Account) (dateTime canonical : Bytes) : Bytes :=
  lit "AWS4-HMAC-SHA256\n" ++ dateTime ++ lit "\n" ++ scope account (dateTime.takeWhile (· ≠ 84)) ++ lit "\n" ++
    hexText (sha256 canonical)

def signature (account : Account) (date text : Bytes) : Bytes :=
  let key := hmac (hmac (hmac (hmac (lit "AWS4" ++ account.secretKey) date) account.region) account.service)
    (lit "aws4_request")
  hexText (hmac key text)

/-! ## The verdict -/

/-- The value of a parameter of that name. -/
def readParameter (name word : Bytes) : Option Bytes :=
  if name <+: word then some (word.drop name.length) else none

/-- A parameter that another one follows. -/
def dropComma (word : Bytes) : Option Bytes := if word.getLast? = some 44 then some word.dropLast else none

def readAuthorization (value : Bytes) : Option Authorization :=
  match value.splitOn 32 with
  | [algorithm, credential, signedHeaders, signature] =>
    if algorithm = lit "AWS4-HMAC-SHA256" then
      match (readParameter (lit "Credential=") credential).bind dropComma,
        (readParameter (lit "SignedHeaders=") signedHeaders).bind dropComma,
        readParameter (lit "Signature=") signature with
      | some credential, some names, some signature =>
        some { credential, signedHeaders := names.splitOn 59, signature }
      | _, _, _ => none
    else none
  | _ => none

/-- The host and every `X-Amz-` field are signed. -/
def Covers (names : List Bytes) (fields : List (Bytes × Bytes)) : Prop :=
  lit "host" ∈ names ∧ ∀ field ∈ fields, lit "x-amz-" <+: lowerName field.1 → lowerName field.1 ∈ names

instance decidableCovers (names : List Bytes) (fields : List (Bytes × Bytes)) : Decidable (Covers names fields) :=
  inferInstanceAs (Decidable (_ ∧ _))

/-- The string the service computes from what it received, and whether it accepts. -/
def verify (account : Account) (wire : Bytes) : Option Verdict :=
  match HttpRequest.read wire with
  | none => none
  | some r =>
    match valuesOf r.fields (lit "authorization"), valuesOf r.fields (lit "x-amz-date"), content r with
    | [value], [dateTime], some body =>
      match readAuthorization value with
      | none => none
      | some authorization =>
        let names := authorization.signedHeaders.insertionSort (· ≤ ·)
        match canonicalRequest sha256 r body names with
        | none => none
        | some canonical =>
          let date := dateTime.takeWhile (· ≠ 84)
          let text := stringToSign sha256 account dateTime canonical
          some
            { stringToSign := text
              accepted := decide (Covers names r.fields ∧
                authorization.credential = account.accessKey ++ lit "/" ++ scope account date ∧
                authorization.signature = signature hmac account date text) }
    | _, _, _ => none

/-! ## What is accepted -/

/-- The value of `Authorization` that a holder of the secret writes. -/
def authorizationText (account : Account) (date : Bytes) (names : List Bytes) (text : Bytes) : Bytes :=
  lit "AWS4-HMAC-SHA256 Credential=" ++ (account.accessKey ++ lit "/" ++ scope account date) ++
    lit ", SignedHeaders=" ++ nameList names ++ lit ", Signature=" ++ signature hmac account date text

/-- The lines of the fields that are signed. -/
def signedLines (signed : List (Bytes × Bytes)) : Bytes :=
  signed.flatMap fun f => f.1 ++ lit ":" ++ f.2 ++ lit "\n"

/-- The canonical request of what is written. -/
def canonicalText (r : Request) (body : Bytes) (signed : List (Bytes × Bytes)) : Bytes :=
  r.method ++ lit "\n" ++ canonicalUri r.target ++ lit "\n" ++ canonicalQuery r.target ++ lit "\n" ++
    signedLines signed ++ lit "\n" ++ nameList (signed.map Prod.fst) ++ lit "\n" ++
    payloadHash sha256 r.fields body

/-- A parameter is read behind its name. -/
theorem readParameter_append (name value : Bytes) : readParameter name (name ++ value) = some value := by
  unfold readParameter
  rw [if_pos (List.prefix_append name value), List.drop_left]

/-- The comma behind a value is dropped. -/
theorem dropComma_append (value : Bytes) : dropComma (value ++ [44]) = some value := by
  unfold dropComma
  rw [if_pos List.getLast?_concat, List.dropLast_concat]

/-- Names without whitespace are listed without it. -/
theorem solid_nameList (names : List Bytes) (h : ∀ name ∈ names, Solid name) : Solid (nameList names) := by
  have hseparator : Solid ([59] : Bytes) := by decide
  induction names with
  | nil => exact fun _ hb => nomatch hb
  | cons name names ih =>
    obtain ⟨hname, hnames⟩ := List.forall_mem_cons.mp h
    cases names with
    | nil =>
      show Solid ([59].intercalate [name])
      rw [List.intercalate_singleton]
      exact hname
    | cons next names =>
      show Solid ([59].intercalate (name :: next :: names))
      rw [List.intercalate_cons_cons]
      exact Solid.append (Solid.append hname hseparator) (ih hnames)

/-- Hexadecimal digits are no whitespace. -/
theorem solid_hexText (s : Bytes) : Solid (hexText s) := by
  have hdigit : ∀ n : Fin 16, Solid [hexDigit n] := by decide
  intro b hb
  obtain ⟨c, -, hc⟩ := List.mem_flatMap.mp hb
  simp only [List.mem_cons, List.not_mem_nil, or_false] at hc
  cases hc with
  | inl h => exact hdigit ⟨c.toNat / 16, Nat.div_lt_of_lt_mul c.toNat_lt⟩ b (List.mem_singleton.mpr h)
  | inr h => exact hdigit ⟨c.toNat % 16, Nat.mod_lt _ (by decide)⟩ b (List.mem_singleton.mpr h)

/-- No word of the account breaks the header. -/
structure Account.Clean (account : Account) : Prop where
  accessKey : Solid account.accessKey
  region : Solid account.region
  service : Solid account.service

/-- The scope of a clean account has no whitespace. -/
theorem solid_scope {account : Account} (h : account.Clean) (date : Bytes) (hdate : Solid date) :
    Solid (scope account date) := by
  have hslash : Solid (lit "/") := by decide
  have hrequest : Solid (lit "/aws4_request") := by decide
  unfold scope
  apply Solid.append
  · exact Solid.append (Solid.append (Solid.append (Solid.append hdate hslash) h.region) hslash) h.service
  · exact hrequest

/-- The `Authorization` field of a clean account is read as it was written. -/
theorem readAuthorization_text {account : Account} (h : account.Clean) (date : Bytes) (hdate : Solid date)
    (names : List Bytes) (hne : names ≠ []) (hnames : ∀ name ∈ names, Solid name ∧ (59 : UInt8) ∉ name)
    (text : Bytes) :
    readAuthorization (authorizationText hmac account date names text) =
      some
        { credential := account.accessKey ++ lit "/" ++ scope account date
          signedHeaders := names
          signature := signature hmac account date text } := by
  let credential := account.accessKey ++ lit "/" ++ scope account date
  let words := [lit "AWS4-HMAC-SHA256", lit "Credential=" ++ (credential ++ [44]),
    lit "SignedHeaders=" ++ (nameList names ++ [44]), lit "Signature=" ++ signature hmac account date text]
  have hcomma : Solid ([44] : Bytes) := by decide
  have hcredential : Solid credential :=
    Solid.append (Solid.append h.accessKey (by decide)) (solid_scope h date hdate)
  have hlist : Solid (nameList names) := solid_nameList names fun name hname => (hnames name hname).1
  have hwords : ∀ word ∈ words, (32 : UInt8) ∉ word := by
    have hsolid : ∀ word ∈ words, Solid word := by
      intro word hword
      simp only [words, List.mem_cons, List.not_mem_nil, or_false] at hword
      rcases hword with rfl | rfl | rfl | rfl
      · decide
      · exact Solid.append (by decide) (Solid.append hcredential hcomma)
      · exact Solid.append (by decide) (Solid.append hlist hcomma)
      · exact Solid.append (by decide) (solid_hexText _)
    exact fun word hword => (hsolid word hword).notMem 32 (by decide)
  have htext : authorizationText hmac account date names text = [32].intercalate words := by
    simp [authorizationText, words, credential, List.intercalate, lit]
  have hsplit : (nameList names).splitOn 59 = names :=
    List.splitOn_intercalate 59 (fun name hname => (hnames name hname).2) hne
  unfold readAuthorization
  rw [htext, List.splitOn_intercalate 32 hwords (List.cons_ne_nil _ _)]
  simp only [words, readParameter_append, Option.bind_some, dropComma_append, if_true, hsplit]
  rfl

/-- A value without spaces is not collapsed. -/
theorem collapse_eq (s : Bytes) (h : (32 : UInt8) ∉ s) : collapse s = s := by
  induction s with
  | nil => rfl
  | cons b s ih =>
    rw [List.mem_cons, not_or] at h
    rw [collapse, ih h.2]
    intro rest hb
    exact absurd hb.symm h.1

/-- A request that is signed as it is written: each signed field is in it, once. -/
structure SignedAs (account : Account) (r : Request) (body dateTime : Bytes) (signed : List (Bytes × Bytes)) :
    Prop where
  plain : Plain r
  clean : account.Clean
  content : content r = some body
  distinct : (r.fields.map fun f => lowerName f.1).Nodup
  written : ∀ f ∈ signed, ∃ field ∈ r.fields, lowerName field.1 = f.1 ∧ field.2 = f.2
  values : ∀ f ∈ signed, Solid f.2
  names : ∀ f ∈ signed, Solid f.1 ∧ (59 : UInt8) ∉ f.1
  ordered : (signed.map Prod.fst).insertionSort (· ≤ ·) = signed.map Prod.fst
  covers : Covers (signed.map Prod.fst) r.fields
  date : (lit "x-amz-date", dateTime) ∈ signed

/-- The value of `Authorization` is read whole. -/
theorem plainField_authorizationText {account : Account} (h : account.Clean) (date : Bytes) (hdate : Solid date)
    (names : List Bytes) (hnames : ∀ name ∈ names, Solid name) (text : Bytes) :
    PlainField (lit "Authorization", authorizationText hmac account date names text) := by
  let start := lit "AWS4-HMAC-SHA256 Credential=" ++ (account.accessKey ++ lit "/" ++ scope account date) ++
    lit ", SignedHeaders=" ++ nameList names ++ lit ", "
  let word := lit "Signature=" ++ signature hmac account date text
  have hword : Solid word := Solid.append (by decide) (solid_hexText _)
  have hsplit : authorizationText hmac account date names text = start ++ word := by
    simp [authorizationText, start, word, lit]
  have hcredential : Solid (account.accessKey ++ lit "/" ++ scope account date) :=
    Solid.append (Solid.append h.accessKey (by decide)) (solid_scope h date hdate)
  have hline : (13 : UInt8) ∉ start := by
    have hname := (solid_nameList names hnames).notMem 13 (by decide)
    have haccess := hcredential.notMem 13 (by decide)
    have halgorithm : (13 : UInt8) ∉ lit "AWS4-HMAC-SHA256 Credential=" := by decide
    have hlist : (13 : UInt8) ∉ lit ", SignedHeaders=" := by decide
    have hnext : (13 : UInt8) ∉ lit ", " := by decide
    simp only [start, List.mem_append, not_or] at *
    exact ⟨⟨⟨⟨halgorithm, haccess⟩, hlist⟩, hname⟩, hnext⟩
  constructor
  · show Solid (lit "Authorization")
    decide
  · exact List.cons_ne_nil _ _
  · show (58 : UInt8) ∉ lit "Authorization"
    decide
  · show (13 : UInt8) ∉ authorizationText hmac account date names text
    rw [hsplit, List.mem_append, not_or]
    exact ⟨hline, hword.notMem 13 (by decide)⟩
  · show trimBlanks (authorizationText hmac account date names text) = _
    rw [hsplit]
    apply trimBlanks_append start word _ hword
    · intro b hb
      cases hb
      decide
    · exact List.cons_ne_nil _ _

section Accepted

variable {account : Account} {r : Request} {body dateTime : Bytes} {signed : List (Bytes × Bytes)}

/-- Each signed field is the one value of its name in the request. -/
theorem SignedAs.valuesOf_eq (h : SignedAs account r body dateTime signed) (f : Bytes × Bytes) (hf : f ∈ signed) :
    valuesOf r.fields f.1 = [f.2] := by
  obtain ⟨field, hfield, hname, hvalue⟩ := h.written f hf
  rw [← hname, valuesOf_of_mem r.fields h.distinct field hfield, hvalue]

/-- So the lines that a verifier makes of the fields are those that were signed. -/
theorem SignedAs.canonicalLines_eq (h : SignedAs account r body dateTime signed) (part : List (Bytes × Bytes))
    (hpart : part ⊆ signed) : canonicalLines r.fields (part.map Prod.fst) = some (signedLines part) := by
  induction part with
  | nil => rfl
  | cons f part ih =>
    have hf : f ∈ signed := hpart List.mem_cons_self
    have hcollapse : collapse f.2 = f.2 := collapse_eq f.2 ((h.values f hf).notMem 32 (by decide))
    rw [List.map_cons, canonicalLines, h.valuesOf_eq f hf, ih fun g hg => hpart (List.mem_cons_of_mem f hg)]
    dsimp only
    rw [List.map_cons, List.map_nil, List.intercalate_singleton, hcollapse]
    rfl

/-- What is written as it was signed is accepted. -/
theorem verify_render (h : SignedAs account r body dateTime signed) (text : Bytes)
    (htext : text = stringToSign sha256 account dateTime (canonicalText sha256 r body signed))
    (field : Bytes × Bytes) (hfield : field ∈ r.fields) (hname : lowerName field.1 = lit "authorization")
    (hvalue : field.2 =
      authorizationText hmac account (dateTime.takeWhile (· ≠ 84)) (signed.map Prod.fst) text) :
    verify sha256 hmac account (render r) = some ⟨text, true⟩ := by
  have hdate : Solid (dateTime.takeWhile (· ≠ 84)) := fun b hb =>
    h.values _ h.date b (List.takeWhile_subset _ hb)
  have hne : signed.map Prod.fst ≠ [] := List.ne_nil_of_mem (List.mem_map_of_mem h.date)
  have hnames : ∀ name ∈ signed.map Prod.fst, Solid name ∧ (59 : UInt8) ∉ name := by
    intro name hmem
    obtain ⟨f, hf, rfl⟩ := List.mem_map.mp hmem
    exact h.names f hf
  have hauthorization : valuesOf r.fields (lit "authorization") = [field.2] := by
    rw [← hname]
    exact valuesOf_of_mem r.fields h.distinct field hfield
  have hread := readAuthorization_text hmac h.clean _ hdate (signed.map Prod.fst) hne hnames text
  have hcanonical : canonicalRequest sha256 r body (signed.map Prod.fst) =
      some (canonicalText sha256 r body signed) := by
    unfold canonicalRequest
    rw [h.canonicalLines_eq signed (List.Subset.refl signed)]
    rfl
  unfold verify
  rw [read_render r h.plain]
  dsimp only
  rw [hauthorization, h.valuesOf_eq _ h.date, h.content]
  dsimp only
  rw [hvalue, hread]
  dsimp only
  rw [h.ordered, hcanonical]
  dsimp only
  rw [← htext, decide_eq_true ⟨h.covers, rfl, rfl⟩]

end Accepted

end HaikuAgent.Interface.SigV4
