import HaikuAgent.Foundation.Runs
import HaikuAgent.Model.CredentialProvider
import HaikuAgent.Model.Http

/-!
# Objects in S3 (`s3.cpp`)

`s3::get` and `s3::put` are one transfer with their own values: an attempt, and a second one after
a response that says that the credentials have expired. The provider is shared, so that other
threads may use it between the calls a transfer makes of it.
-/

set_option autoImplicit false

namespace HaikuAgent.Model.S3

open HaikuAgent.Foundation
open HaikuAgent.Model.Json (Double)
open HaikuAgent.Model.CredentialProvider (Event)

/-- SRC: s3.cpp:19 -/
def kTransferTimeoutMs : ℕ := 120000

/-- `parse_uri`: the bucket and the key.
SRC: s3.cpp:51-60 -/
def parseUri (uri : Bytes) : Option (Bytes × Bytes) :=
  let pre := lit "s3://"
  if startsWith uri pre = false then none
  else
    let rest := uri.drop pre.length
    match find rest [47] 0 with
    | none => none
    | some slash =>
      if slash = 0 ∨ rest.length ≤ slash + 1 then none
      else some (rest.take slash, rest.drop (slash + 1))

/-- SRC: s3.cpp:21-26 -/
def expiredToken (r : Http.Response) : Bool :=
  if r.status ≠ 400 ∧ r.status ≠ 403 then false
  else
    (find r.body (lit "ExpiredToken") 0).isSome || (find r.body (lit "InvalidToken") 0).isSome ||
      (find r.body (lit "TokenRefreshRequired") 0).isSome

/-- The parameters of `transfer_once`.
SRC: s3.cpp:28-32 -/
structure Transfer where
  method : Bytes
  region : Bytes
  bucket : Bytes
  key : Bytes
  bodyPath : Bytes
  content : Bytes
  sinkPath : Bytes
  contentType : Bytes

/-- What is given to `http::perform`. -/
structure Outgoing where
  request : Signing.Request
  timeoutMs : ℕ
  bodyPath : Bytes
  sinkPath : Bytes

/-- SRC: s3.cpp:40-46 -/
def outgoing (digests : Signing.Digests) (t : Transfer) (creds : CredentialProvider.Credentials) (now : ℤ) :
    Outgoing :=
  { request := Signing.buildRequest digests t.method t.region creds.toCredentials t.bucket t.key now t.contentType
      (if t.bodyPath = [] then t.content else [])
    timeoutMs := kTransferTimeoutMs
    bodyPath := t.bodyPath
    sinkPath := t.sinkPath }

/-- What an attempt meets: IMDS and the clock while it gets the credentials, the clock when the
request is signed, and what the service answers. -/
structure Attempt where
  imds : Bytes → Bytes
  now : ℤ
  later : ℤ
  signedAt : ℤ
  perform : Outgoing → Http.Response

/-- The call of the provider that an attempt makes.
SRC: s3.cpp:34-35 -/
def Attempt.call (a : Attempt) : CredentialProvider.Call := ⟨a.imds, a.now, a.later, CredentialProvider.Credentials.init⟩

/-- What a transfer returns, what is in the cache then, and what it has sent. -/
structure Done where
  resp : Http.Response
  cached : CredentialProvider.Credentials
  sent : List Outgoing

/-- SRC: s3.cpp:33-38 -/
def offline : Http.Response := { Http.Response.init with error := lit "no credentials available" }

/-- SRC: s3.cpp:28-47 -/
def transferOnce (strtod : Bytes → Double × ℕ) (digests : Signing.Digests) (t : Transfer)
    (cached : CredentialProvider.Credentials) (a : Attempt) : Done :=
  let got := CredentialProvider.get strtod cached a.call
  if got.ok = false then ⟨offline, got.cached, []⟩
  else
    let out := outgoing digests t got.out a.signedAt
    ⟨a.perform out, got.cached, [out]⟩

/-- What a transfer meets: its attempts, and the calls that others make of the provider while the
first one is under way, and after its `invalidate`. -/
structure Meeting where
  first : Attempt
  during : List Event
  between : List Event
  second : Attempt

/-- The body of `get` and `put`.
SRC: s3.cpp:116-122, 129-136 -/
def transfer (strtod : Bytes → Double × ℕ) (digests : Signing.Digests) (t : Transfer)
    (cached : CredentialProvider.Credentials) (m : Meeting) : Done :=
  let r := transferOnce strtod digests t cached m.first
  if expiredToken r.resp then
    let cached := runFrom (CredentialProvider.next strtod) r.cached (m.during ++ Event.invalidate :: m.between)
    let again := transferOnce strtod digests t cached m.second
    { again with sent := r.sent ++ again.sent }
  else r

/-- SRC: s3.cpp:113-123 -/
def get (strtod : Bytes → Double × ℕ) (digests : Signing.Digests) (region bucket key destPath : Bytes)
    (cached : CredentialProvider.Credentials) (m : Meeting) : Done :=
  transfer strtod digests ⟨lit "GET", region, bucket, key, [], [], destPath, []⟩ cached m

/-- SRC: s3.cpp:125-137 -/
def put (strtod : Bytes → Double × ℕ) (digests : Signing.Digests)
    (region bucket key srcPath content contentType : Bytes) (cached : CredentialProvider.Credentials) (m : Meeting) :
    Done :=
  transfer strtod digests ⟨lit "PUT", region, bucket, key, srcPath, content, [], contentType⟩ cached m

end HaikuAgent.Model.S3
