import HaikuAgent.Model.S3
import HaikuAgent.Model.SelfUpdate

/-!
# Where an update comes from (`selfupdate.cpp`)

`fetch_manifest` and `download`: an S3 transfer for an address `s3://`, a plain request for one
`https://`. A `Network` holds what a check meets; `machineOf` is the machine that `check_and_apply`
runs on with it, and `asked` what is sent on the way.
-/

set_option autoImplicit false

namespace HaikuAgent.Model.UpdateFetch

open HaikuAgent.Foundation
open HaikuAgent.Model.Json (Double)
open HaikuAgent.Model.CredentialProvider (Credentials)
open HaikuAgent.Model.S3 (Outgoing Meeting Done parseUri)
open HaikuAgent.Model.SelfUpdate

/-- SRC: http.h:22, selfupdate.cpp:66 -/
def kDefaultTimeoutMs : ℕ := 25000
def kDownloadTimeoutMs : ℕ := 120000

def https : Bytes := lit "https://"

/-- The request for an address `https://`.
SRC: selfupdate.cpp:28-34, 58-66 -/
def httpsRequest (url : Bytes) (timeoutMs : ℕ) (sinkPath : Bytes) : Outgoing :=
  let rest := url.drop https.length
  let (host, path) := match find rest [47] 0 with
    | none => (rest, lit "/")
    | some slash => (rest.take slash, rest.drop slash)
  { request := ⟨lit "GET", host, path, [], []⟩
    timeoutMs
    bodyPath := []
    sinkPath }

/-- What the network and the machine do during a check. -/
structure Network where
  digests : Signing.Digests
  region : Bytes
  /-- the provider's cache when the check begins -/
  cached : Credentials
  /-- what the S3 transfers of the manifest and of the artifact meet, and what other threads ask
  the provider for in between -/
  manifest : Meeting
  between : List CredentialProvider.Event
  artifact : Meeting
  /-- what a request for an address `https://` is answered -/
  perform : Outgoing → Http.Response
  /-- what is at the path of the artifact after its download -/
  stored : Option Bytes
  /-- what the calls of the update itself return -/
  calls : Machine

/-- What came of a request for a file: its response, the provider's cache then, and what was sent. -/
structure Fetched where
  text : Except Bytes Bytes
  cached : Credentials
  sent : List Outgoing

/-- SRC: selfupdate.cpp:36, 69 -/
def httpsError (url : Bytes) (resp : Http.Response) : Bytes :=
  lit "GET " ++ url ++ lit ": status=" ++ toStringInt resp.status ++ lit " " ++ resp.error

/-- SRC: selfupdate.cpp:51, 86 -/
def s3Error (url : Bytes) (resp : Http.Response) : Bytes :=
  lit "s3 get " ++ url ++ lit ": status=" ++ toStringInt resp.status ++ lit " " ++ resp.error ++ lit " " ++
    clip resp.body 300 (lit "...")

/-- The body of a response, or its error. -/
def checked (resp : Http.Response) (err : Bytes) : Except Bytes Bytes := if resp.ok then .ok resp.body else .error err

/-- The text of the manifest.
SRC: selfupdate.cpp:24-41, 79-93 -/
def manifestText (strtod : Bytes → Double × ℕ) (n : Network) (uri : Bytes) : Fetched :=
  match parseUri uri with
  | some (bucket, key) =>
    let r := S3.get strtod n.digests n.region bucket key [] n.cached n.manifest
    ⟨checked r.resp (s3Error uri r.resp), r.cached, r.sent⟩
  | none =>
    if startsWith uri https then
      let out := httpsRequest uri kDefaultTimeoutMs []
      let resp := n.perform out
      ⟨checked resp (httpsError uri resp), n.cached, [out]⟩
    else ⟨.error (lit "unsupported URL scheme: " ++ uri), n.cached, []⟩

/-- `download` to the path `dest`; the error is empty where it succeeds.
SRC: selfupdate.cpp:44-75 -/
def download (strtod : Bytes → Double × ℕ) (n : Network) (cached : Credentials) (url dest : Bytes) :
    Bytes × List Outgoing :=
  match parseUri url with
  | some (bucket, key) =>
    let r := S3.get strtod n.digests n.region bucket key dest
      (runFrom (CredentialProvider.next strtod) cached n.between) n.artifact
    (if r.resp.ok then [] else s3Error url r.resp, r.sent)
  | none =>
    if startsWith url https then
      let out := httpsRequest url kDownloadTimeoutMs dest
      let resp := n.perform out
      (if resp.ok then [] else httpsError url resp, [out])
    else (lit "unsupported artifact URL: " ++ url, [])

/-- The manifest that a check goes by, where it comes to one and it is newer. -/
def newerManifest (strtod : Bytes → Double × ℕ) (n : Network) (uri currentVersion : Bytes) : Option Manifest :=
  match (manifestText strtod n uri).text.bind (parseManifest strtod) with
  | .ok m => if versionCompare m.version currentVersion ≤ 0 then none else some m
  | .error _ => none

/-- What the download of a check returns. -/
def artifactOf (strtod : Bytes → Double × ℕ) (n : Network) (uri : Bytes) (m : Manifest) : Bytes × List Outgoing :=
  download strtod n (manifestText strtod n uri).cached m.url (artifactPath m.url)

/-- The machine of `check_and_apply`. -/
def machineOf (strtod : Bytes → Double × ℕ) (n : Network) (uri currentVersion : Bytes) : Machine :=
  { n.calls with
    manifest := (manifestText strtod n uri).text
    downloaded := match newerManifest strtod n uri currentVersion with
      | some m => (n.stored, (artifactOf strtod n uri m).1)
      | none => (none, []) }

/-- What is sent during a check.
SRC: selfupdate.cpp:112-139 -/
def asked (strtod : Bytes → Double × ℕ) (n : Network) (uri currentVersion : Bytes) : List Outgoing :=
  (manifestText strtod n uri).sent ++
    match newerManifest strtod n uri currentVersion with
    | some m => (artifactOf strtod n uri m).2
    | none => []

end HaikuAgent.Model.UpdateFetch
