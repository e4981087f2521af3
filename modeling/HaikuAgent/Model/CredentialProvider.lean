import HaikuAgent.Model.Json
import HaikuAgent.Model.JsonParse
import HaikuAgent.Model.Signing

/-!
# The credentials of the instance (`aws.cpp`)

`Imds::credentials` and the provider that caches what it fetched. Both functions of the
provider hold its mutex from beginning to end, so that calls are one after the other.
-/

set_option autoImplicit false

namespace HaikuAgent.Model.CredentialProvider

open HaikuAgent.Foundation
open HaikuAgent.Model.Json

/-- SRC: aws.h:21-25 -/
structure Credentials extends Signing.Credentials where
  expiresAt : ℤ

/-- `Credentials()` -/
def Credentials.init : Credentials := ⟨⟨[], [], []⟩, 0⟩

/-- SRC: aws.h:29-31 -/
def Credentials.stale (creds : Credentials) (now margin : ℤ) : Bool :=
  creds.empty ∨ creds.expiresAt ≠ 0 ∧ creds.expiresAt ≤ now + margin

/-- The margin that `stale` has by default.
SRC: aws.h:29 -/
def refreshMargin : ℤ := 300

def rolePath : Bytes := lit "/latest/meta-data/iam/security-credentials/"

/-- What a function that reads from IMDS returns, what it leaves in its output, and the paths
that it asks for. -/
structure Fetch where
  ok : Bool
  out : Credentials
  asked : List Bytes

/-- `imds` is what `Imds::get` returns for a path; it is empty where the request fails.
SRC: aws.cpp:109-140 -/
def credentials (strtod : Bytes → Double × ℕ) (imds : Bytes → Bytes) (out : Credentials) : Fetch :=
  let role := trim (imds rolePath)
  if role = [] then ⟨false, out, [rolePath]⟩
  else
    let role := trim ((split role 10).headD [])
    let asked := [rolePath, rolePath ++ role]
    let body := imds (rolePath ++ role)
    if body = [] then ⟨false, out, asked⟩
    else
      let (v, err) := parse strtod body
      if err ≠ [] ∨ v.isObj = false then ⟨false, out, asked⟩
      else
        let out : Credentials :=
          { accessKey := v.strAt (lit "AccessKeyId") []
            secretKey := v.strAt (lit "SecretAccessKey") []
            token := v.strAt (lit "Token") []
            expiresAt := Time.parseIso8601 (v.strAt (lit "Expiration") []) }
        ⟨!out.empty, out, asked⟩

/-- A call of `get`: what IMDS answers to it, what the clock reads when it begins and after a
failed refresh, and what is in its output parameter. -/
structure Call where
  imds : Bytes → Bytes
  now : ℤ
  later : ℤ
  out : Credentials

/-- What a call returns and leaves behind. -/
structure Got extends Fetch where
  cached : Credentials

/-- SRC: aws.cpp:142-161 -/
def get (strtod : Bytes → Double × ℕ) (cached : Credentials) (c : Call) : Got :=
  if cached.stale c.now refreshMargin = false then ⟨⟨true, cached, []⟩, cached⟩
  else
    let fresh := credentials strtod c.imds Credentials.init
    if fresh.ok = false then
      if cached.empty = false ∧ cached.stale c.later 0 = false then ⟨⟨true, cached, fresh.asked⟩, cached⟩
      else ⟨⟨false, c.out, fresh.asked⟩, cached⟩
    else ⟨⟨true, fresh.out, fresh.asked⟩, fresh.out⟩

inductive Event where
  | get (c : Call)
  | invalidate

/-- The cache after a call.
SRC: aws.cpp:142-166 -/
def next (strtod : Bytes → Double × ℕ) (cached : Credentials) : Event → Credentials
  | .get c => (get strtod cached c).cached
  | .invalidate => Credentials.init

end HaikuAgent.Model.CredentialProvider
