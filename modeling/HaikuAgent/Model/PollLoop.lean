import HaikuAgent.Foundation.Runs
import HaikuAgent.Model.Aws
import HaikuAgent.Model.Commands
import HaikuAgent.Model.CredentialProvider
import HaikuAgent.Model.Signing

/-!
# The poll loop (`main.cpp`)

`poll_once` asks for messages and handles them one after the other, while the workers go on; the
loop of `main` polls again at once, or after a pause where the answer came back early. A `Cycle`
holds what one `poll_once` meets.
-/

set_option autoImplicit false

namespace HaikuAgent.Model.PollLoop

open HaikuAgent.Foundation
open HaikuAgent.Model.Json
open HaikuAgent.Model.Commands
open HaikuAgent.Model.CredentialProvider (Credentials)

/-- `check_auth_failure`: what it returns, and whether it invalidates the credentials.
SRC: main.cpp:215-230 -/
def checkAuthFailure (resp : Http.Response) : Bool × Bool :=
  if resp.ok then (false, false)
  else
    let auth := resp.status = 403 ∨ resp.status = 400
    let expired := (find resp.body (lit "ExpiredToken") 0).isSome || (find resp.body (lit "InvalidSignature") 0).isSome ||
      (find resp.body (lit "InvalidClientTokenId") 0).isSome
    (true, auth ∧ expired)

/-- The messages that a response to `GetMessages` holds.
SRC: main.cpp:441-450 -/
def messagesOf (strtod : Bytes → Double × ℕ) (resp : Http.Response) : List Value :=
  let (body, err) := parse strtod resp.body
  if err ≠ [] then []
  else
    match body.find (lit "Messages") with
    | some (.arr messages) => messages
    | _ => []

/-- What one `poll_once` meets. -/
structure Cycle where
  /-- the clock readings at its beginning and at its end, in milliseconds -/
  started : ℤ
  ended : ℤ
  /-- IMDS and the clock while it gets the credentials -/
  imds : Bytes → Bytes
  now : ℤ
  later : ℤ
  /-- the clock when the request is signed, and its id -/
  signedAt : ℤ
  requestId : Bytes
  perform : Signing.Request → Http.Response
  /-- whether `g_stop` is set before a message -/
  stop : ℕ → Bool
  /-- what workers and other threads do before a message -/
  others : ℕ → List Event
  answers : ℕ → Answers

def Cycle.call (c : Cycle) : CredentialProvider.Call := ⟨c.imds, c.now, c.later, CredentialProvider.Credentials.init⟩

/-- What happens in the loop over the messages, from the `i`-th on.
SRC: main.cpp:453-456 -/
def handled (c : Cycle) : ℕ → List Value → List Event
  | _, [] => []
  | i, m :: messages =>
    if c.stop i then []
    else c.others i ++ .deliver m (c.answers i) :: handled c (i + 1) messages

/-- `aws::get_messages`.
SRC: aws.cpp:13, 310-317 -/
def getMessages (digests : Signing.Digests) (region instanceId : Bytes) (creds : Credentials) (c : Cycle) :
    Http.Response :=
  match Signing.call digests (lit "ec2messages") (lit "EC2WindowsMessageDeliveryService") (lit "GetMessages") region
      creds.toCredentials (dump (Aws.getMessagesBody instanceId c.requestId)) c.signedAt with
  | .error err => { Http.Response.init with error := err }
  | .ok req => c.perform req

/-- What `poll_once` does: the moves of the agent, the credentials it asked with, whether it
invalidates those in the cache at its end, and the time it took. -/
structure Polled where
  events : List Event
  asked : Option Credentials
  invalidates : Bool
  elapsed : ℤ

/-- SRC: main.cpp:427-458 -/
def pollOnce (strtod : Bytes → Double × ℕ) (digests : Signing.Digests) (region instanceId : Bytes) (cached : Credentials)
    (c : Cycle) : Polled :=
  let elapsed := c.ended - c.started
  let got := CredentialProvider.get strtod cached c.call
  if got.ok = false then ⟨[], none, false, elapsed⟩
  else
    let resp := getMessages digests region instanceId got.out c
    if resp.ok = false then ⟨[], some got.out, (checkAuthFailure resp).2, elapsed⟩
    else ⟨handled c 0 (messagesOf strtod resp), some got.out, false, elapsed⟩

/-! ## The shared provider -/

/-- A poll, and what other threads ask the provider for before it and while it waits. -/
structure Turn where
  before : List CredentialProvider.Event
  cycle : Cycle
  during : List CredentialProvider.Event

/-- The cache that a poll finds. -/
def Turn.cached (strtod : Bytes → Double × ℕ) (t : Turn) (cached : Credentials) : Credentials :=
  runFrom (CredentialProvider.next strtod) cached t.before

/-- What the poll of a turn does. -/
def Turn.polled (strtod : Bytes → Double × ℕ) (digests : Signing.Digests) (region instanceId : Bytes)
    (cached : Credentials) (t : Turn) : Polled :=
  pollOnce strtod digests region instanceId (t.cached strtod cached) t.cycle

/-- The cache after a turn. -/
def Turn.next (strtod : Bytes → Double × ℕ) (digests : Signing.Digests) (region instanceId : Bytes)
    (cached : Credentials) (t : Turn) : Credentials :=
  let after := runFrom (CredentialProvider.next strtod) (t.cached strtod cached) (.get t.cycle.call :: t.during)
  if (t.polled strtod digests region instanceId cached).invalidates then CredentialProvider.Credentials.init else after

end HaikuAgent.Model.PollLoop
