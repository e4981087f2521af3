import HaikuAgent.Model.Http
import HaikuAgent.Model.Time

/-!
# The metadata service and the system clock (`aws.cpp`, `timesync.cpp`)

`Imds::token` reads the clock, answers from the cache or sends a request, and stores what comes
back with the reading it began with; it holds the mutex only at its two ends. `World` is what its
callers, the clock and the service make of this: the service counts its own time, and the system
clock may be wrong, go wrong and be set.
-/

set_option autoImplicit false

namespace HaikuAgent.Model.Metadata

open HaikuAgent.Foundation

/-! ## `aws.cpp` -/

/-- The members of `Imds`.
SRC: aws.h:71-74 -/
structure Imds where
  token : Bytes
  tokenExpiresAt : ℤ
  deriving DecidableEq

def Imds.init : Imds := ⟨[], 0⟩

/-- What is asked of the service for a token, and what it grants.
SRC: aws.cpp:40, 51 -/
def kTokenTtlSeconds : ℤ := 21600

/-- The cached token, if `token` returns it.
SRC: aws.cpp:27-31 -/
def Imds.cachedToken (s : Imds) (now : ℤ) : Option Bytes :=
  if s.token ≠ [] ∧ now + 60 < s.tokenExpiresAt then some s.token else none

/-- The rest of `token`, with the response to the request of a call that began at `now`: what it
leaves, and what it returns.
SRC: aws.cpp:41-53 -/
def Imds.storeToken (s : Imds) (now : ℤ) (resp : Http.Response) : Imds × Bytes :=
  if resp.ok = false ∨ resp.body = [] then (s, [])
  else
    let token := trim resp.body
    (⟨token, now + kTokenTtlSeconds⟩, token)

/-- `server_time`, with the `date` header of the response, if it has one.
SRC: aws.cpp:76-99 -/
def serverTime (date : Option Bytes) : Option ℤ :=
  match date with
  | none => none
  | some date =>
    let epoch := Time.parseHttpDate date
    if epoch ≤ 0 then none else some epoch

/-! ## `timesync.cpp` -/

/-- SRC: main.cpp:93 -/
def kMaxClockDriftSeconds : ℤ := 60

/-- SRC: timesync.h:20-24 -/
structure Result where
  checked : Bool
  adjusted : Bool
  drift : ℤ
  deriving DecidableEq

/-- `ensure_clock` where the clock reads `localNow`; `setOk` says that `clock_settime` succeeds.
It returns what it sets the clock to, if it does.
SRC: timesync.cpp:14-57 -/
def ensureClock (reference : Option ℤ) (localNow : ℤ) (allowSet : Bool) (maxDrift : ℤ) (setOk : Bool) :
    Result × Option ℤ :=
  match reference with
  | none => (⟨false, false, 0⟩, none)
  | some reference =>
    let drift := reference - localNow
    if -maxDrift < drift ∧ drift < maxDrift then (⟨true, false, drift⟩, none)
    else if allowSet = false then (⟨true, false, drift⟩, none)
    else if setOk = false then (⟨true, false, drift⟩, none)
    else (⟨true, true, drift⟩, some reference)

/-! ## The callers, the clock and the service -/

/-- A call of `token` that has sent its request. -/
structure Request where
  caller : ℕ
  /-- the clock reading the call began with -/
  now : ℤ
  /-- the service's time when it was sent -/
  sent : ℤ
  deriving DecidableEq

structure World where
  /-- the service's time -/
  time : ℤ
  /-- how many seconds the system clock is ahead of it -/
  ahead : ℤ
  imds : Imds
  pending : List Request
  /-- the tokens the service has issued, and when each expires there -/
  issued : List (Bytes × ℤ)

/-- What the system clock reads. -/
def World.clock (w : World) : ℤ := w.time + w.ahead

def World.init (time ahead : ℤ) : World := ⟨time, ahead, Imds.init, [], []⟩

inductive Event where
  | pass (seconds : ℕ)
  /-- the clock goes wrong by so much -/
  | drift (seconds : ℤ)
  | ask (caller : ℕ)
  | answer (caller : ℕ) (resp : Http.Response)
  | ensureClock (date : Option Bytes) (allowSet setOk : Bool)

/-- The response to a request is there. -/
def World.receive (w : World) (r : Request) (resp : Http.Response) : World :=
  { w with
    imds := (w.imds.storeToken r.now resp).1
    pending := w.pending.erase r
    -- a token is good from the moment of its request on
    issued := if (w.imds.storeToken r.now resp).2 = [] then w.issued
      else w.issued ++ [((w.imds.storeToken r.now resp).2, r.sent + kTokenTtlSeconds)] }

def World.step (w : World) : Event → World
  | .pass seconds => { w with time := w.time + seconds }
  | .drift seconds => { w with ahead := w.ahead + seconds }
  | .ask caller =>
    match w.imds.cachedToken w.clock with
    | some _ => w
    | none => { w with pending := w.pending ++ [⟨caller, w.clock, w.time⟩] }
  | .answer caller resp =>
    match w.pending.find? fun r => r.caller = caller with
    | some r => w.receive r resp
    | none => w
  | .ensureClock date allowSet setOk =>
    match (ensureClock (serverTime date) w.clock allowSet kMaxClockDriftSeconds setOk).2 with
    | some reference => { w with ahead := reference - w.time }
    | none => w

end HaikuAgent.Model.Metadata
