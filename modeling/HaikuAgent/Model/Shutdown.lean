import Mathlib.Data.List.Count
import HaikuAgent.Model.ControlChannel

/-!
# Shutdown (`session.cpp`, `main.cpp`)

The session thread beside what it shares with the rest of the process: the stop flag, the
count of the live sessions and the clock. `step` takes one event of any of them. The
thread moves as `SessionThread.step` has it, but stands at each place where it tests the
flag, and the wait of `run` for its sessions takes time.

`main` reaches `session_thread.join()` some time after the request; from the moment the
thread has stopped it gets past it.
-/

set_option autoImplicit false

namespace HaikuAgent.Model.Shutdown

open HaikuAgent.Foundation
open HaikuAgent.Model.Json
open HaikuAgent.Model.ControlChannel

/-- SRC: session.cpp:698 -/
def drainSeconds : ℤ := 15

/-- Where the session thread stands. -/
inductive Place where
  /-- at the head of the loop of `main` -/
  | loopTest
  /-- in `run`, before its loop -/
  | connecting
  /-- at the head of the loop of `run` -/
  | inRun
  /-- `run` waits for its sessions -/
  | draining (deadline : ℤ)
  /-- `run` has returned to `main`, which has not tested the flag yet -/
  | returned
  /-- `main` sleeps, so many times more at most -/
  | waiting (seconds : ℤ)
  | gone
  deriving DecidableEq

inductive Event where
  /-- the signal handler sets the flag -/
  | stopRequested
  /-- the `SessionGuard` of a worker is destroyed -/
  | sessionOver
  /-- the clock comes to read `now` -/
  | tick (now : ℤ)
  /-- the session thread goes on from the place where it stands -/
  | pass (p : Pass)

/-- `noticed` is the clock reading at which the session thread found the flag set, and
`latest` the highest reading since. -/
structure Process where
  thread : SessionThread
  place : Place
  /-- `g_stop` -/
  stop : Bool
  clock : ℤ
  /-- how many workers have ended -/
  ended : ℕ
  noticed : Option ℤ
  latest : ℤ

def isStart : Action → Bool
  | .start .. => true
  | _ => false

/-- How many workers `run` has started, in all its calls. -/
def sessionsStarted (thread : SessionThread) : ℕ := thread.log.countP isStart

/-- The wait that `main` has recorded last. -/
def lastWait (log : List Action) : ℤ :=
  match log.getLast? with
  | some (.wait seconds) => seconds
  | _ => 0

/-- Where the thread stands after a call of `run` has begun, or gone on. -/
def placeOf : Phase → Place
  | .between => .returned
  | .serving => .inRun
  | .ended => .gone
  | .thrown => .gone

namespace Process

def init : Process :=
  { thread := .init
    place := .loopTest
    stop := false
    clock := 0
    ended := 0
    noticed := none
    latest := 0 }

/-- `g_active_sessions`.
SRC: session.cpp:194-201, 682 -/
def activeSessions (s : Process) : ℕ := sessionsStarted s.thread - s.ended

/-- What a pass of the thread meets when it has not found the flag set. -/
def running (s : Process) (p : Pass) : Pass := { p with stop := false, now := s.clock }

def moveTo (s : Process) (thread : SessionThread) : Process :=
  { s with
    thread := thread
    place := placeOf thread.phase }

/-- `main` finds the flag set and leaves its loop.
SRC: main.cpp:787, 791, 795, 798 -/
def leave (s : Process) : Process :=
  { s with
    thread := { s.thread with phase := .ended }
    place := .gone
    noticed := some s.clock
    latest := s.clock }

/-- `run` finds the flag set, leaves its loop and closes the channel.
SRC: session.cpp:629, 692-698 -/
def beginDrain (s : Process) : Process :=
  { s with
    place := .draining (s.clock + drainSeconds)
    noticed := some s.clock
    latest := s.clock }

/-- One turn of the wait of `run`. When it is over `main` finds the flag set once more.
SRC: session.cpp:699-703, main.cpp:791 -/
def drain (s : Process) (deadline : ℤ) : Process :=
  if 0 < s.activeSessions ∧ s.clock < deadline then s
  else
    { s with
      thread := { s.thread with phase := .ended }
      place := .gone }

/-- The session thread goes on. The flag may be set while it connects, sleeps or waits for
a frame; it sees that where it tests the flag next.
SRC: main.cpp:787-797, session.cpp:580-704 -/
def pass (strtod : Bytes → Double × ℕ) (s : Process) (p : Pass) : Process :=
  match s.place with
  | .loopTest => if s.stop then s.leave else { s with place := .connecting }
  | .connecting => s.moveTo (s.thread.callRun (s.running p))
  | .inRun => if s.stop then s.beginDrain else s.moveTo (s.thread.serve strtod (s.running p))
  | .draining deadline => s.drain deadline
  | .returned => if s.stop then s.leave else { s with place := .waiting (lastWait s.thread.log) }
  | .waiting seconds =>
    if s.stop then s.leave
    else if seconds ≤ 0 then { s with place := .loopTest }
    else { s with place := .waiting (seconds - 1) }
  | .gone => s

def step (strtod : Bytes → Double × ℕ) (s : Process) : Event → Process
  | .stopRequested => { s with stop := true }
  | .sessionOver => if 0 < s.activeSessions then { s with ended := s.ended + 1 } else s
  | .tick now =>
    { s with
      clock := now
      latest := max s.latest now }
  | .pass p => s.pass strtod p

end Process

end HaikuAgent.Model.Shutdown
