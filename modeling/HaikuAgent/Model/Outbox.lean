import Mathlib.Data.Int.Order.Basic
import HaikuAgent.Foundation.Bytes

/-!
# Unacknowledged stream data (`session.h`, `session.cpp`)

The retransmission buffer of a session, oldest frame first.
-/

set_option autoImplicit false

namespace HaikuAgent.Model.Sessions

open HaikuAgent.Foundation

/-- SRC: session.h:36-42 -/
def kResendIntervalMs : ℤ := 250
def kMaxResends : ℤ := 240
def kMaxBuffered : ℕ := 8192

/-- SRC: session.h:56-61 -/
structure Entry where
  seq : ℤ
  frame : Bytes
  lastSentMs : ℤ
  resends : ℤ
  deriving DecidableEq

structure Outbox where
  buf : List Entry
  deriving DecidableEq

namespace Outbox

def empty : Outbox := ⟨[]⟩

/-- SRC: session.cpp:472-475 -/
def add (o : Outbox) (seq : ℤ) (frame : Bytes) (nowMs : ℤ) : Outbox :=
  let buf := if kMaxBuffered ≤ o.buf.length then o.buf.tail else o.buf
  ⟨buf ++ [⟨seq, frame, nowMs, 0⟩]⟩

/-- SRC: session.cpp:477-479 -/
def ack (o : Outbox) (seq : ℤ) : Outbox := ⟨o.buf.dropWhile fun e => e.seq ≤ seq⟩

/-- `due_resend`: the frame to send again, and `dead`.
SRC: session.cpp:481-493 -/
def dueResend (o : Outbox) (nowMs : ℤ) : Option Bytes × Bool × Outbox :=
  match o.buf with
  | [] => (none, false, o)
  | front :: rest =>
    if nowMs - front.lastSentMs < kResendIntervalMs then (none, false, o)
    else if kMaxResends ≤ front.resends then (none, true, o)
    else
      (some front.frame, false,
        ⟨{ front with lastSentMs := nowMs, resends := front.resends + 1 } :: rest⟩)

end Outbox

end HaikuAgent.Model.Sessions
