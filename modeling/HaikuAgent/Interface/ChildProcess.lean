import Mathlib
import HaikuAgent.Model.Exec

/-!
# A child process as the kernel shows it to `run_shell`

A `Child` writes to its two pipes, closes them and exits at given times; nobody
else holds the pipes, so each reaches end of file when the child closes it or
exits. A `Schedule` says when the parent gets to make its clock readings, polls
and waits: the instants never go back and do not stop, nothing more is assumed of
the scheduler. `childSys` is the kernel's answer to every call the parent makes.

The times of the child are those of the parent's clock. They describe the child
until the parent signals it; what it does after that is not modelled.
-/

set_option autoImplicit false

namespace HaikuAgent.Interface

open HaikuAgent.Foundation
open HaikuAgent.Model.Exec

/-- What a child does with one of its output pipes. -/
structure Output where
  writes : List (ℤ × Bytes)
  ordered : writes.Pairwise fun a b => a.1 ≤ b.1
  closes : ℤ

structure Child where
  out : Output
  err : Output
  exitsAt : ℤ
  status : UInt8

/-- The instants at which the parent's clock readings, polls and waits take effect. -/
structure Schedule where
  time : ℕ → ℤ
  mono : Monotone time
  unbounded : ∀ t, ∃ k, t ≤ time k

namespace Child

def output (c : Child) : Stream → Output
  | .out => c.out
  | .err => c.err

/-- When a pipe has no writer left. -/
def endsAt (c : Child) (s : Stream) : ℤ := min (c.output s).closes c.exitsAt

/-- The bytes written to a pipe by time `t`. -/
def written (c : Child) (s : Stream) (t : ℤ) : Bytes :=
  ((c.output s).writes.filter fun w => w.1 ≤ t ∧ w.1 < c.endsAt s).flatMap Prod.snd

/-- What a pipe holds at time `t` once `taken` bytes have been read from it. -/
def pending (c : Child) (s : Stream) (t : ℤ) (taken : ℕ) : Bytes := (c.written s t).drop taken

/-- `POLLIN` or `POLLHUP`. -/
def readable (c : Child) (s : Stream) (t : ℤ) (taken : ℕ) : Bool :=
  !(c.pending s t taken).isEmpty || decide (c.endsAt s ≤ t)

end Child

/-- The state of the kernel: how many instants have passed, and how much of each pipe
has been read. -/
structure Kernel where
  instant : ℕ
  outTaken : ℕ
  errTaken : ℕ

namespace Kernel

def init : Kernel := ⟨0, 0, 0⟩

def taken (k : Kernel) : Stream → ℕ
  | .out => k.outTaken
  | .err => k.errTaken

def take (k : Kernel) (n : ℕ) : Stream → Kernel
  | .out => { k with outTaken := k.outTaken + n }
  | .err => { k with errTaken := k.errTaken + n }

def tick (k : Kernel) : Kernel := { k with instant := k.instant + 1 }

end Kernel

/-- The size of the buffer `run_shell` reads into.
SRC: exec.cpp:112 -/
def readBuffer : ℕ := 8192

/-- `read` on a pipe that was polled at time `t`. -/
def readPipe (c : Child) (t : ℤ) (k : Kernel) (s : Stream) : ReadResult × Kernel :=
  match (c.pending s t (k.taken s)).take readBuffer with
  | b :: bs => (.data b bs, k.take (bs.length + 1) s)
  | [] => if c.endsAt s ≤ t then (.eof, k) else (.again, k)

/-- The system calls of a parent with this child and no cancel request. -/
def childSys (c : Child) (sched : Schedule) : Sys Kernel where
  spawn k _ _ := (.ok (), k)
  now k := (sched.time k.instant, k.tick)
  poll k outOpen errOpen _ :=
    (.ready (outOpen && c.readable .out (sched.time k.instant) k.outTaken)
      (errOpen && c.readable .err (sched.time k.instant) k.errTaken), k.tick)
  read k s := readPipe c (sched.time (k.instant - 1)) k s
  cancelRequested k := (false, k)
  kill k _ := k
  waitpid k :=
    (if c.exitsAt ≤ sched.time k.instant then .exited c.status else .running, k.tick)
  sleep k := k

end HaikuAgent.Interface
