import Mathlib.Data.List.Basic
import Mathlib.Data.List.Flatten

/-!
# Self-delimiting codes read piece by piece

A `Scan` is the outcome of one attempt to read a code word off the front of a
buffer. `Delimits scan code view` says that `scan` reads back a code word whatever
follows it, and reports `incomplete` on all of its proper prefixes.

`Delimits.scan_front` is what a reader of a stream uses: while the buffer and what is
still to come spell a sequence of code words, an attempt either takes the next word
off or finds the buffer too short for it, wherever the stream was cut.
-/

set_option autoImplicit false

namespace HaikuAgent.Foundation

variable {α β γ ε : Type}

/-- The outcome of reading one code word off a buffer. -/
inductive Scan (γ β ε : Type) where
  | incomplete
  | failed (err : ε)
  | complete (value : γ) (rest : List β)
  deriving DecidableEq

/-- `scan` reads the code words of the values, as `view` shows them. -/
structure Delimits (scan : List β → Scan γ β ε) (code : α → List β) (view : α → γ) : Prop where
  complete : ∀ a rest, scan (code a ++ rest) = .complete (view a) rest
  incomplete : ∀ a p, p <+: code a → p ≠ code a → scan p = .incomplete

namespace Delimits

variable {scan : List β → Scan γ β ε} {code : α → List β} {view : α → γ}

/-- Of a buffer in front of a word and what follows it, either the word is read and the rest
of the buffer is in front of what follows, or the buffer is too short. -/
theorem scan_front (h : Delimits scan code view) (a : α) (buf more tail : List β)
    (hstream : buf ++ more = code a ++ tail) :
    (∃ rest, scan buf = .complete (view a) rest ∧ rest ++ more = tail) ∨
      (scan buf = .incomplete ∧ more ≠ []) := by
  rcases List.append_eq_append_iff.mp hstream with ⟨missing, hcode, hmore⟩ | ⟨rest, hbuf, htail⟩
  · by_cases hmissing : missing = []
    · subst hmissing
      rw [List.append_nil] at hcode
      refine Or.inl ⟨[], ?_, ?_⟩
      · have hcomplete := h.complete a []
        rw [List.append_nil, hcode] at hcomplete
        exact hcomplete
      · rw [List.nil_append, hmore, List.nil_append]
    · refine Or.inr ⟨h.incomplete a buf ⟨missing, hcode.symm⟩ ?_, ?_⟩
      · intro heq
        rw [heq] at hcode
        exact hmissing (List.self_eq_append_right.mp hcode)
      · intro hnil
        rw [hnil] at hmore
        exact hmissing (List.append_eq_nil_iff.mp hmore.symm).1
  · refine Or.inl ⟨rest, ?_, htail.symm⟩
    rw [hbuf]
    exact h.complete a rest

end Delimits

end HaikuAgent.Foundation
