import Mathlib.Data.List.Basic
import Mathlib.Data.List.Flatten

/-!
# Codes whose words show where they begin

A code word is a leading symbol and symbols that lead nothing, and its length is known from
the leading symbol: UTF-8 is such a code. A sequence `Spelled` in the code can be cut exactly
where a word begins (`spelled_take_iff`), and a word of one symbol separates what stands
around it (`spelled_separated`).
-/

set_option autoImplicit false

namespace HaikuAgent.Foundation

variable {α β : Type}

/-- `lead` tells the first symbol of a word from the others, and `size` its word's length. -/
structure SelfSynchronizing (code : α → List β) (lead : β → Bool) (size : β → ℕ) : Prop where
  word : ∀ a, ∃ b bs, code a = b :: bs ∧ lead b = true ∧ (∀ c ∈ bs, lead c = false) ∧
    (code a).length = size b

/-- A sequence of code words. -/
def Spelled (code : α → List β) (s : List β) : Prop := ∃ as : List α, as.flatMap code = s

variable {code : α → List β} {lead : β → Bool} {size : β → ℕ}

/-- No letters spell the empty text. -/
theorem spelled_nil : Spelled code [] := ⟨[], rfl⟩

/-- A code word spells its letter. -/
theorem spelled_word (a : α) : Spelled code (code a) := ⟨[a], List.flatMap_singleton code a⟩

/-- Two texts that are spelled are spelled together. -/
theorem Spelled.append {s t : List β} (hs : Spelled code s) (ht : Spelled code t) :
    Spelled code (s ++ t) := by
  obtain ⟨as, rfl⟩ := hs
  obtain ⟨bs, rfl⟩ := ht
  exact ⟨as ++ bs, List.flatMap_append⟩

namespace SelfSynchronizing

/-- Two words at the front of one sequence are equal. -/
theorem word_unique (h : SelfSynchronizing code lead size) (a a' : α) (s s' : List β)
    (heq : code a ++ s = code a' ++ s') : s = s' := by
  obtain ⟨b, bs, hword, -, -, hsize⟩ := h.word a
  obtain ⟨b', bs', hword', -, -, hsize'⟩ := h.word a'
  have hfirst : b = b' := by
    rw [hword, hword'] at heq
    exact (List.cons.inj heq).1
  exact (List.append_inj heq (by rw [hsize, hsize', hfirst])).2

/-- What follows a spelled part of a spelled sequence is spelled. -/
theorem spelled_rest (h : SelfSynchronizing code lead size) (s t : List β) (hs : Spelled code s)
    (hall : Spelled code (s ++ t)) : Spelled code t := by
  obtain ⟨as, rfl⟩ := hs
  obtain ⟨all, hall⟩ := hall
  induction as generalizing all with
  | nil => exact ⟨all, hall⟩
  | cons a as ih =>
    rw [List.flatMap_cons, List.append_assoc] at hall
    cases all with
    | nil =>
      obtain ⟨b, bs, hword, -⟩ := h.word a
      rw [hword] at hall
      cases hall
    | cons a' all =>
      rw [List.flatMap_cons] at hall
      exact ih all (h.word_unique a' a _ _ hall)

/-- A nonempty spelled sequence begins with a leading symbol. -/
theorem lead_head (h : SelfSynchronizing code lead size) (b : β) (s : List β)
    (hs : Spelled code (b :: s)) : lead b = true := by
  obtain ⟨as, has⟩ := hs
  cases as with
  | nil => cases has
  | cons a as =>
    obtain ⟨c, bs, hword, hlead, -⟩ := h.word a
    rw [List.flatMap_cons, hword] at has
    rw [← (List.cons.inj has).1]
    exact hlead

/-- A spelled sequence may be cut exactly where a word begins, and at its end. -/
theorem spelled_take_iff (h : SelfSynchronizing code lead size) (s : List β) (hs : Spelled code s)
    (n : ℕ) : Spelled code (s.take n) ↔ ∀ b, s[n]? = some b → lead b = true := by
  constructor
  · intro htake b hb
    have hsplit : s.take n ++ s.drop n = s := List.take_append_drop n s
    have hrest := h.spelled_rest (s.take n) (s.drop n) htake (hsplit.symm ▸ hs)
    obtain ⟨hn, hget⟩ := List.getElem?_eq_some_iff.mp hb
    rw [List.drop_eq_getElem_cons hn, hget] at hrest
    exact h.lead_head b _ hrest
  · intro hboundary
    obtain ⟨as, rfl⟩ := hs
    induction as generalizing n with
    | nil =>
      rw [List.flatMap_nil, List.take_nil]
      exact spelled_nil
    | cons a as ih =>
      rw [List.flatMap_cons] at hboundary ⊢
      rcases Nat.lt_or_ge n (code a).length with hinside | hpast
      · obtain ⟨b, bs, hword, -, hrest, -⟩ := h.word a
        cases n with
        | zero => exact spelled_nil
        | succ n =>
          -- a cut inside the word would fall on a symbol that leads nothing
          rw [hword, List.length_cons] at hinside
          have hn : n < bs.length := by omega
          have hget : (code a ++ as.flatMap code)[n + 1]? = some bs[n] := by
            rw [hword, List.cons_append, List.getElem?_cons_succ, List.getElem?_append_left hn,
              List.getElem?_eq_getElem hn]
          have hlead := hboundary _ hget
          rw [hrest _ (List.getElem_mem hn)] at hlead
          cases hlead
      · rw [List.take_append, List.take_of_length_le hpast]
        refine (spelled_word a).append (ih (n - (code a).length) ?_)
        intro b hb
        refine hboundary b ?_
        rw [List.getElem?_append_right hpast]
        exact hb

/-- A word of one symbol separates: both sides of it are spelled. -/
theorem spelled_separated (h : SelfSynchronizing code lead size) (a : α) (b : β) (hword : code a = [b])
    (s t : List β) : Spelled code (s ++ b :: t) ↔ Spelled code s ∧ Spelled code t := by
  have hb : Spelled code [b] := hword ▸ spelled_word a
  have hlead := h.lead_head b [] hb
  constructor
  · intro hall
    have hget : (s ++ b :: t)[s.length]? = some b := by
      rw [List.getElem?_append_right (Nat.le_refl _), Nat.sub_self]
      rfl
    have hs : Spelled code s := by
      have htake := (h.spelled_take_iff _ hall s.length).mpr fun c hc => by
        rw [hget] at hc
        cases hc
        exact hlead
      rwa [List.take_left] at htake
    exact ⟨hs, h.spelled_rest [b] t hb (h.spelled_rest s (b :: t) hs hall)⟩
  · rintro ⟨hs, ht⟩
    exact hs.append (hb.append ht)

end SelfSynchronizing

end HaikuAgent.Foundation
