import Mathlib.Data.List.Induction
import Mathlib.Data.Nat.Basic
import HaikuAgent.Foundation.Runs

/-!
# Reassembly of a numbered stream

A sender numbers its items from 0. A network may lose packets, repeat them and deliver them in any
order. A receiver takes items in the order of their numbers and holds those that come early.
Whatever arrives, it has taken the items before the first number that is missing
(`run_taken`): the order and the repetitions do not matter, and nothing is taken out of order.
-/

set_option autoImplicit false

namespace HaikuAgent.Foundation.Reassembly

variable {α : Type}

/-- The items taken, and the packets that came early. The next number is that of the items taken. -/
structure Receiver (α : Type) where
  taken : List α
  early : List (ℕ × α)

def Receiver.init : Receiver α := ⟨[], []⟩

/-- What can be taken now, at most `n` items. -/
def Receiver.settle : ℕ → Receiver α → Receiver α
  | 0, r => r
  | n + 1, r =>
    match r.early.lookup r.taken.length with
    | none => r
    | some a => settle n { r with taken := r.taken ++ [a] }

/-- One packet arrives. -/
def Receiver.receive (r : Receiver α) (packet : ℕ × α) : Receiver α :=
  if packet.1 < r.taken.length then r
  else
    let early := packet :: r.early
    Receiver.settle early.length { r with early }

def run (packets : List (ℕ × α)) : Receiver α := runFrom Receiver.receive .init packets

/-- The packets are those of the sender. -/
def Genuine (sent : List α) (packets : List (ℕ × α)) : Prop := ∀ p ∈ packets, sent[p.1]? = some p.2

/-- `n` is the first number that has not arrived. -/
structure FirstMissing (packets : List (ℕ × α)) (n : ℕ) : Prop where
  missing : n ∉ packets.map Prod.fst
  arrived : ∀ i < n, i ∈ packets.map Prod.fst

/-- There is one first number that is missing. -/
theorem FirstMissing.unique {packets : List (ℕ × α)} {m n : ℕ} (hm : FirstMissing packets m)
    (hn : FirstMissing packets n) : m = n := by
  obtain hlt | heq | hgt := lt_trichotomy m n
  · exact absurd (hn.arrived m hlt) hm.missing
  · exact heq
  · exact absurd (hm.arrived n hgt) hn.missing

/-- A receiver that has seen these packets, but need not have taken all it could. -/
structure Holds (sent : List α) (packets : List (ℕ × α)) (r : Receiver α) : Prop where
  taken_eq : r.taken = sent.take r.taken.length
  length_le : r.taken.length ≤ sent.length
  arrived : ∀ i < r.taken.length, i ∈ packets.map Prod.fst
  early_mem : ∀ p ∈ r.early, p ∈ packets
  later_mem : ∀ p ∈ packets, r.taken.length ≤ p.1 → p.1 ∈ r.early.map Prod.fst

section Settle

variable {sent : List α} {packets : List (ℕ × α)}

/-- What is looked up in a list is in it. -/
theorem mem_of_lookup {l : List (ℕ × α)} {n : ℕ} {a : α} (h : l.lookup n = some a) : (n, a) ∈ l := by
  obtain ⟨before, later, rfl, -⟩ := List.lookup_eq_some_iff.mp h
  exact List.mem_append_right _ List.mem_cons_self

/-- Taking the next packet that has come early keeps what the receiver holds. -/
theorem Holds.take_next {r : Receiver α} (h : Holds sent packets r) (hgenuine : Genuine sent packets) {a : α}
    (hnext : r.early.lookup r.taken.length = some a) :
    Holds sent packets { r with taken := r.taken ++ [a] } := by
  have hmem := h.early_mem _ (mem_of_lookup hnext)
  have hitem : sent[r.taken.length]? = some a := hgenuine _ hmem
  obtain ⟨hlt, hget⟩ := List.getElem?_eq_some_iff.mp hitem
  refine ⟨?_, ?_, ?_, h.early_mem, ?_⟩
  · rw [List.length_append, List.length_singleton, List.take_succ_eq_append_getElem hlt, ← h.taken_eq, hget]
  · rw [List.length_append, List.length_singleton]
    omega
  · intro i hi
    rw [List.length_append, List.length_singleton] at hi
    obtain hold | rfl := Nat.lt_succ_iff_lt_or_eq.mp hi
    · exact h.arrived i hold
    · exact List.mem_map_of_mem (f := Prod.fst) hmem
  · intro p hp hle
    rw [List.length_append, List.length_singleton] at hle
    exact h.later_mem p hp (by omega)

/-- A receiver that can take nothing more has what comes before the first missing number. -/
theorem Holds.firstMissing {r : Receiver α} (h : Holds sent packets r)
    (hstop : r.early.lookup r.taken.length = none) : FirstMissing packets r.taken.length := by
  refine ⟨?_, h.arrived⟩
  intro hmem
  obtain ⟨p, hp, hnumber⟩ := List.mem_map.mp hmem
  have hearly := h.later_mem p hp (le_of_eq hnumber.symm)
  rw [List.lookup_eq_none_iff] at hstop
  obtain ⟨q, hq, hsame⟩ := List.mem_map.mp hearly
  exact absurd (beq_iff_eq.mpr (hsame.trans hnumber).symm) (by simpa using hstop q hq)

/-- The packets that can still be taken. -/
def waiting (r : Receiver α) : ℕ := r.early.countP fun p => r.taken.length ≤ p.1

/-- Taking an item leaves fewer to take. -/
theorem waiting_take_lt {r : Receiver α} {a : α} (hnext : r.early.lookup r.taken.length = some a) :
    waiting { r with taken := r.taken ++ [a] } < waiting r := by
  have hmem := mem_of_lookup hnext
  obtain ⟨before, later, hsplit⟩ := List.append_of_mem hmem
  have hle (l : List (ℕ × α)) :
      (l.countP fun p => r.taken.length + 1 ≤ p.1) ≤ l.countP fun p => r.taken.length ≤ p.1 := by
    apply List.countP_mono_left
    intro p _ hp
    rw [decide_eq_true_eq] at hp ⊢
    omega
  have hbefore := hle before
  have hlater := hle later
  unfold waiting
  rw [List.length_append, List.length_singleton, hsplit, List.countP_append, List.countP_append, List.countP_cons,
    List.countP_cons, if_neg (by simp), if_pos (by simp)]
  omega

/-- When it settles, a receiver has taken all that it can, and holds what it held. -/
theorem settle_spec (hgenuine : Genuine sent packets) (n : ℕ) (r : Receiver α) (h : Holds sent packets r)
    (hfuel : waiting r ≤ n) :
    Holds sent packets (Receiver.settle n r) ∧
      (Receiver.settle n r).early.lookup (Receiver.settle n r).taken.length = none := by
  induction n generalizing r with
  | zero =>
    unfold Receiver.settle
    refine ⟨h, ?_⟩
    cases hnext : r.early.lookup r.taken.length with
    | none => rfl
    | some a =>
      have hlt := waiting_take_lt hnext
      omega
  | succ n ih =>
    unfold Receiver.settle
    cases hnext : r.early.lookup r.taken.length with
    | none => exact ⟨h, hnext⟩
    | some a =>
      have hlt := waiting_take_lt hnext
      exact ih _ (h.take_next hgenuine hnext) (by omega)

end Settle

section Runs

variable {sent : List α} {packets : List (ℕ × α)}

/-- The numbers of the packets with one more. -/
theorem mem_map_concat {p : ℕ × α} {n : ℕ} :
    n ∈ (packets ++ [p]).map Prod.fst ↔ n ∈ packets.map Prod.fst ∨ n = p.1 := by
  rw [List.map_append, List.mem_append, List.map_singleton, List.mem_singleton]

/-- **The step**: a packet is held, or it was taken before. -/
theorem Holds.receive {r : Receiver α} (h : Holds sent packets r)
    (hstop : r.early.lookup r.taken.length = none) {p : ℕ × α} (hgenuine : Genuine sent (packets ++ [p])) :
    Holds sent (packets ++ [p]) (r.receive p) ∧
      (r.receive p).early.lookup (r.receive p).taken.length = none := by
  have harrived : ∀ i < r.taken.length, i ∈ (packets ++ [p]).map Prod.fst :=
    fun i hi => mem_map_concat.mpr (.inl (h.arrived i hi))
  unfold Receiver.receive
  split_ifs with hold
  · refine ⟨⟨h.taken_eq, h.length_le, harrived, fun q hq => List.mem_append_left _ (h.early_mem q hq), ?_⟩, hstop⟩
    intro q hq hle
    obtain hq | hq := List.mem_append.mp hq
    · exact h.later_mem q hq hle
    · rw [List.mem_singleton.mp hq] at hle
      omega
  · apply settle_spec hgenuine
    · refine ⟨h.taken_eq, h.length_le, harrived, ?_, ?_⟩
      · intro q hq
        obtain rfl | hq := List.mem_cons.mp hq
        · exact List.mem_append_right _ (List.mem_singleton_self _)
        · exact List.mem_append_left _ (h.early_mem q hq)
      · intro q hq hle
        rw [List.map_cons, List.mem_cons]
        obtain hq | hq := List.mem_append.mp hq
        · exact .inr (h.later_mem q hq hle)
        · exact .inl (congrArg Prod.fst (List.mem_singleton.mp hq))
    · exact List.countP_le_length

/-- The receiver after any packets of the sender. -/
theorem run_holds (hgenuine : Genuine sent packets) :
    Holds sent packets (run packets) ∧ (run packets).early.lookup (run packets).taken.length = none := by
  induction packets using List.reverseRecOn with
  | nil =>
    refine ⟨⟨rfl, Nat.zero_le _, ?_, ?_, ?_⟩, rfl⟩
    · intro i hi
      exact absurd hi (Nat.not_lt_zero i)
    · intro p hp
      cases hp
    · intro p hp
      cases hp
  | append_singleton packets p ih =>
    have hbefore : Genuine sent packets := fun q hq => hgenuine q (List.mem_append_left _ hq)
    obtain ⟨hholds, hstop⟩ := ih hbefore
    have hnext : run (packets ++ [p]) = (run packets).receive p := by
      unfold run
      rw [runFrom_append]
      rfl
    rw [hnext]
    exact hholds.receive hstop hgenuine

/-- **What is taken** is what was sent before the first missing number. -/
theorem run_taken (hgenuine : Genuine sent packets) {n : ℕ} (hmissing : FirstMissing packets n) :
    (run packets).taken = sent.take n ∧ (run packets).taken.length = n := by
  obtain ⟨hholds, hstop⟩ := run_holds hgenuine
  have hlength := (hholds.firstMissing hstop).unique hmissing
  refine ⟨?_, hlength⟩
  rw [← hlength]
  exact hholds.taken_eq

/-- Whatever has come, what is taken is a first part of what was sent. -/
theorem run_taken_initial (hgenuine : Genuine sent packets) : (run packets).taken <+: sent := by
  rw [(run_holds hgenuine).1.taken_eq]
  exact List.take_prefix _ _

/-- All of it is taken when every number has arrived. -/
theorem run_taken_all (hgenuine : Genuine sent packets) (hall : ∀ i < sent.length, i ∈ packets.map Prod.fst) :
    (run packets).taken = sent := by
  have hmissing : FirstMissing packets sent.length := by
    refine ⟨?_, hall⟩
    intro hmem
    obtain ⟨p, hp, hnumber⟩ := List.mem_map.mp hmem
    have hitem := hgenuine p hp
    rw [hnumber, List.getElem?_eq_none le_rfl] at hitem
    cases hitem
  rw [(run_taken hgenuine hmissing).1, List.take_length]

end Runs

end HaikuAgent.Foundation.Reassembly
