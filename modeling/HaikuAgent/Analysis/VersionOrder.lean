import Mathlib.Order.PiLex
import HaikuAgent.Analysis.BinarySwap

/-!
# The order of versions

`version_compare` is the lexicographic order of the components' numbers, with zeros behind the
last. So it is a total preorder, and the updates that an agent accepts one after the other have
ever greater versions (`version_guard`). A component with a tail counts for the number it begins
with; `refusesMalformed_iff` says when a malformed version is refused all the same.
-/

set_option autoImplicit false

namespace HaikuAgent.Analysis.VersionOrder

open HaikuAgent.Foundation
open HaikuAgent.Model
open HaikuAgent.Model.Json
open HaikuAgent.Model.SelfUpdate

/-! ## Lexicographic comparison -/

/-- The numbers of a version, with zeros behind the last. -/
def numbers (v : Bytes) : ℕ → ℤ := component (split v 46)

/-- Versions are compared by their numbers, the first difference deciding. -/
def key (v : Bytes) : Lex (ℕ → ℤ) := toLex (numbers v)

/-- A component that is not there counts as zero. -/
theorem component_of_length_le {parts : List Bytes} {i : ℕ} (h : parts.length ≤ i) : component parts i = 0 := by
  unfold component
  rw [List.getElem?_eq_none h]
  rfl

/-- The components are equal up to a position, where the loop returns or ends. -/
theorem compareFrom_cases (pa pb : List Bytes) (i rounds : ℕ) :
    (compareFrom pa pb i rounds = 0 ∧
      ∀ j, i ≤ j → j < i + rounds → component pa j = component pb j) ∨
    ∃ k, i ≤ k ∧ (∀ j, i ≤ j → j < k → component pa j = component pb j) ∧
      (component pa k < component pb k ∧ compareFrom pa pb i rounds = -1 ∨
        component pb k < component pa k ∧ compareFrom pa pb i rounds = 1) := by
  induction rounds generalizing i with
  | zero =>
    refine .inl ⟨rfl, ?_⟩
    intro j hj hlt
    omega
  | succ rounds ih =>
    unfold compareFrom
    dsimp only
    by_cases heq : component pa i = component pb i
    · rw [if_neg (not_not.mpr heq)]
      have hsame (j : ℕ) (hj : i ≤ j) (hrest : i + 1 ≤ j → component pa j = component pb j) :
          component pa j = component pb j := by
        obtain rfl | hlt := hj.eq_or_lt
        · exact heq
        · exact hrest hlt
      obtain ⟨hzero, hall⟩ | ⟨k, hk, hbefore, hat⟩ := ih (i + 1)
      · refine .inl ⟨hzero, ?_⟩
        intro j hj hlt
        exact hsame j hj (fun h => hall j h (by omega))
      · refine .inr ⟨k, by omega, ?_, hat⟩
        intro j hj hlt
        exact hsame j hj (fun h => hbefore j h hlt)
    · rw [if_pos heq]
      refine .inr ⟨i, le_rfl, fun j hj hlt => absurd hlt (not_lt.mpr hj), ?_⟩
      obtain hlt | hgt := lt_or_gt_of_ne heq
      · exact .inl ⟨hlt, if_pos hlt⟩
      · exact .inr ⟨hgt, if_neg (not_lt.mpr hgt.le)⟩

/-- The three outcomes of a comparison, with the order of the keys. -/
theorem versionCompare_cases (a b : Bytes) :
    versionCompare a b = 0 ∧ key a = key b ∨ versionCompare a b = -1 ∧ key a < key b ∨
      versionCompare a b = 1 ∧ key b < key a := by
  have hcases := compareFrom_cases (split a 46) (split b 46) 0 (max (split a 46).length (split b 46).length)
  obtain ⟨hzero, hall⟩ | ⟨k, -, hbefore, hat⟩ := hcases
  · refine .inl ⟨hzero, ?_⟩
    unfold key numbers
    congr 1
    funext j
    by_cases hj : j < max (split a 46).length (split b 46).length
    · exact hall j (Nat.zero_le j) (by omega)
    · rw [component_of_length_le (by omega), component_of_length_le (by omega)]
  · obtain ⟨hlt, hvalue⟩ | ⟨hgt, hvalue⟩ := hat
    · exact .inr (.inl ⟨hvalue, k, fun j hj => hbefore j (Nat.zero_le j) hj, hlt⟩)
    · exact .inr (.inr ⟨hvalue, k, fun j hj => (hbefore j (Nat.zero_le j) hj).symm, hgt⟩)

/-- A version is below another when its key is. -/
theorem versionCompare_neg_iff (a b : Bytes) : versionCompare a b < 0 ↔ key a < key b := by
  obtain ⟨hvalue, hkey⟩ | ⟨hvalue, hkey⟩ | ⟨hvalue, hkey⟩ := versionCompare_cases a b
  · rw [hvalue, hkey]
    exact iff_of_false (lt_irrefl 0) (lt_irrefl _)
  · rw [hvalue]
    exact iff_of_true (by decide) hkey
  · rw [hvalue]
    exact iff_of_false (by decide) (lt_asymm hkey)

/-- A version is above another when its key is. -/
theorem versionCompare_pos_iff (a b : Bytes) : 0 < versionCompare a b ↔ key b < key a := by
  obtain ⟨hvalue, hkey⟩ | ⟨hvalue, hkey⟩ | ⟨hvalue, hkey⟩ := versionCompare_cases a b
  · rw [hvalue, hkey]
    exact iff_of_false (lt_irrefl 0) (lt_irrefl _)
  · rw [hvalue]
    exact iff_of_false (by decide) (lt_asymm hkey)
  · rw [hvalue]
    exact iff_of_true (by decide) hkey

/-- A version is not above another when its key is not. -/
theorem versionCompare_nonpos_iff (a b : Bytes) : versionCompare a b ≤ 0 ↔ ¬key b < key a := by
  rw [← not_lt]
  exact not_congr (versionCompare_pos_iff a b)

/-- A larger key compares as larger. -/
theorem versionCompare_of_gt {a b : Bytes} (h : key b < key a) : versionCompare a b = 1 := by
  obtain ⟨-, hkey⟩ | ⟨-, hkey⟩ | ⟨hvalue, -⟩ := versionCompare_cases a b
  · rw [hkey] at h
    exact absurd h (lt_irrefl _)
  · exact absurd h (lt_asymm hkey)
  · exact hvalue

/-- A smaller key compares as smaller. -/
theorem versionCompare_of_lt {a b : Bytes} (h : key a < key b) : versionCompare a b = -1 := by
  obtain ⟨-, hkey⟩ | ⟨hvalue, -⟩ | ⟨-, hkey⟩ := versionCompare_cases a b
  · rw [hkey] at h
    exact absurd h (lt_irrefl _)
  · exact hvalue
  · exact absurd h (lt_asymm hkey)

/-- Equal keys compare as equal. -/
theorem versionCompare_of_eq {a b : Bytes} (h : key a = key b) : versionCompare a b = 0 := by
  obtain ⟨hvalue, -⟩ | ⟨-, hkey⟩ | ⟨-, hkey⟩ := versionCompare_cases a b
  · exact hvalue
  · rw [h] at hkey
    exact absurd hkey (lt_irrefl _)
  · rw [h] at hkey
    exact absurd hkey (lt_irrefl _)

/-- Comparing the other way round gives the opposite. -/
theorem versionCompare_swap (a b : Bytes) : versionCompare b a = -versionCompare a b := by
  obtain ⟨hvalue, hkey⟩ | ⟨hvalue, hkey⟩ | ⟨hvalue, hkey⟩ := versionCompare_cases a b
  · rw [hvalue, versionCompare_of_eq hkey.symm]
    rfl
  · rw [hvalue, versionCompare_of_gt hkey]
    rfl
  · rw [hvalue, versionCompare_of_lt hkey]

/-! ## The updates of an agent -/

section Updates

variable (strtod : Bytes → Double × ℕ) (binaryPath : Bytes)

/-- The agent between two updates. -/
structure Agent where
  version : Bytes
  disk : Disk

/-- The manifest whose update was carried out. -/
def accepted (a : Agent) (machine : Machine) : Option Manifest :=
  match machine.manifest.bind (parseManifest strtod) with
  | .error _ => none
  | .ok m =>
    if (checkAndApply strtod machine a.version binaryPath a.disk).1 = .updated then some m else none

/-- The agent that runs after `check_and_apply`. -/
def Agent.next (a : Agent) (machine : Machine) : Agent where
  version := ((accepted strtod binaryPath a machine).map Manifest.version).getD a.version
  disk := (checkAndApply strtod machine a.version binaryPath a.disk).2.2

/-- The versions that are installed one after the other. -/
def installed : Agent → List Machine → List Bytes
  | _, [] => []
  | a, machine :: rest =>
    ((accepted strtod binaryPath a machine).map Manifest.version).toList ++
      installed (a.next strtod binaryPath machine) rest

/-- Only a newer version is installed.
SRC: selfupdate.cpp:122-127 -/
theorem newer_of_accepted {a : Agent} {machine : Machine} {m : Manifest}
    (h : accepted strtod binaryPath a machine = some m) : versionCompare a.version m.version < 0 := by
  unfold accepted at h
  cases hmanifest : machine.manifest.bind (parseManifest strtod) with
  | error err => simp [hmanifest] at h
  | ok m' =>
    simp only [hmanifest] at h
    split_ifs at h with hupdated
    cases h
    rw [versionCompare_swap, neg_lt_zero]
    by_contra hold
    unfold checkAndApply at hupdated
    rw [hmanifest] at hupdated
    dsimp only at hupdated
    rw [if_pos (not_lt.mp hold)] at hupdated
    cases hupdated

/-- Each version is newer than all before it, the first one that ran among them. -/
theorem installed_increasing (a : Agent) (machines : List Machine) :
    (a.version :: installed strtod binaryPath a machines).Pairwise fun v w => versionCompare v w < 0 := by
  induction machines generalizing a with
  | nil => exact List.pairwise_singleton _ _
  | cons machine rest ih =>
    have hrest := ih (a.next strtod binaryPath machine)
    unfold installed
    cases haccepted : accepted strtod binaryPath a machine with
    | none =>
      have hversion : (a.next strtod binaryPath machine).version = a.version := by
        unfold Agent.next
        rw [haccepted]
        rfl
      rw [hversion] at hrest
      exact hrest
    | some m =>
      have hversion : (a.next strtod binaryPath machine).version = m.version := by
        unfold Agent.next
        rw [haccepted]
        rfl
      have hnewer := newer_of_accepted strtod binaryPath haccepted
      rw [hversion] at hrest
      refine List.pairwise_cons.mpr ⟨?_, hrest⟩
      intro w hw
      obtain rfl | hlater := List.mem_cons.mp hw
      · exact hnewer
      · have hlast := (List.pairwise_cons.mp hrest).1 w hlater
        rw [versionCompare_neg_iff] at hnewer hlast ⊢
        exact hnewer.trans hlast

end Updates

/-- **The update guard admits no cycle.** Versions are totally preordered by the lexicographic
order of their numbers, and an agent that takes one update after the other installs ever
greater versions.
SRC: util.cpp:304-314, selfupdate.cpp:112-127 -/
theorem version_guard :
    (∀ a, versionCompare a a = 0) ∧
    (∀ a b, versionCompare b a = -versionCompare a b) ∧
    (∀ a b c, versionCompare a b ≤ 0 → versionCompare b c ≤ 0 → versionCompare a c ≤ 0) ∧
    (∀ a b, (versionCompare a b = -1 ↔ key a < key b) ∧ (versionCompare a b = 0 ↔ key a = key b) ∧
      (versionCompare a b = 1 ↔ key b < key a)) ∧
    ∀ strtod binaryPath (a : Agent) machines,
      (a.version :: installed strtod binaryPath a machines).Pairwise fun v w => versionCompare v w < 0 := by
  refine ⟨?_, versionCompare_swap, ?_, ?_, installed_increasing⟩
  · intro a
    exact versionCompare_of_eq rfl
  · intro a b c hab hbc
    rw [versionCompare_nonpos_iff] at hab hbc ⊢
    exact not_lt.mpr ((not_lt.mp hab).trans (not_lt.mp hbc))
  · intro a b
    refine ⟨⟨?_, versionCompare_of_lt⟩, ⟨?_, versionCompare_of_eq⟩, ⟨?_, versionCompare_of_gt⟩⟩
    · intro h
      rw [← versionCompare_neg_iff, h]
      decide
    · intro h
      obtain ⟨-, hkey⟩ | ⟨hvalue, -⟩ | ⟨hvalue, -⟩ := versionCompare_cases a b
      · exact hkey
      · rw [h] at hvalue
        cases hvalue
      · rw [h] at hvalue
        cases hvalue
    · intro h
      rw [← versionCompare_pos_iff, h]
      decide

/-! ## Malformed versions -/

/-- Every component is a number. -/
def WellFormed (v : Bytes) : Prop := ∀ c ∈ split v 46, c ≠ [] ∧ ∀ b ∈ c, isDigit b = true

instance decidableWellFormed (v : Bytes) : Decidable (WellFormed v) :=
  inferInstanceAs (Decidable (∀ c ∈ split v 46, c ≠ [] ∧ ∀ b ∈ c, isDigit b = true))

/-- Where the numbers that the components begin with differ for the first time, that of `a` is
the smaller one. -/
def NotAbove (a b : Bytes) : Prop :=
  ∀ i, (∀ j < i, numbers a j = numbers b j) → numbers a i ≤ numbers b i

/-- A version that does not compare as larger is not above. -/
theorem versionCompare_nonpos_iff_notAbove (a b : Bytes) : versionCompare a b ≤ 0 ↔ NotAbove a b := by
  constructor
  · intro h i hbefore
    rw [versionCompare_nonpos_iff] at h
    by_contra hgt
    exact h ⟨i, fun j hj => (hbefore j hj).symm, not_le.mp hgt⟩
  · intro h
    by_contra hpos
    obtain ⟨i, hbefore, hgt⟩ := (versionCompare_pos_iff a b).mp (not_le.mp hpos)
    exact absurd (h i fun j hj => (hbefore j hj).symm) (not_le.mpr hgt)

section Refusal

variable (strtod : Bytes → Double × ℕ) (machine : Machine) (running binaryPath : Bytes) (d : Disk)

/-- A malformed version is not newer than a well-formed one, and nothing is installed. -/
def RefusesMalformed : Prop :=
  ∀ m, machine.manifest.bind (parseManifest strtod) = .ok m → ¬WellFormed m.version → WellFormed running →
    versionCompare m.version running ≤ 0 ∧
      ∃ detail, checkAndApply strtod machine running binaryPath d = (.upToDate, detail, d)

/-- A manifest that is not newer leaves everything as it is. -/
theorem upToDate_of_nonpos {m : Manifest} (hmanifest : machine.manifest.bind (parseManifest strtod) = .ok m)
    (h : versionCompare m.version running ≤ 0) :
    ∃ detail, checkAndApply strtod machine running binaryPath d = (.upToDate, detail, d) := by
  unfold checkAndApply
  rw [hmanifest]
  dsimp only
  rw [if_pos h]
  exact ⟨_, rfl⟩

/-- **A malformed version is refused** exactly when the numbers that its components begin with
are not above the running version's.
SRC: util.h:65-67, util.cpp:304-314, selfupdate.cpp:122-127 -/
theorem refusesMalformed_iff :
    RefusesMalformed strtod machine running binaryPath d ↔
      ∀ m, machine.manifest.bind (parseManifest strtod) = .ok m → ¬WellFormed m.version → WellFormed running →
        NotAbove m.version running := by
  constructor
  · intro h m hmanifest hmalformed hrunning
    exact (versionCompare_nonpos_iff_notAbove _ _).mp (h m hmanifest hmalformed hrunning).1
  · intro h m hmanifest hmalformed hrunning
    have hnonpos := (versionCompare_nonpos_iff_notAbove _ _).mpr (h m hmanifest hmalformed hrunning)
    exact ⟨hnonpos, upToDate_of_nonpos strtod machine running binaryPath d hmanifest hnonpos⟩

end Refusal

/-! ## A tail that is not looked at -/

open HaikuAgent.Analysis.JsonRoundTrip
open HaikuAgent.Analysis.BinarySwap (sampleMachine samplePath sampleFiles)

/-- The manifest says `2x`. -/
def tailedManifest : Manifest :=
  { version := lit "2x"
    sha256 := lit "ab"
    url := lit "https://h/agent" }

def tailedText : Bytes :=
  dump (.obj [(lit "sha256", .string (lit "ab")), (lit "url", .string (lit "https://h/agent")),
    (lit "version", .string (lit "2x"))])

def tailedMachine : Machine :=
  { sampleMachine true with
    manifest := .ok tailedText }

/-- The example manifest with a tail is parsed. -/
theorem tailed_manifest : parseManifest decimalStrtod tailedText = .ok tailedManifest := by
  have hlossless : Lossless (.obj [(lit "sha256", .string (lit "ab")), (lit "url", .string (lit "https://h/agent")),
      (lit "version", .string (lit "2x"))]) := by
    have hkeys : [lit "sha256", lit "url", lit "version"].Pairwise (· < ·) := by decide
    simp only [Lossless, LosslessEntries, List.map_cons, List.map_nil, and_true]
    exact hkeys
  unfold parseManifest tailedText
  rw [parse_dump decimalStrtod decimalStrtod_reads _ hlossless]
  rfl

/-- It is newer than `1`. -/
theorem tailed_not_refused :
    ¬RefusesMalformed decimalStrtod tailedMachine (lit "1") samplePath ⟨sampleFiles, []⟩ := by
  intro h
  have hmalformed : ¬WellFormed tailedManifest.version := by decide +kernel
  have hrunning : WellFormed (lit "1") := by decide +kernel
  have hnonpos := (h tailedManifest tailed_manifest hmalformed hrunning).1
  have hnewer : versionCompare (lit "2x") (lit "1") = 1 := by decide
  have hversion : tailedManifest.version = lit "2x" := rfl
  rw [hversion, hnewer] at hnonpos
  exact absurd hnonpos (by decide)

end HaikuAgent.Analysis.VersionOrder
