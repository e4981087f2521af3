import HaikuAgent.Model.Runner

/-!
# Truncated output

`truncate_output` keeps a front part of each stream, fits the capacity, and sets a marker behind
a part exactly when something of the stream is missing (`truncateOutput_honest`). From 70 bytes
of capacity on none of its subtractions wraps.
-/

set_option autoImplicit false

namespace HaikuAgent.Analysis.OutputTruncation

open HaikuAgent.Foundation
open HaikuAgent.Model
open HaikuAgent.Model.Runner

/-- The title stands between the streams if there is an error stream. -/
def title (err : Bytes) : Bytes := if 0 < err.length then kErrTitle else []

/-- `result` is made of the parts `p` and `q` of the two streams. -/
structure Truncated (out err result : Bytes) (capacity : ℕ) (p q : Bytes) : Prop where
  output : p <+: out
  error : q <+: err
  shape : result = p ++ (if p = out then [] else kTruncateOut) ++ title err ++ q ++
    (if q = err then [] else kTruncateError)
  bounded : result.length ≤ capacity
  whole : (out ++ title err ++ err).length < capacity → p = out ∧ q = err

/-- A subtraction of sizes, `none` where it wraps. -/
def checkedSub (a b : ℕ) : Option ℕ := if b ≤ a then some (a - b) else none

/-- `truncate_output` with its subtractions checked.
SRC: runner.cpp:139-163 -/
def truncateChecked (stdoutData stderrData : Bytes) (capacity : ℕ) : Option Bytes := do
  let errTitle := if 0 < stderrData.length then kErrTitle else []
  let available ← if errTitle.length < capacity then checkedSub capacity errTitle.length else some 0
  if stdoutData.length + stderrData.length < available then
    return stdoutData ++ errTitle ++ stderrData
  let half := available / 2
  if half < stdoutData.length ∧ half < stderrData.length then
    let room ← checkedSub available kTruncateError.length
    let truncateSize ← checkedSub room kTruncateOut.length
    return stdoutData.take (truncateSize / 2) ++ kTruncateOut ++ errTitle ++
      stderrData.take (truncateSize / 2) ++ kTruncateError
  if stdoutData.length ≤ half then
    let truncateSize ← checkedSub available kTruncateError.length
    let keep ← if stdoutData.length < truncateSize then checkedSub truncateSize stdoutData.length else some 0
    return stdoutData ++ errTitle ++ stderrData.take (min keep stderrData.length) ++ kTruncateError
  let truncateSize ← checkedSub available kTruncateOut.length
  let keep ← if stderrData.length < truncateSize then checkedSub truncateSize stderrData.length else some 0
  return stdoutData.take (min keep stdoutData.length) ++ kTruncateOut ++ errTitle ++ stderrData

/-! ## The constants -/

/-- The length of the marker for standard output. -/
theorem length_kTruncateOut : kTruncateOut.length = 23 := rfl

/-- The length of the marker for standard error. -/
theorem length_kTruncateError : kTruncateError.length = 23 := rfl

/-- The title is there, with its fixed length, exactly when there is an error text. -/
theorem length_title (err : Bytes) : (title err).length = if 0 < err.length then 24 else 0 := by
  unfold title
  split_ifs <;> rfl

/-- The capacity holds the title and both markers. -/
theorem room (err : Bytes) {capacity : ℕ} (hcapacity : 70 ≤ capacity) :
    46 ≤ capacity - (title err).length ∧ (title err).length < capacity := by
  rw [length_title]
  split_ifs <;> omega

/-- A subtraction that stays above zero does not wrap. -/
theorem checkedSub_of_le {a b : ℕ} (h : b ≤ a) : checkedSub a b = some (a - b) := if_pos h

/-- A size is subtracted as a natural number when it does not go below zero. -/
theorem sizeSub_of_le {a b : ℕ} (h : b ≤ a) : sizeSub a b = a - b := if_pos h

/-! ## The cases -/

/-- Front parts of the streams, with a marker behind each that is shorter. -/
theorem truncated_take (out err : Bytes) (capacity k l : ℕ)
    (hbounded : min k out.length + (if out.length ≤ k then 0 else 23) + (title err).length +
      min l err.length + (if err.length ≤ l then 0 else 23) ≤ capacity)
    (hwhole : out.length + (title err).length + err.length < capacity → out.length ≤ k ∧ err.length ≤ l) :
    Truncated out err (out.take k ++ (if out.length ≤ k then [] else kTruncateOut) ++ title err ++
      err.take l ++ (if err.length ≤ l then [] else kTruncateError)) capacity (out.take k) (err.take l) := by
  refine ⟨List.take_prefix k out, List.take_prefix l err, ?_, ?_, ?_⟩
  · simp only [List.take_eq_self_iff]
  · have hmarker (p : Prop) [Decidable p] (marker : Bytes) :
        (if p then [] else marker).length = if p then 0 else marker.length := by
      split_ifs <;> rfl
    simp only [List.length_append, List.length_take, hmarker, length_kTruncateOut, length_kTruncateError]
    exact hbounded
  · intro hlength
    simp only [List.length_append] at hlength
    simpa only [List.take_eq_self_iff] using hwhole hlength

/-- The result has the shape of a truncated reply, with some kept lengths, from capacity 70 on. -/
theorem truncateOutput_truncated (out err : Bytes) (capacity : ℕ) (hcapacity : 70 ≤ capacity) :
    ∃ p q, Truncated out err (truncateOutput out err capacity) capacity p q := by
  obtain ⟨hroom, hlt⟩ := room err hcapacity
  have htitle : (if 0 < err.length then kErrTitle else []) = title err := rfl
  unfold truncateOutput
  rw [htitle]
  dsimp only
  rw [if_pos hlt, length_kTruncateOut, length_kTruncateError]
  have hsum : capacity - (title err).length + (title err).length = capacity := by omega
  generalize capacity - (title err).length = available at hroom hsum
  have hone : sizeSub available 23 = available - 23 := sizeSub_of_le (by omega)
  have hboth : sizeSub (available - 23) 23 = available - 46 := sizeSub_of_le (by omega)
  have hkeep (n : ℕ) : (if n < available - 23 then available - 23 - n else 0) = available - 23 - n := by
    split_ifs <;> omega
  rw [hone, hboth, hkeep, hkeep]
  split_ifs with hfits hlong hout
  · have h := truncated_take out err capacity out.length err.length
    rw [if_pos le_rfl, if_pos le_rfl, if_pos le_rfl, if_pos le_rfl, List.take_length, List.take_length,
      List.append_nil, List.append_nil] at h
    exact ⟨_, _, h (by omega) (by omega)⟩
  · have h := truncated_take out err capacity ((available - 46) / 2) ((available - 46) / 2)
    rw [if_neg (by omega), if_neg (by omega), if_neg (by omega), if_neg (by omega)] at h
    exact ⟨_, _, h (by omega) (by omega)⟩
  · have h := truncated_take out err capacity out.length (min (available - 23 - out.length) err.length)
    rw [if_pos le_rfl, if_pos le_rfl, if_neg (by omega), if_neg (by omega), List.take_length,
      List.append_nil] at h
    exact ⟨_, _, h (by omega) (by omega)⟩
  · have h := truncated_take out err capacity (min (available - 23 - err.length) out.length) err.length
    rw [if_pos (le_refl err.length), if_pos (le_refl err.length), if_neg (by omega), if_neg (by omega),
      List.take_length, List.append_nil] at h
    exact ⟨_, _, h (by omega) (by omega)⟩

/-- No subtraction wraps. -/
theorem truncateChecked_eq (out err : Bytes) (capacity : ℕ) (hcapacity : 70 ≤ capacity) :
    truncateChecked out err capacity = some (truncateOutput out err capacity) := by
  obtain ⟨hroom, hlt⟩ := room err hcapacity
  have htitle : (if 0 < err.length then kErrTitle else []) = title err := rfl
  unfold truncateChecked truncateOutput
  rw [htitle]
  dsimp only
  rw [if_pos hlt, checkedSub_of_le hlt.le, length_kTruncateOut, length_kTruncateError, if_pos hlt]
  generalize capacity - (title err).length = available at hroom
  simp only [Option.bind_eq_bind, Option.bind_some]
  have hone : checkedSub available 23 = some (sizeSub available 23) := by
    rw [checkedSub_of_le (by omega), sizeSub_of_le (by omega)]
  have hboth : checkedSub (sizeSub available 23) 23 = some (sizeSub (sizeSub available 23) 23) := by
    have hrest : 23 ≤ sizeSub available 23 := by
      rw [sizeSub_of_le (by omega)]
      omega
    rw [checkedSub_of_le hrest, sizeSub_of_le hrest]
  simp only [hone, hboth, Option.bind_some]
  split_ifs with hfits hlong hout hless hless
  · rfl
  · rfl
  · rw [checkedSub_of_le hless.le]
    rfl
  · rfl
  · rw [checkedSub_of_le hless.le]
    rfl
  · rfl

/-- **`truncate_output` is bounded and honest**, and none of its subtractions wraps.
SRC: runner.cpp:139-163 -/
theorem truncateOutput_honest (out err : Bytes) (capacity : ℕ) (hcapacity : 70 ≤ capacity) :
    (∃ p q, Truncated out err (truncateOutput out err capacity) capacity p q) ∧
      truncateChecked out err capacity = some (truncateOutput out err capacity) :=
  ⟨truncateOutput_truncated out err capacity hcapacity, truncateChecked_eq out err capacity hcapacity⟩

def longOutput : Bytes := List.replicate 2000 97

def longError : Bytes := List.replicate 1500 98

/-- Both streams are cut, and each has its marker. -/
theorem truncateOutput_honest_long :
    truncateOutput longOutput longError kMaxPluginOutputSize =
        List.replicate 1215 97 ++ kTruncateOut ++ kErrTitle ++ List.replicate 1215 98 ++ kTruncateError ∧
      (∃ p q, Truncated longOutput longError (truncateOutput longOutput longError kMaxPluginOutputSize)
        kMaxPluginOutputSize p q) ∧
      truncateChecked longOutput longError kMaxPluginOutputSize =
        some (truncateOutput longOutput longError kMaxPluginOutputSize) :=
  ⟨by decide +kernel, truncateOutput_honest longOutput longError kMaxPluginOutputSize (by decide)⟩

end HaikuAgent.Analysis.OutputTruncation
