import HaikuAgent.Model.SelfUpdate
import HaikuAgent.Analysis.JsonRoundTrip

/-!
# The swap of the binary

What a raw-binary update leaves, and what is at the binary's path while it runs, for every
disk and every pattern of calls that fail.
-/

set_option autoImplicit false

namespace HaikuAgent.Analysis.BinarySwap

open HaikuAgent.Foundation
open HaikuAgent.Model
open HaikuAgent.Model.Json
open HaikuAgent.Model.SelfUpdate
open HaikuAgent.Analysis.JsonRoundTrip

/-- `check_and_apply` comes to the raw-binary path with a verified artifact of this content. -/
structure Raw (strtod : Bytes → Double × ℕ) (machine : Machine) (currentVersion : Bytes) (m : Manifest)
    (content : Bytes) : Prop where
  manifest : machine.manifest.bind (parseManifest strtod) = .ok m
  newer : 0 < versionCompare m.version currentVersion
  downloaded : machine.downloaded = (some content, [])
  verified : machine.sha256Hex content = m.sha256
  raw : isHpkg (artifactPath m.url) = false

/-! ## The calls -/

section Calls

variable (d : Disk) (works : Bool) (src dst : Bytes)

/-- The files once the file at `src` is at `dst`, if there is one. -/
def moved (files : Files) (src dst : Bytes) : Files :=
  match files src with
  | none => files
  | some content => Function.update (Function.update files src none) dst (some content)

/-- Moving a file leaves the other paths alone. -/
theorem moved_ne (files : Files) (path : Bytes) (hsrc : path ≠ src) (hdst : path ≠ dst) :
    moved files src dst path = files path := by
  unfold moved
  cases files src with
  | none => rfl
  | some c =>
    dsimp only
    rw [Function.update_of_ne hdst, Function.update_of_ne hsrc]

/-- Nothing is left at the path that a file is moved from. -/
theorem moved_src (files : Files) (h : src ≠ dst) : moved files src dst src = none := by
  unfold moved
  cases hsrc : files src with
  | none => exact hsrc
  | some c =>
    dsimp only
    rw [Function.update_of_ne h, Function.update_self]

/-- What is moved replaces what was there; where there is nothing to move, nothing changes. -/
theorem moved_dst (files : Files) : moved files src dst dst = (files src).or (files dst) := by
  unfold moved
  cases files src with
  | none => rfl
  | some c => exact Function.update_self _ _ _

/-- A rename moves the file if it works. -/
theorem rename_eq : d.rename works src dst =
    (works && (d.files src).isSome, d.next (if works then moved d.files src dst else d.files)) := by
  unfold Disk.rename moved
  cases hsrc : d.files src with
  | none => cases works <;> rfl
  | some content => cases works <;> rfl

end Calls

/-- At every point so far. -/
def Always (p : Files → Prop) (d : Disk) : Prop := ∀ files ∈ d.past, p files

/-- What always held holds at the next point if it holds there. -/
theorem always_next (p : Files → Prop) (d : Disk) (files : Files) :
    Always p (d.next files) ↔ Always p d ∧ p files := by
  unfold Always Disk.next
  rw [List.forall_mem_append, List.forall_mem_singleton]

/-! ## The names -/

def freshPath (binaryPath : Bytes) : Bytes := binaryPath ++ lit ".new"
def oldPath (binaryPath : Bytes) : Bytes := binaryPath ++ lit ".old"

/-- The new binary is not placed where the binary is. -/
theorem fresh_ne_binary (binaryPath : Bytes) : freshPath binaryPath ≠ binaryPath := fun h =>
  absurd (List.append_right_eq_self.mp h) (by decide)

/-- The old binary is not kept where the binary is. -/
theorem old_ne_binary (binaryPath : Bytes) : oldPath binaryPath ≠ binaryPath := fun h =>
  absurd (List.append_right_eq_self.mp h) (by decide)

/-- The new binary is not placed where the old one is kept. -/
theorem fresh_ne_old (binaryPath : Bytes) : freshPath binaryPath ≠ oldPath binaryPath := fun h =>
  absurd (List.append_cancel_left h) (by decide)

/-! ## The swap, step by step -/

section Swap

variable (machine : Machine) (artifact binaryPath content : Bytes) (d : Disk)

/-- The new binary comes to stand beside the target. -/
def Places : Prop := machine.place = true ∨ machine.cp.exitCode = 0

instance : Decidable (Places machine) := inferInstanceAs (Decidable (_ ∨ _))

/-- The files when it stands there. -/
def beside (files : Files) : Files :=
  if machine.place then moved files artifact (freshPath binaryPath)
  else Function.update files (freshPath binaryPath) (files artifact)

/-- The files after the binary was to be moved aside. -/
def aside (files : Files) : Files :=
  if machine.keep then moved files binaryPath (oldPath binaryPath) else files

/-- The files after the new binary was to be moved into place, and the old one back if it was
not. -/
def settled (files : Files) : Files :=
  if machine.swap then moved files (freshPath binaryPath) binaryPath
  else if machine.restore then moved files (oldPath binaryPath) binaryPath
  else files

/-- A copy of a file that is there puts its content at the other path. -/
theorem copy_eq (works : Bool) (src dst : Bytes) (hsrc : d.files src = some content) :
    d.copy works src dst = (works, d.next (if works then Function.update d.files dst (d.files src) else d.files)) := by
  unfold Disk.copy
  rw [hsrc]
  cases works <;> rfl

/-- The disk once the new binary is beside the target. -/
def placedDisk : Disk :=
  (if machine.place then d else d.next d.files).next (beside machine artifact binaryPath d.files)

/-- The new binary is placed by a rename, or by a copy where that fails. -/
theorem placeFresh_eq (hcontent : d.files artifact = some content) :
    placeFresh machine artifact (freshPath binaryPath) d =
      if Places machine then (true, placedDisk machine artifact binaryPath d)
      else (false, (d.next d.files).next d.files) := by
  unfold placeFresh placedDisk beside
  rw [rename_eq d, hcontent]
  by_cases hplace : machine.place = true
  · have hplaces : Places machine := Or.inl hplace
    rw [if_pos hplaces, if_pos hplace, if_pos hplace, hplace]
    rfl
  rw [if_neg hplace, if_neg hplace, if_neg hplace, Bool.eq_false_iff.mpr hplace]
  show (d.next d.files).copy _ artifact _ = _
  rw [copy_eq content (d.next d.files) _ artifact _ hcontent]
  by_cases hcopy : machine.cp.exitCode = 0
  · have hplaces : Places machine := Or.inr hcopy
    rw [if_pos hplaces, if_pos (decide_eq_true hcopy), decide_eq_true hcopy]
    show (true, (d.next d.files).next (Function.update d.files _ (d.files artifact))) = _
    rw [hcontent]
  · have hplaces : ¬Places machine := not_or.mpr ⟨hplace, hcopy⟩
    rw [if_neg hplaces, decide_eq_false hcopy]
    rfl

/-- Once it is placed, the content of the artifact is beside the binary. -/
theorem beside_fresh (hcontent : d.files artifact = some content) :
    beside machine artifact binaryPath d.files (freshPath binaryPath) = some content := by
  unfold beside
  split_ifs
  · rw [moved_dst, hcontent]
    rfl
  · rw [Function.update_self]
    exact hcontent

/-- Moving the binary aside leaves the new one alone. -/
theorem aside_fresh (files : Files) :
    aside machine binaryPath files (freshPath binaryPath) = files (freshPath binaryPath) := by
  unfold aside
  split_ifs
  · exact moved_ne _ _ _ _ (fresh_ne_binary binaryPath) (fresh_ne_old binaryPath)
  · rfl

/-- The disk of an update that came to the swap. -/
def swappedDisk : Disk :=
  let d := placedDisk machine artifact binaryPath d
  let files := aside machine binaryPath d.files
  let d := (d.next d.files).next files
  (if machine.swap then d else d.next files).next (settled machine binaryPath files)

/-- What the calls of a swap make of the files once the new binary is placed. -/
theorem swapBinary_placed (hcontent : d.files artifact = some content) (hplaces : Places machine) :
    ∃ detail, swapBinary machine artifact binaryPath d =
      (if machine.swap then .updated else .error, detail, swappedDisk machine artifact binaryPath d) := by
  have hplaced := placeFresh_eq machine artifact binaryPath content d hcontent
  rw [if_pos hplaces] at hplaced
  have hfresh : (placedDisk machine artifact binaryPath d).files (freshPath binaryPath) = some content :=
    beside_fresh machine artifact binaryPath content d hcontent
  unfold swapBinary swappedDisk
  dsimp only
  generalize placedDisk machine artifact binaryPath d = e at hplaced hfresh ⊢
  have hkeep : (e.chmod.rename machine.keep binaryPath (oldPath binaryPath)).2 =
      (e.next e.files).next (aside machine binaryPath e.files) := by
    rw [rename_eq]
    rfl
  rw [← aside_fresh machine binaryPath e.files] at hfresh
  generalize aside machine binaryPath e.files = files at hkeep hfresh ⊢
  have hswap : ((e.next e.files).next files).rename machine.swap (freshPath binaryPath) binaryPath =
      (machine.swap, ((e.next e.files).next files).next
        (if machine.swap then moved files (freshPath binaryPath) binaryPath else files)) := by
    rw [rename_eq]
    show (machine.swap && (files (freshPath binaryPath)).isSome, _) = _
    rw [hfresh, Option.isSome_some, Bool.and_true]
    rfl
  unfold freshPath oldPath at *
  rw [hplaced]
  dsimp only
  rw [hkeep, hswap]
  unfold settled
  cases machine.swap with
  | true => exact ⟨_, rfl⟩
  | false =>
    refine ⟨lit "rename into place failed: " ++ machine.strerror, ?_⟩
    simp only [Bool.false_eq_true, if_false]
    rw [rename_eq]
    rfl

/-- A new binary that cannot be placed leaves the files as they were. -/
theorem swapBinary_unplaced (hcontent : d.files artifact = some content) (hplaces : ¬Places machine) :
    ∃ detail, swapBinary machine artifact binaryPath d =
      (.error, detail, (d.next d.files).next d.files) := by
  have hplaced := placeFresh_eq machine artifact binaryPath content d hcontent
  rw [if_neg hplaces] at hplaced
  unfold freshPath at hplaced
  unfold swapBinary
  dsimp only
  rw [hplaced]
  exact ⟨_, rfl⟩

/-! ## What is where -/

section Places

variable (files : Files)

/-- Placing the new binary takes the binary away only if it is itself the artifact. -/
theorem beside_binary : beside machine artifact binaryPath files binaryPath =
    if artifact = binaryPath ∧ machine.place = true then none else files binaryPath := by
  have hfresh := (fresh_ne_binary binaryPath).symm
  unfold beside
  by_cases hplace : machine.place = true
  · rw [if_pos hplace]
    by_cases hname : artifact = binaryPath
    · rw [if_pos ⟨hname, hplace⟩, hname, moved_src _ _ _ hfresh]
    · rw [if_neg fun h => hname h.1, moved_ne _ _ _ _ (Ne.symm hname) hfresh]
  · rw [if_neg hplace, if_neg fun h => hplace h.2, Function.update_of_ne hfresh]

/-- It takes the old one away only if that is the artifact. -/
theorem beside_old : beside machine artifact binaryPath files (oldPath binaryPath) =
    if artifact = oldPath binaryPath ∧ machine.place = true then none else files (oldPath binaryPath) := by
  have hfresh := (fresh_ne_old binaryPath).symm
  unfold beside
  by_cases hplace : machine.place = true
  · rw [if_pos hplace]
    by_cases hname : artifact = oldPath binaryPath
    · rw [if_pos ⟨hname, hplace⟩, hname, moved_src _ _ _ hfresh]
    · rw [if_neg fun h => hname h.1, moved_ne _ _ _ _ (Ne.symm hname) hfresh]
  · rw [if_neg hplace, if_neg fun h => hplace h.2, Function.update_of_ne hfresh]

/-- Moving the binary aside takes it away. -/
theorem aside_binary : aside machine binaryPath files binaryPath =
    if machine.keep then none else files binaryPath := by
  unfold aside
  split_ifs
  · exact moved_src _ _ _ (old_ne_binary binaryPath).symm
  · rfl

/-- What is moved aside becomes the old binary. -/
theorem aside_old : aside machine binaryPath files (oldPath binaryPath) =
    if machine.keep then (files binaryPath).or (files (oldPath binaryPath)) else files (oldPath binaryPath) := by
  unfold aside
  split_ifs
  · exact moved_dst _ _ _
  · rfl

/-- In the end the new binary is there, or the old one is put back, where this works. -/
theorem settled_binary : settled machine binaryPath files binaryPath =
    if machine.swap then (files (freshPath binaryPath)).or (files binaryPath)
    else if machine.restore then (files (oldPath binaryPath)).or (files binaryPath)
    else files binaryPath := by
  unfold settled
  split_ifs
  · exact moved_dst _ _ _
  · exact moved_dst _ _ _
  · rfl

/-- A swap that works leaves the old binary at its path. -/
theorem settled_old (hswap : machine.swap = true) : settled machine binaryPath files (oldPath binaryPath) =
    files (oldPath binaryPath) := by
  unfold settled
  rw [if_pos hswap]
  exact moved_ne _ _ _ _ (fresh_ne_old binaryPath).symm (old_ne_binary binaryPath)

end Places

end Swap

/-! ## A failed update -/

section Update

variable (strtod : Bytes → Double × ℕ) (machine : Machine) (currentVersion binaryPath : Bytes) (d : Disk)

/-- An update by the raw-binary path leaves the agent as it was, or installs the new one and
keeps the old. -/
def LeavesAgent : Prop :=
  ∀ m content, Raw strtod machine currentVersion m content →
    let r := checkAndApply strtod machine currentVersion binaryPath d
    let files := r.2.2.files
    (r.1 = .error → files binaryPath = d.files binaryPath) ∧
      (r.1 = .updated →
        (∃ c, files binaryPath = some c ∧ machine.sha256Hex c = m.sha256) ∧
          ∀ previous, d.files binaryPath = some previous → files (oldPath binaryPath) = some previous)

/-- The artifact is staged apart from the binary and its `.old`. -/
def LeavesApart (binary old : Option Bytes) : Prop :=
  if machine.swap then machine.keep = true ∨ binary = none ∨ old = binary
  else if machine.keep = true ∧ binary ≠ none then machine.restore = true
  else machine.restore = true → old = none ∨ old = binary

/-- The artifact is staged as the `.old`. -/
def LeavesOnOld (binary : Option Bytes) (content : Bytes) : Prop :=
  if machine.swap then
    binary = none ∨ machine.unlink = false ∧
      (machine.keep = true ∨ machine.place = false ∧ binary = some content)
  else if machine.keep = true ∧ binary ≠ none then machine.restore = true
  else machine.restore = true → machine.place = true ∨ binary = some content

/-- The artifact is staged as the binary itself. -/
def LeavesOnBinary (binary old : Option Bytes) (content : Bytes) : Prop :=
  if machine.swap then
    machine.unlink = false ∧
      (binary = none ∨ binary = if machine.place = false ∧ machine.keep = true then some content else old)
  else
    binary =
      if machine.place then (if machine.restore then old else none)
      else if machine.keep then (if machine.restore then some content else none)
      else if machine.restore then old.or (some content) else some content

/-- When an update leaves the agent. -/
def Leaves (artifact content : Bytes) : Prop :=
  let binary := d.files binaryPath
  let old := d.files (oldPath binaryPath)
  if Places machine then
    if artifact = binaryPath then LeavesOnBinary machine binary old content
    else if artifact = oldPath binaryPath then LeavesOnOld machine binary content
    else LeavesApart machine binary old
  else artifact = binaryPath → binary = some content

/-- The disk when the artifact was downloaded. -/
def staged (artifact content : Bytes) : Disk :=
  d.next (Function.update d.files artifact (some content))

/-- The staged artifact is what was downloaded. -/
theorem staged_artifact (artifact content : Bytes) : (staged d artifact content).files artifact = some content :=
  Function.update_self _ _ _

/-- A raw binary that is newer and verified is swapped in. -/
theorem checkAndApply_raw (m : Manifest) (content : Bytes) (h : Raw strtod machine currentVersion m content) :
    checkAndApply strtod machine currentVersion binaryPath d =
      let r := swapBinary machine (artifactPath m.url) binaryPath (staged d (artifactPath m.url) content)
      match r.1 with
      | .updated => (.updated, r.2.1, r.2.2.unlink machine.unlink (artifactPath m.url))
      | outcome => (outcome, r.2.1, r.2.2) := by
  unfold checkAndApply install
  rw [h.manifest, h.downloaded]
  dsimp only
  have hdigest : sha256FileHex machine (staged d (artifactPath m.url) content).files (artifactPath m.url) =
      m.sha256 := by
    unfold sha256FileHex
    rw [staged_artifact]
    exact h.verified
  rw [if_neg (not_le.mpr h.newer), if_neg (not_not.mpr rfl), h.raw, if_neg Bool.false_ne_true]
  rw [← staged, hdigest]
  refine (if_neg (not_not.mpr rfl)).trans ?_
  cases (swapBinary machine (artifactPath m.url) binaryPath (staged d (artifactPath m.url) content)).1 <;> rfl

/-- The outcome of a raw-binary update, and what it leaves at a path. -/
theorem raw_spec (m : Manifest) (content : Bytes) (h : Raw strtod machine currentVersion m content) :
    let artifact := artifactPath m.url
    let d' := staged d artifact content
    let files := settled machine binaryPath (aside machine binaryPath (beside machine artifact binaryPath d'.files))
    let r := checkAndApply strtod machine currentVersion binaryPath d
    (Places machine → machine.swap = true → r.1 = .updated ∧
        r.2.2 = (swappedDisk machine artifact binaryPath d').unlink machine.unlink artifact ∧
        ∀ path, r.2.2.files path = if machine.unlink = true ∧ path = artifact then none else files path) ∧
      (Places machine → machine.swap = false → r.1 = .error ∧
        r.2.2 = swappedDisk machine artifact binaryPath d' ∧ r.2.2.files = files) ∧
      (¬Places machine → r.1 = .error ∧ r.2.2 = (d'.next d'.files).next d'.files) := by
  have hcontent := staged_artifact d (artifactPath m.url) content
  dsimp only
  rw [checkAndApply_raw strtod machine currentVersion binaryPath d m content h]
  refine ⟨fun hplaces hswap => ?_, fun hplaces hswap => ?_, fun hplaces => ?_⟩
  · obtain ⟨detail, hrun⟩ := swapBinary_placed machine _ binaryPath content _ hcontent hplaces
    rw [hrun, hswap]
    refine ⟨rfl, rfl, fun path => ?_⟩
    show (if machine.unlink then Function.update (settled machine binaryPath _) _ none
      else settled machine binaryPath _) path = _
    by_cases hunlink : machine.unlink = true
    · rw [if_pos hunlink, Function.update_apply]
      simp only [hunlink, true_and]
      rfl
    · rw [if_neg hunlink, if_neg fun h => hunlink h.1]
      rfl
  · obtain ⟨detail, hrun⟩ := swapBinary_placed machine _ binaryPath content _ hcontent hplaces
    rw [hrun, hswap]
    exact ⟨rfl, rfl, rfl⟩
  · obtain ⟨detail, hrun⟩ := swapBinary_unplaced machine _ binaryPath content _ hcontent hplaces
    rw [hrun]
    exact ⟨rfl, rfl⟩

/-- When an update leaves the agent, the files being what they are. -/
theorem leaves_iff_of_raw (m : Manifest) (content : Bytes) (h : Raw strtod machine currentVersion m content) :
    (let r := checkAndApply strtod machine currentVersion binaryPath d
    let files := r.2.2.files
    (r.1 = .error → files binaryPath = d.files binaryPath) ∧
      (r.1 = .updated →
        (∃ c, files binaryPath = some c ∧ machine.sha256Hex c = m.sha256) ∧
          ∀ previous, d.files binaryPath = some previous → files (oldPath binaryPath) = some previous)) ↔
      Leaves machine binaryPath d (artifactPath m.url) content := by
  obtain ⟨hupdated, herror, hunplaced⟩ := raw_spec strtod machine currentVersion binaryPath d m content h
  have hverified := h.verified
  dsimp only at *
  generalize checkAndApply strtod machine currentVersion binaryPath d = r at *
  have hfresh := (aside_fresh machine binaryPath _).trans (beside_fresh machine (artifactPath m.url) binaryPath content _
    (staged_artifact d (artifactPath m.url) content))
  generalize artifactPath m.url = artifact at *
  have hstaged (path : Bytes) : (staged d artifact content).files path =
    if path = artifact then some content else d.files path := Function.update_apply _ _ _ _
  unfold Leaves
  dsimp only
  by_cases hplaces : Places machine
  · rw [if_pos hplaces]
    have hnames := old_ne_binary binaryPath
    by_cases hswap : machine.swap = true
    · obtain ⟨houtcome, -, hfiles⟩ := hupdated hplaces hswap
      rw [houtcome, hfiles, hfiles, settled_binary, settled_old _ _ _ hswap, if_pos hswap, hfresh, aside_old,
        beside_old, beside_binary, hstaged, hstaged]
      unfold LeavesOnBinary LeavesOnOld LeavesApart
      simp only [hswap]
      generalize d.files binaryPath = binary
      generalize d.files (oldPath binaryPath) = old
      by_cases hbinary : artifact = binaryPath
      · subst hbinary
        cases machine.unlink <;> cases machine.place <;> cases machine.keep <;> cases binary <;> cases old <;>
          simp [hnames, hnames.symm, hverified, eq_comm]
      by_cases hold : artifact = oldPath binaryPath
      · subst hold
        cases machine.unlink <;> cases machine.place <;> cases machine.keep <;> cases binary <;> cases old <;>
          simp [hnames, hnames.symm, hverified, eq_comm]
      · cases machine.keep <;> cases binary <;> cases old <;>
          simp [hbinary, hold, Ne.symm hbinary, Ne.symm hold, hverified]
    · obtain ⟨houtcome, -, hfiles⟩ := herror hplaces (Bool.eq_false_iff.mpr hswap)
      rw [houtcome, hfiles, settled_binary, if_neg hswap, aside_old, aside_binary, beside_old, beside_binary, hstaged, hstaged]
      unfold LeavesOnBinary LeavesOnOld LeavesApart
      simp only [hswap]
      generalize d.files binaryPath = binary
      generalize d.files (oldPath binaryPath) = old
      by_cases hbinary : artifact = binaryPath
      · subst hbinary
        cases machine.restore <;> cases machine.place <;> cases machine.keep <;> cases binary <;> cases old <;>
          simp [hnames, hnames.symm, eq_comm]
      by_cases hold : artifact = oldPath binaryPath
      · subst hold
        cases machine.restore <;> cases machine.place <;> cases machine.keep <;> cases binary <;> cases old <;>
          simp [hnames, hnames.symm, eq_comm]
      · cases machine.restore <;> cases machine.keep <;> cases binary <;> cases old <;>
          simp [hbinary, hold, Ne.symm hbinary, Ne.symm hold]
  · rw [if_neg hplaces]
    obtain ⟨houtcome, hdisk⟩ := hunplaced hplaces
    rw [houtcome, hdisk]
    show (_ → (staged d artifact content).files binaryPath = _) ∧ _ ↔ _
    rw [hstaged]
    by_cases hbinary : artifact = binaryPath
    · simp [hbinary, eq_comm]
    · simp [hbinary, Ne.symm hbinary]

/-- Exactly when a raw-binary update leaves the agent: the calls that fail are not ones that
lose the old binary, or bring a stale one back. -/
theorem leavesAgent_iff : LeavesAgent strtod machine currentVersion binaryPath d ↔
    ∀ m content, Raw strtod machine currentVersion m content →
      Leaves machine binaryPath d (artifactPath m.url) content := by
  unfold LeavesAgent
  refine forall_congr' fun m => forall_congr' fun content => forall_congr' fun h => ?_
  exact leaves_iff_of_raw strtod machine currentVersion binaryPath d m content h

/-! ## A crash -/

/-- There is a binary, the previous one or the new one. -/
def Whole (previous : Option Bytes) (content : Bytes) (binary : Option Bytes) : Prop :=
  ∃ c, binary = some c ∧ (previous = some c ∨ c = content)

/-- Where there is no file, there is no whole binary. -/
@[simp] theorem whole_none (previous : Option Bytes) (content : Bytes) : ¬Whole previous content none := by
  rintro ⟨c, hc, -⟩
  cases hc

/-- A whole binary is the previous one or the new one. -/
@[simp] theorem whole_some (previous : Option Bytes) (content c : Bytes) :
    Whole previous content (some c) ↔ previous = some c ∨ c = content := by
  constructor
  · rintro ⟨c', hc, h⟩
    cases hc
    exact h
  · exact fun h => ⟨c, rfl, h⟩

/-- From the moment the artifact is verified on, there is a whole binary at every point. -/
def SwapsAtomically (files : Files) : Prop :=
  ∀ m content, Raw strtod machine currentVersion m content →
    Always (fun now => Whole (files binaryPath) content (now binaryPath))
      (checkAndApply strtod machine currentVersion binaryPath ⟨files, []⟩).2.2

/-- When there is: nothing moves the binary aside. -/
def StaysWhole (artifact content : Bytes) (files : Files) : Prop :=
  let binary := files binaryPath
  let old := files (oldPath binaryPath)
  if artifact = binaryPath then
    Places machine → machine.place = false ∧ machine.keep = false ∧
      if machine.swap then machine.unlink = false
      else machine.restore = true → old = none ∨ binary = old ∨ old = some content
  else binary ≠ none ∧ (Places machine → machine.keep = false ∧
    (artifact = oldPath binaryPath ∨ machine.swap = true ∨ machine.restore = false ∨ old = none ∨
      binary = old ∨ old = some content))

/-- The points of an update that comes to the swap. -/
theorem always_swappedDisk (p : Files → Prop) (artifact : Bytes) (start : Files) :
    Always p (swappedDisk machine artifact binaryPath ⟨start, [start]⟩) ↔
      p start ∧ p (beside machine artifact binaryPath start) ∧
        p (aside machine binaryPath (beside machine artifact binaryPath start)) ∧
        p (settled machine binaryPath (aside machine binaryPath (beside machine artifact binaryPath start))) := by
  have hstart : Always p ⟨start, [start]⟩ ↔ p start := List.forall_mem_singleton
  unfold swappedDisk placedDisk
  cases machine.swap <;> cases machine.place <;>
    simp only [if_true, if_false, Bool.false_eq_true, always_next, hstart] <;>
    simp only [Disk.next] <;> tauto

/-- The binary stays whole in an update exactly when the swap keeps it so. -/
theorem staysWhole_iff_of_raw (m : Manifest) (content : Bytes) (files : Files)
    (h : Raw strtod machine currentVersion m content) :
    Always (fun now => Whole (files binaryPath) content (now binaryPath))
        (checkAndApply strtod machine currentVersion binaryPath ⟨files, []⟩).2.2 ↔
      StaysWhole machine binaryPath (artifactPath m.url) content files := by
  obtain ⟨hupdated, herror, hunplaced⟩ :=
    raw_spec strtod machine currentVersion binaryPath ⟨files, []⟩ m content h
  generalize checkAndApply strtod machine currentVersion binaryPath ⟨files, []⟩ = r at *
  generalize artifactPath m.url = artifact at *
  have hstart (path : Bytes) : (Function.update files artifact (some content)) path =
    if path = artifact then some content else files path := Function.update_apply _ _ _ _
  have hstaged : staged ⟨files, []⟩ artifact content =
    ⟨Function.update files artifact (some content), [Function.update files artifact (some content)]⟩ := rfl
  rw [hstaged] at hupdated herror hunplaced
  generalize Function.update files artifact (some content) = start at *
  have hfresh : beside machine artifact binaryPath start (freshPath binaryPath) = some content :=
    beside_fresh machine artifact binaryPath content ⟨start, []⟩ ((hstart artifact).trans (if_pos rfl))
  have hnames := old_ne_binary binaryPath
  unfold StaysWhole
  dsimp only
  by_cases hplaces : Places machine
  · simp only [hplaces, true_implies]
    by_cases hswap : machine.swap = true
    · obtain ⟨-, hdisk, hfiles⟩ := hupdated hplaces hswap
      have hlast : Always (fun now => Whole (files binaryPath) content (now binaryPath)) r.2.2 ↔
          Always (fun now => Whole (files binaryPath) content (now binaryPath))
            (swappedDisk machine artifact binaryPath ⟨start, [start]⟩) ∧
          Whole (files binaryPath) content (r.2.2.files binaryPath) := by
        rw [hdisk]
        exact always_next _ _ _
      rw [hlast, always_swappedDisk, hfiles, settled_binary, if_pos hswap, if_pos hswap, aside_fresh, hfresh,
        aside_binary, beside_binary, hstart]
      generalize files binaryPath = binary
      generalize files (oldPath binaryPath) = old
      by_cases hbinary : artifact = binaryPath
      · subst hbinary
        cases machine.unlink <;> cases machine.place <;> cases machine.keep <;> simp
      · cases machine.keep <;> cases binary <;> simp [hbinary, Ne.symm hbinary, hswap]
    · rw [(herror hplaces (Bool.eq_false_iff.mpr hswap)).2.1, always_swappedDisk, settled_binary, if_neg hswap,
        if_neg hswap, aside_old, aside_binary, beside_old, beside_binary, hstart, hstart]
      generalize files binaryPath = binary
      generalize files (oldPath binaryPath) = old
      by_cases hbinary : artifact = binaryPath
      · subst hbinary
        cases machine.restore <;> cases machine.place <;> cases machine.keep <;> cases binary <;> cases old <;>
          simp [hnames]
      by_cases hold : artifact = oldPath binaryPath
      · subst hold
        cases machine.restore <;> cases machine.place <;> cases machine.keep <;> cases binary <;> cases old <;>
          simp [hnames, hnames.symm]
      · cases machine.restore <;> cases machine.keep <;> cases binary <;> cases old <;>
          simp [hbinary, hold, Ne.symm hbinary, Ne.symm hold, hswap]
  · have halways : Always (fun now => Whole (files binaryPath) content (now binaryPath)) r.2.2 ↔
        Whole (files binaryPath) content (start binaryPath) := by
      rw [(hunplaced hplaces).2, always_next, always_next]
      unfold Always
      rw [List.forall_mem_singleton]
      exact ⟨fun h => h.2, fun h => ⟨⟨h, h⟩, h⟩⟩
    rw [halways, hstart]
    by_cases hbinary : artifact = binaryPath
    · simp [hbinary, hplaces]
    · cases files binaryPath <;> simp [hbinary, Ne.symm hbinary, hplaces]

/-- Exactly when a raw-binary update swaps the binary atomically. -/
theorem swapsAtomically_iff (files : Files) :
    SwapsAtomically strtod machine currentVersion binaryPath files ↔
      ∀ m content, Raw strtod machine currentVersion m content →
        StaysWhole machine binaryPath (artifactPath m.url) content files := by
  unfold SwapsAtomically
  refine forall_congr' fun m => forall_congr' fun content => forall_congr' fun h => ?_
  exact staysWhole_iff_of_raw strtod machine currentVersion binaryPath m content files h

end Update

/-! ## An update that loses the old binary -/

def sampleManifest : Manifest :=
  { version := lit "2"
    sha256 := lit "ab"
    url := lit "https://h/agent" }

def sampleText : Bytes :=
  dump (.obj [(lit "sha256", .string (lit "ab")), (lit "url", .string (lit "https://h/agent")),
    (lit "version", .string (lit "2"))])

/-- Every call works, but perhaps the one that keeps the old binary. -/
def sampleMachine (keep : Bool) : Machine :=
  { manifest := .ok sampleText
    downloaded := (some [2], [])
    sha256Hex := fun _ => lit "ab"
    pkgman := Exec.Result.init
    pkgmanFiles := id
    place := true
    cp := Exec.Result.init
    keep
    swap := true
    restore := true
    unlink := true
    strerror := [] }

def samplePath : Bytes := lit "/bin/agent"

/-- There is a binary, and no other file. -/
def sampleFiles : Files := Function.update (fun _ => none) samplePath (some [1])

/-- The sample manifest is read as it was written. -/
theorem sample_manifest : parseManifest decimalStrtod sampleText = .ok sampleManifest := by
  have hlossless : Lossless (.obj [(lit "sha256", .string (lit "ab")), (lit "url", .string (lit "https://h/agent")),
      (lit "version", .string (lit "2"))]) := by
    have hkeys : [lit "sha256", lit "url", lit "version"].Pairwise (· < ·) := by decide
    simp only [Lossless, LosslessEntries, List.map_cons, List.map_nil, and_true]
    exact hkeys
  unfold parseManifest sampleText
  rw [parse_dump decimalStrtod decimalStrtod_reads _ hlossless]
  rfl

/-- The sample machine downloads the binary that its manifest names. -/
theorem sample_raw (keep : Bool) :
    Raw decimalStrtod (sampleMachine keep) (lit "1") sampleManifest [2] where
  manifest := sample_manifest
  newer := by decide
  downloaded := rfl
  verified := rfl
  raw := by decide

/-- A new binary is installed, and the old one is not kept. -/
theorem sample_not_leavesAgent :
    ¬LeavesAgent decimalStrtod (sampleMachine false) (lit "1") samplePath ⟨sampleFiles, []⟩ := by
  intro h
  have hleaves := (leavesAgent_iff _ _ _ _ _).mp h sampleManifest [2] (sample_raw false)
  have hplaces : Places (sampleMachine false) := Or.inl rfl
  have hbinary : ¬artifactPath sampleManifest.url = samplePath := by decide
  have hold : ¬artifactPath sampleManifest.url = oldPath samplePath := by decide
  have hfiles : sampleFiles samplePath = some [1] := Function.update_self _ _ _
  have hnone : sampleFiles (oldPath samplePath) = none := Function.update_of_ne (old_ne_binary _) _ _
  unfold Leaves LeavesApart at hleaves
  dsimp only at hleaves
  rw [if_pos hplaces, if_neg hbinary, if_neg hold, hfiles, hnone] at hleaves
  rcases hleaves with h | h | h
  all_goals cases h

/-- Every call works; between two of them there is no binary. -/
theorem sample_not_swapsAtomically :
    ¬SwapsAtomically decimalStrtod (sampleMachine true) (lit "1") samplePath sampleFiles := by
  intro h
  have hwhole := (swapsAtomically_iff _ _ _ _ _).mp h sampleManifest [2] (sample_raw true)
  have hplaces : Places (sampleMachine true) := Or.inl rfl
  have hbinary : ¬artifactPath sampleManifest.url = samplePath := by decide
  unfold StaysWhole at hwhole
  dsimp only at hwhole
  rw [if_neg hbinary] at hwhole
  cases (hwhole.2 hplaces).1

end HaikuAgent.Analysis.BinarySwap
