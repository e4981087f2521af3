import HaikuAgent.Analysis.BinarySwap
import HaikuAgent.Analysis.TransferRetries
import HaikuAgent.Foundation.ShellQuoting
import HaikuAgent.Model.UpdateFetch

/-!
# Where the binary comes from

The updater checks again and again, with any answers of the network and any calls that fail. What
is at the path of the binary, at every point between two calls, was there or at its `.old` when the
first check began, or was downloaded by a check whose manifest named a newer version and this
content's digest, or was put there by `pkgman` from a package downloaded so
(`installed_verified`). What `pkgman` makes of a package is left open.

`Kept` follows the contents: once what is at some paths is trusted, moving it among them changes
nothing about that.
-/

set_option autoImplicit false

namespace HaikuAgent.Analysis.UpdateProvenance

open HaikuAgent.Foundation
open HaikuAgent.Model
open HaikuAgent.Model.Json (Double)
open HaikuAgent.Model.S3 (Outgoing parseUri)
open HaikuAgent.Model.SelfUpdate
open HaikuAgent.Model.UpdateFetch
open HaikuAgent.Analysis.BinarySwap
open HaikuAgent.Analysis.JsonRoundTrip (Lossless LosslessEntries decimalStrtod decimalStrtod_reads parse_dump)
open HaikuAgent.Analysis.TransferRetries (noDigests sent_outgoing)

/-! ## What is kept at some paths -/

/-- What is at the paths `W` is trusted. -/
def Within (W trusted : Bytes → Prop) (files : Files) : Prop :=
  ∀ path, W path → ∀ content, files path = some content → trusted content

section Files

variable {W V trusted : Bytes → Prop} {files : Files} {path src dst : Bytes}

/-- What holds of more paths holds of fewer. -/
theorem Within.mono (h : Within W trusted files) (hsub : ∀ path, V path → W path) : Within V trusted files :=
  fun path hpath => h path (hsub path hpath)

/-- Storing a trusted content keeps what is trusted. -/
theorem Within.update (h : Within W trusted files) (content : Option Bytes)
    (hcontent : W path → ∀ c, content = some c → trusted c) : Within W trusted (Function.update files path content) := by
  intro q hq c hc
  by_cases hpath : q = path
  · subst hpath
    rw [Function.update_self] at hc
    exact hcontent hq c hc
  · rw [Function.update_of_ne hpath] at hc
    exact h q hq c hc

/-- Another path comes to be watched. -/
theorem Within.insert (h : Within W trusted files) (hpath : ∀ c, files path = some c → trusted c) :
    Within (fun q => W q ∨ q = path) trusted files := by
  rintro q (hq | rfl) c hc
  · exact h q hq c hc
  · exact hpath c hc

/-- What is moved to a watched path is trusted. -/
theorem Within.moved (h : Within W trusted files) (hmove : W dst → ∀ c, files src = some c → trusted c) :
    Within W trusted (moved files src dst) := by
  unfold BinarySwap.moved
  cases hsrc : files src with
  | none => exact h
  | some content =>
    have hrest : Within W trusted (Function.update files src none) := h.update none fun _ c hc => by cases hc
    refine hrest.update (some content) ?_
    intro hdst c hc
    cases hc
    exact hmove hdst content hsrc

/-- What is moved from one watched path to another. -/
theorem Within.moved_within (h : Within W trusted files) (hsrc : W src) : Within W trusted (BinarySwap.moved files src dst) :=
  h.moved fun _ => h src hsrc

end Files

/-- Now and at every point so far. -/
structure Kept (W trusted : Bytes → Prop) (d : Disk) : Prop where
  now : Within W trusted d.files
  always : Always (Within W trusted) d

section Disk

variable {W trusted : Bytes → Prop} {d : Disk}

/-- Trusted files after a step are kept trusted at every point. -/
theorem Kept.next (h : Kept W trusted d) {files : Files} (hfiles : Within W trusted files) : Kept W trusted (d.next files) :=
  ⟨hfiles, (always_next _ _ _).mpr ⟨h.always, hfiles⟩⟩

/-- A step that changes nothing keeps what is trusted. -/
theorem Kept.same (h : Kept W trusted d) : Kept W trusted (d.next d.files) := h.next h.now

/-- Removing a file keeps what is trusted. -/
theorem Kept.unlink (h : Kept W trusted d) (works : Bool) (path : Bytes) : Kept W trusted (d.unlink works path) := by
  unfold Disk.unlink
  cases works with
  | true => exact h.next (h.now.update none fun _ c hc => by cases hc)
  | false => exact h.same

end Disk

/-! ## The swap -/

/-- The binary and the one kept. -/
def Own (binaryPath path : Bytes) : Prop := path = binaryPath ∨ path = oldPath binaryPath

/-- The new one too. -/
def OwnOrFresh (binaryPath path : Bytes) : Prop := Own binaryPath path ∨ path = freshPath binaryPath

section Swap

variable (machine : Machine) {artifact binaryPath content : Bytes} {d : Disk} {trusted : Bytes → Prop}

/-- The fresh binary is another file than the agent's own. -/
theorem own_fresh (binaryPath : Bytes) : ¬Own binaryPath (freshPath binaryPath) := by
  rintro (h | h)
  · exact fresh_ne_binary binaryPath h
  · exact fresh_ne_old binaryPath h

/-- The content of the artifact comes to stand beside the binary. -/
theorem within_beside (h : Within (Own binaryPath) trusted d.files) (hcontent : d.files artifact = some content)
    (htrusted : trusted content) : Within (OwnOrFresh binaryPath) trusted (beside machine artifact binaryPath d.files) := by
  have hown : Within (Own binaryPath) trusted (beside machine artifact binaryPath d.files) := by
    unfold beside
    split_ifs
    · exact h.moved fun hfresh => absurd hfresh (own_fresh binaryPath)
    · exact h.update _ fun hfresh => absurd hfresh (own_fresh binaryPath)
  refine hown.insert ?_
  intro c hc
  rw [beside_fresh machine artifact binaryPath content d hcontent] at hc
  cases hc
  exact htrusted

/-- From then on what is moved is moved among these three. -/
theorem within_aside {files : Files} (h : Within (OwnOrFresh binaryPath) trusted files) :
    Within (OwnOrFresh binaryPath) trusted (aside machine binaryPath files) := by
  unfold aside
  split_ifs
  · exact h.moved_within (.inl (.inl rfl))
  · exact h

/-- Settling keeps what is trusted. -/
theorem within_settled {files : Files} (h : Within (OwnOrFresh binaryPath) trusted files) :
    Within (OwnOrFresh binaryPath) trusted (settled machine binaryPath files) := by
  unfold settled
  split_ifs
  · exact h.moved_within (.inr rfl)
  · exact h.moved_within (.inl (.inr rfl))
  · exact h

/-- The swap keeps the agent's own files trusted when the artifact is. -/
theorem kept_swapBinary (h : Kept (Own binaryPath) trusted d) (hcontent : d.files artifact = some content)
    (htrusted : trusted content) : Kept (Own binaryPath) trusted (swapBinary machine artifact binaryPath d).2.2 := by
  by_cases hplaces : Places machine
  · obtain ⟨detail, heq⟩ := swapBinary_placed machine artifact binaryPath content d hcontent hplaces
    rw [heq]
    have hbeside := within_beside machine h.now hcontent htrusted
    have haside := within_aside machine hbeside
    have hown {files : Files} (hfiles : Within (OwnOrFresh binaryPath) trusted files) :
        Within (Own binaryPath) trusted files := hfiles.mono fun _ => .inl
    have hplaced : Kept (Own binaryPath) trusted (placedDisk machine artifact binaryPath d) := by
      unfold placedDisk
      split_ifs
      · exact h.next (hown hbeside)
      · exact h.same.next (hown hbeside)
    unfold swappedDisk
    dsimp only
    have hmoved := hplaced.same.next (hown haside)
    split_ifs
    · exact hmoved.next (hown (within_settled machine haside))
    · exact (hmoved.next (hown haside)).next (hown (within_settled machine haside))
  · obtain ⟨detail, heq⟩ := swapBinary_unplaced machine artifact binaryPath content d hcontent hplaces
    rw [heq]
    exact h.same.same

end Swap

/-! ## A check -/

/-- The artifact is staged in a directory of its own. -/
theorem artifactPath_below (url : Bytes) : kWorkDir ++ lit "/" <+: artifactPath url := List.prefix_append _ _

/-- A path outside of it stays outside with a name behind it. -/
theorem outside_append {path name : Bytes} (hapart : ¬kWorkDir ++ lit "/" <+: path) (hname : (47 : UInt8) ∉ name) :
    ¬kWorkDir ++ lit "/" <+: path ++ name := by
  intro h
  obtain hle | hlt := Nat.lt_or_ge path.length (kWorkDir ++ lit "/").length |>.symm
  · exact hapart (List.prefix_of_prefix_length_le h (List.prefix_append _ _) hle)
  · -- the slash at the end is in the name
    obtain ⟨rest, hrest⟩ := List.prefix_of_prefix_length_le (List.prefix_append path name) h (Nat.le_of_lt hlt)
    rw [← hrest] at h hlt
    have hne : rest ≠ [] := by
      rintro rfl
      rw [List.append_nil] at hlt
      exact lt_irrefl _ hlt
    have hlast : rest.getLast hne = 47 := by
      have hwhole : (kWorkDir ++ lit "/").getLast (by decide) = 47 := by decide
      rw [← List.getLast_append_of_ne_nil (show path ++ rest ≠ [] by simp [hne]) hne]
      simp only [hrest]
      exact hwhole
    exact hname ((List.prefix_append_right_inj path).mp h |>.subset (hlast ▸ List.getLast_mem hne))

/-- The artifact is another file than one outside the work directory. -/
theorem artifact_ne (url : Bytes) {path : Bytes} (hapart : ¬kWorkDir ++ lit "/" <+: path) : artifactPath url ≠ path := by
  rintro rfl
  exact hapart (artifactPath_below url)

/-- The artifact is none of the agent's own files when these are outside the work directory. -/
theorem artifact_not_own (url : Bytes) {binaryPath : Bytes} (hapart : ¬kWorkDir ++ lit "/" <+: binaryPath) :
    ¬Own binaryPath (artifactPath url) := by
  rintro (h | h)
  · exact artifact_ne url hapart h
  · exact artifact_ne url (outside_append hapart (by decide)) h

section Check

variable (strtod : Bytes → Double × ℕ) (machine : Machine) (currentVersion : Bytes)

/-- An update of this machine has downloaded this content: its manifest is newer and has the
content's digest. -/
structure Downloads (m : Manifest) (content : Bytes) : Prop where
  manifest : machine.manifest.bind (parseManifest strtod) = .ok m
  newer : 0 < versionCompare m.version currentVersion
  downloaded : machine.downloaded = (some content, [])
  verified : machine.sha256Hex content = m.sha256

/-- A parsed manifest has a digest. -/
theorem sha256_ne_nil {body : Bytes} {m : Manifest} (h : parseManifest strtod body = .ok m) : m.sha256 ≠ [] := by
  unfold parseManifest at h
  dsimp only at h
  split_ifs at h with _ hmissing
  cases h
  exact (not_or.mp (not_or.mp hmissing).2).1

/-- How a check ends: before the download, with a download that is not what it should be, or with
one that is. -/
theorem checkAndApply_cases (binaryPath : Bytes) (d : Disk) :
    (∃ outcome detail, outcome ≠ .updated ∧
      checkAndApply strtod machine currentVersion binaryPath d = (outcome, detail, d)) ∨
    (∃ url detail d', checkAndApply strtod machine currentVersion binaryPath d = (.error, detail, d') ∧
      (d' = d.next (Function.update d.files (artifactPath url) machine.downloaded.1) ∨
        d' = (d.next (Function.update d.files (artifactPath url) machine.downloaded.1)).unlink machine.unlink
          (artifactPath url))) ∨
    ∃ m content, Downloads strtod machine currentVersion m content ∧
      checkAndApply strtod machine currentVersion binaryPath d =
        install machine m (artifactPath m.url) binaryPath
          (d.next (Function.update d.files (artifactPath m.url) (some content))) := by
  unfold checkAndApply
  cases hmanifest : machine.manifest.bind (parseManifest strtod) with
  | error err => exact .inl ⟨.error, err, by decide, rfl⟩
  | ok m =>
    dsimp only
    split_ifs with hold hfailed hdigest
    · exact .inl ⟨.upToDate, _, by decide, rfl⟩
    · exact .inr (.inl ⟨m.url, _, _, rfl, .inl rfl⟩)
    · exact .inr (.inl ⟨m.url, _, _, rfl, .inr rfl⟩)
    · rw [not_not] at hfailed hdigest
      have hne : m.sha256 ≠ [] := by
        cases htext : machine.manifest with
        | error err =>
          rw [htext] at hmanifest
          cases hmanifest
        | ok body =>
          rw [htext] at hmanifest
          exact sha256_ne_nil strtod hmanifest
      unfold sha256FileHex Disk.next at hdigest
      dsimp only at hdigest
      rw [Function.update_self] at hdigest
      cases hstored : machine.downloaded.1 with
      | none =>
        rw [hstored] at hdigest
        exact absurd hdigest.symm hne
      | some content =>
        rw [hstored] at hdigest
        exact .inr (.inr ⟨m, content, ⟨hmanifest, not_le.mp hold, Prod.ext hstored hfailed, hdigest⟩, rfl⟩)

variable {strtod machine currentVersion} {binaryPath : Bytes} {d : Disk} {trusted : Bytes → Prop}

/-- A package is `pkgman`'s, whether it reports an error or not. -/
theorem kept_installPackage {m : Manifest} {artifact : Bytes} (h : Kept (Own binaryPath) trusted d)
    (hpackage : Within (Own binaryPath) trusted (machine.pkgmanFiles d.files)) :
    Kept (Own binaryPath) trusted (installPackage machine m artifact d).2.2 := by
  unfold installPackage
  dsimp only
  split_ifs
  · exact h.next hpackage
  · exact h.next hpackage

/-- What follows the checksum, for a package and for a raw binary. -/
theorem kept_install {m : Manifest} {artifact : Bytes} (h : Kept (Own binaryPath) trusted d)
    (hpackage : isHpkg artifact = true → Within (Own binaryPath) trusted (machine.pkgmanFiles d.files))
    (hswap : isHpkg artifact = false → Kept (Own binaryPath) trusted (swapBinary machine artifact binaryPath d).2.2) :
    Kept (Own binaryPath) trusted (install machine m artifact binaryPath d).2.2 := by
  have hinstalled : Kept (Own binaryPath) trusted (if isHpkg artifact then installPackage machine m artifact d
      else swapBinary machine artifact binaryPath d).2.2 := by
    split_ifs with hhpkg
    · exact kept_installPackage h (hpackage hhpkg)
    · exact hswap (Bool.not_eq_true _ ▸ hhpkg)
  unfold install
  generalize (if isHpkg artifact then installPackage machine m artifact d
      else swapBinary machine artifact binaryPath d) = installed at hinstalled ⊢
  obtain ⟨outcome, detail, d'⟩ := installed
  cases outcome with
  | updated => exact hinstalled.unlink _ _
  | upToDate => exact hinstalled
  | error => exact hinstalled

/-- The files with an artifact staged. -/
def staged (files : Files) (m : Manifest) (artifact : Bytes) : Files :=
  Function.update files (artifactPath m.url) (some artifact)

/-- What an artifact becomes at the path of the binary or at its `.old`: a raw binary is put there
as it is, and of a package whatever `pkgman` puts there that was not there before. -/
def Becomes (machine : Machine) (binaryPath : Bytes) (files : Files) (m : Manifest) (artifact content : Bytes) : Prop :=
  if isHpkg (artifactPath m.url) then
    ∃ path, Own binaryPath path ∧ machine.pkgmanFiles (staged files m artifact) path = some content ∧
      staged files m artifact path ≠ some content
  else content = artifact

/-- **The step**: a check keeps what is trusted, if what becomes of an artifact it downloads and
verifies is. -/
theorem kept_checkAndApply (hapart : ¬kWorkDir ++ lit "/" <+: binaryPath) (h : Kept (Own binaryPath) trusted d)
    (hdownloads : ∀ m artifact content, Downloads strtod machine currentVersion m artifact →
      Becomes machine binaryPath d.files m artifact content → trusted content) :
    Kept (Own binaryPath) trusted (checkAndApply strtod machine currentVersion binaryPath d).2.2 := by
  have hstaged (url : Bytes) (content : Option Bytes) :
      Kept (Own binaryPath) trusted (d.next (Function.update d.files (artifactPath url) content)) :=
    h.next (h.now.update content fun hown => absurd hown (artifact_not_own url hapart))
  obtain ⟨outcome, detail, -, heq⟩ | ⟨url, detail, d', heq, rfl | rfl⟩ | ⟨m, content, hcontent, heq⟩ :=
    checkAndApply_cases strtod machine currentVersion binaryPath d
  · rw [heq]
    exact h
  · rw [heq]
    exact hstaged url _
  · rw [heq]
    exact (hstaged url _).unlink _ _
  · rw [heq]
    refine kept_install (hstaged m.url (some content)) ?_ ?_
    · intro hhpkg path hpath c hc
      by_cases hbefore : staged d.files m content path = some c
      · exact (hstaged m.url (some content)).now path hpath c hbefore
      · refine hdownloads m content c hcontent ?_
        unfold Becomes
        rw [if_pos hhpkg]
        exact ⟨path, hpath, hc, hbefore⟩
    · intro hraw
      refine kept_swapBinary machine (hstaged m.url (some content)) (Function.update_self _ _ _)
        (hdownloads m content content hcontent ?_)
      unfold Becomes
      rw [hraw, if_neg Bool.false_ne_true]

end Check

/-! ## What is asked for -/

/-- A request for the file at an address. -/
def AsksFor (region : Bytes) (o : Outgoing) (address : Bytes) : Prop :=
  o.request.method = lit "GET" ∧
    ((∃ bucket key, address = lit "s3://" ++ bucket ++ lit "/" ++ key ∧
        o.request.host = Signing.bucketHost bucket region ∧ o.request.path = Signing.objectPath key) ∨
      address = https ++ o.request.host ++ o.request.path ∨
      address = https ++ o.request.host ∧ o.request.path = lit "/")

/-- A parsed S3 address is put together from its bucket and its key. -/
theorem eq_of_parseUri {uri bucket key : Bytes} (h : parseUri uri = some (bucket, key)) :
    uri = lit "s3://" ++ bucket ++ lit "/" ++ key := by
  unfold S3.parseUri at h
  dsimp only at h
  split_ifs at h with hscheme
  rw [Bool.not_eq_false] at hscheme
  obtain ⟨rest, rfl⟩ := List.isPrefixOf_iff_prefix.mp hscheme
  rw [List.drop_left] at h
  cases hslash : find rest [47] 0 with
  | none =>
    rw [hslash] at h
    cases h
  | some slash =>
    rw [hslash] at h
    dsimp only at h
    split_ifs at h
    cases h
    obtain ⟨-, -, ⟨tail, htail⟩, -⟩ := (find_eq_some _ _ _ _).mp hslash
    have hdrop : rest.drop (slash + 1) = tail := by
      rw [← List.drop_drop, ← htail]
      rfl
    have hwhole : rest = rest.take slash ++ (lit "/" ++ tail) := by
      conv_lhs => rw [← List.take_append_drop slash rest, ← htail]
      rfl
    rw [hdrop, List.append_assoc, List.append_assoc, ← hwhole]

/-- A request to a web address asks for that address. -/
theorem asksFor_https {url : Bytes} (hscheme : startsWith url https = true) (region : Bytes) (timeoutMs : ℕ)
    (sinkPath : Bytes) : AsksFor region (httpsRequest url timeoutMs sinkPath) url := by
  obtain ⟨rest, rfl⟩ := List.isPrefixOf_iff_prefix.mp hscheme
  unfold AsksFor httpsRequest
  dsimp only
  rw [List.drop_left]
  cases hslash : find rest [47] 0 with
  | none => exact ⟨rfl, .inr (.inr ⟨rfl, rfl⟩)⟩
  | some slash =>
    refine ⟨rfl, .inr (.inl ?_)⟩
    dsimp only
    rw [List.append_assoc, List.take_append_drop]

/-- Every request of a transfer asks for its object. -/
theorem asksFor_transfer (strtod : Bytes → Double × ℕ) (digests : Signing.Digests) {uri bucket key : Bytes}
    (huri : parseUri uri = some (bucket, key)) (region destPath : Bytes) (cached : CredentialProvider.Credentials)
    (m : S3.Meeting) :
    ∀ o ∈ (S3.get strtod digests region bucket key destPath cached m).sent, AsksFor region o uri := by
  intro o ho
  obtain ⟨creds, now, rfl⟩ := sent_outgoing strtod digests _ cached m o ho
  exact ⟨rfl, .inl ⟨bucket, key, eq_of_parseUri huri, rfl, rfl⟩⟩

/-- Every request for the manifest asks for its address. -/
theorem asksFor_manifest (strtod : Bytes → Double × ℕ) (n : Network) (uri : Bytes) :
    ∀ o ∈ (manifestText strtod n uri).sent, AsksFor n.region o uri := by
  unfold manifestText
  cases huri : parseUri uri with
  | some address => exact asksFor_transfer strtod n.digests huri n.region [] n.cached n.manifest
  | none =>
    dsimp only
    split_ifs with hscheme
    · intro o ho
      rw [List.mem_singleton.mp ho]
      exact asksFor_https hscheme n.region _ _
    · intro o ho
      cases ho

/-- Every request of a download asks for its address. -/
theorem asksFor_download (strtod : Bytes → Double × ℕ) (n : Network) (cached : CredentialProvider.Credentials)
    (url dest : Bytes) : ∀ o ∈ (download strtod n cached url dest).2, AsksFor n.region o url := by
  unfold download
  cases huri : parseUri url with
  | some address => exact asksFor_transfer strtod n.digests huri n.region dest _ n.artifact
  | none =>
    dsimp only
    by_cases hscheme : startsWith url https = true
    · rw [if_pos hscheme]
      intro o ho
      rw [List.mem_singleton.mp ho]
      exact asksFor_https hscheme n.region _ _
    · rw [if_neg hscheme]
      intro o ho
      cases ho

/-- A check asks for the manifest, and for the artifact of a manifest that is newer. -/
theorem asked_for (strtod : Bytes → Double × ℕ) (n : Network) (uri currentVersion : Bytes) :
    ∀ o ∈ asked strtod n uri currentVersion, AsksFor n.region o uri ∨
      ∃ m, newerManifest strtod n uri currentVersion = some m ∧ AsksFor n.region o m.url := by
  intro o ho
  unfold asked at ho
  obtain ho | ho := List.mem_append.mp ho
  · exact .inl (asksFor_manifest strtod n uri o ho)
  · cases hnewer : newerManifest strtod n uri currentVersion with
    | none =>
      rw [hnewer] at ho
      cases ho
    | some m =>
      rw [hnewer] at ho
      exact .inr ⟨m, rfl, asksFor_download strtod n _ m.url _ o ho⟩

/-! ## The updater -/

/-- A name that is a C string and can stand between single quotes. -/
def Nameable (name : Bytes) : Prop := (0 : UInt8) ∉ name ∧ Shell.quote ∉ name

instance (name : Bytes) : Decidable (Nameable name) := inferInstanceAs (Decidable (_ ∧ _))

/-- Where the binary is: outside of the directory that artifacts are staged in. -/
structure Place (binaryPath : Bytes) : Prop where
  apart : ¬kWorkDir ++ lit "/" <+: binaryPath
  nameable : Nameable binaryPath

/-- A check, with the version that runs then. The name of an artifact goes through a shell. -/
structure Check (strtod : Bytes → Double × ℕ) (uri : Bytes) where
  network : Network
  running : Bytes
  nameable : ∀ m, newerManifest strtod network uri running = some m → Nameable (artifactPath m.url)

section Updater

variable (strtod : Bytes → Double × ℕ) (uri binaryPath : Bytes)

def Check.apply (c : Check strtod uri) (d : Disk) : SelfUpdate.Outcome × Bytes × Disk :=
  checkAndApply strtod (machineOf strtod c.network uri c.running) c.running binaryPath d

/-- The disk after a check. -/
def Check.next (d : Disk) (c : Check strtod uri) : Disk := (c.apply strtod uri binaryPath d).2.2

/-- The disk after checks that begin with these files. -/
def diskAfter (files : Files) (checks : List (Check strtod uri)) : Disk :=
  runFrom (Check.next strtod uri binaryPath) ⟨files, [files]⟩ checks

/-- The check has downloaded this artifact whole, as its manifest names it: of a newer version, with
this digest. -/
def Check.Verified (c : Check strtod uri) (m : Manifest) (artifact : Bytes) : Prop :=
  newerManifest strtod c.network uri c.running = some m ∧ (artifactOf strtod c.network uri m).1 = [] ∧
    c.network.stored = some artifact ∧ c.network.calls.sha256Hex artifact = m.sha256

/-- Content that was there when the first of the checks began, or that an artifact became which one
of them verified. -/
def Genuine (files : Files) (checks : List (Check strtod uri)) (content : Bytes) : Prop :=
  files binaryPath = some content ∨ files (oldPath binaryPath) = some content ∨
    ∃ before c after m artifact, checks = before ++ c :: after ∧ c.Verified strtod uri m artifact ∧
      Becomes c.network.calls binaryPath (diskAfter strtod uri binaryPath files before).files m artifact content

/-- What `check_and_apply` downloads is what the check does. -/
theorem verified_of_downloads {c : Check strtod uri} {m : Manifest} {artifact : Bytes}
    (h : Downloads strtod (machineOf strtod c.network uri c.running) c.running m artifact) :
    c.Verified strtod uri m artifact := by
  have hnewer : newerManifest strtod c.network uri c.running = some m := by
    have hmanifest : (manifestText strtod c.network uri).text.bind (parseManifest strtod) = .ok m := h.manifest
    unfold newerManifest
    rw [hmanifest]
    exact if_neg (not_le.mpr h.newer)
  have hdownloaded := h.downloaded
  unfold machineOf at hdownloaded
  dsimp only at hdownloaded
  rw [hnewer] at hdownloaded
  exact ⟨hnewer, congrArg Prod.snd hdownloaded, congrArg Prod.fst hdownloaded, h.verified⟩

/-- **The run**: checks keep what is trusted, if what becomes of the artifacts they verify is. -/
theorem kept_run (hplace : Place binaryPath) {trusted : Bytes → Prop} {d : Disk}
    (h : Kept (Own binaryPath) trusted d) (checks : List (Check strtod uri))
    (hverified : ∀ before c after, checks = before ++ c :: after → ∀ m artifact content,
      c.Verified strtod uri m artifact →
      Becomes c.network.calls binaryPath (runFrom (Check.next strtod uri binaryPath) d before).files m artifact content →
      trusted content) :
    Kept (Own binaryPath) trusted (runFrom (Check.next strtod uri binaryPath) d checks) := by
  induction checks generalizing d with
  | nil => exact h
  | cons c checks ih =>
    refine ih (kept_checkAndApply hplace.apart h ?_) ?_
    · intro m artifact content hdownloads hbecomes
      exact hverified [] c checks rfl m artifact content (verified_of_downloads strtod uri hdownloads) hbecomes
    · intro before c' after heq
      exact hverified (c :: before) c' after (by rw [heq, List.cons_append])

/-- The names reach `cp` and `pkgman` as they are. -/
theorem commands_read (hplace : Place binaryPath) (c : Check strtod uri) {m : Manifest}
    (hnewer : newerManifest strtod c.network uri c.running = some m) :
    Shell.SimpleCommand (copyCommand (artifactPath m.url) (freshPath binaryPath))
        [lit "cp", artifactPath m.url, freshPath binaryPath] ∧
      Shell.SimpleCommand (installCommand (artifactPath m.url))
        [lit "pkgman", lit "install", lit "-y", artifactPath m.url] := by
  have hartifact := (c.nameable m hnewer).2
  have hfresh : Shell.quote ∉ freshPath binaryPath := by
    intro h
    obtain h | h := List.mem_append.mp h
    · exact hplace.nameable.2 h
    · revert h
      decide
  have hcp : Shell.Mode.scan (.plain none) (lit "cp '") = some ([.word (lit "cp")], .single []) := by decide
  have hblank : Shell.Mode.scan (.plain (some (artifactPath m.url))) (lit " '") =
    some ([.word (artifactPath m.url)], .single []) := rfl
  have hpkgman : Shell.Mode.scan (.plain none) (lit "pkgman install -y '") =
    some ([.word (lit "pkgman"), .word (lit "install"), .word (lit "-y")], .single []) := by decide
  have hsplit : lit "' '" = lit "'" ++ lit " '" := by decide
  unfold Shell.SimpleCommand Shell.tokens copyCommand installCommand
  constructor
  · simp only [hsplit, List.append_assoc]
    rw [Shell.tokensFrom_append _ _ _ _ _ hcp, ← List.append_assoc, Shell.tokensFrom_quoted _ _ hartifact,
      Shell.tokensFrom_append _ _ _ _ _ hblank, Shell.tokensFrom_quoted_last _ hfresh]
    rfl
  · rw [List.append_assoc, Shell.tokensFrom_append _ _ _ _ _ hpkgman, Shell.tokensFrom_quoted_last _ hartifact]
    rfl

/-- **Only verified binaries.** At every point of any number of checks, what is at the path of the
binary was there or at its `.old` from the beginning, or it is what became of an artifact that a
check has downloaded by a manifest that names a newer version and the artifact's digest: the
artifact itself, or what `pkgman` put there of a package. A check that reports an update has
verified an artifact, the commands it may run are `cp` and `pkgman` with the names as they are, and
nothing is asked for but the manifest and the artifact it names.
SRC: selfupdate.cpp:24-196, main.cpp:757-778 -/
theorem installed_verified (hplace : Place binaryPath) (files : Files) (checks : List (Check strtod uri)) :
    (∀ now ∈ (diskAfter strtod uri binaryPath files checks).past, ∀ content,
      now binaryPath = some content → Genuine strtod uri binaryPath files checks content) ∧
    ∀ c ∈ checks,
      (∀ d, (c.apply strtod uri binaryPath d).1 = .updated → ∃ m artifact, c.Verified strtod uri m artifact) ∧
      (∀ m, newerManifest strtod c.network uri c.running = some m →
        Shell.SimpleCommand (copyCommand (artifactPath m.url) (freshPath binaryPath))
            [lit "cp", artifactPath m.url, freshPath binaryPath] ∧
          Shell.SimpleCommand (installCommand (artifactPath m.url))
            [lit "pkgman", lit "install", lit "-y", artifactPath m.url]) ∧
      ∀ o ∈ asked strtod c.network uri c.running, AsksFor c.network.region o uri ∨
        ∃ m, newerManifest strtod c.network uri c.running = some m ∧ AsksFor c.network.region o m.url := by
  refine ⟨?_, fun c _ => ⟨?_, fun m hnewer => commands_read strtod uri binaryPath hplace c hnewer,
    asked_for strtod c.network uri c.running⟩⟩
  · have hstart : Within (Own binaryPath) (Genuine strtod uri binaryPath files checks) files := by
      rintro path (rfl | rfl) content hcontent
      · exact .inl hcontent
      · exact .inr (.inl hcontent)
    have hkept := kept_run strtod uri binaryPath hplace (d := ⟨files, [files]⟩)
      ⟨hstart, List.forall_mem_singleton.mpr hstart⟩ checks
      fun before c after heq m artifact content hverified hbecomes =>
        .inr (.inr ⟨before, c, after, m, artifact, heq, hverified, hbecomes⟩)
    exact fun now hnow content hcontent => hkept.always now hnow binaryPath (.inl rfl) content hcontent
  · intro d hupdated
    unfold Check.apply at hupdated
    obtain ⟨outcome, detail, hother, heq⟩ | ⟨url, detail, d', heq, -⟩ | ⟨m, artifact, hdownloads, -⟩ :=
      checkAndApply_cases strtod (machineOf strtod c.network uri c.running) c.running binaryPath d
    · rw [heq] at hupdated
      exact absurd hupdated hother
    · rw [heq] at hupdated
      cases hupdated
    · exact ⟨m, artifact, verified_of_downloads strtod uri hdownloads⟩

end Updater

/-! ## Three checks -/

def exampleMeeting : S3.Meeting :=
  let attempt : S3.Attempt := ⟨fun _ => [], 0, 0, 0, fun _ => S3.offline⟩
  ⟨attempt, [], [], attempt⟩

def packagePath : Bytes := artifactPath (lit "https://h/agent.hpkg")

/-- The package `[4]` holds the binary `[3]`. -/
def unpacked (files : Files) : Files :=
  if files packagePath = some [4] then Function.update files samplePath (some [3]) else files

/-- The manifest and the artifact are on a server; this is what is stored of the artifact. -/
def exampleNetwork (text : Bytes) (stored : Option Bytes) : Network :=
  { digests := noDigests
    region := lit "us-east-1"
    cached := CredentialProvider.Credentials.init
    manifest := exampleMeeting
    between := []
    artifact := exampleMeeting
    perform := fun o => ⟨200, if o.sinkPath = [] then text else [], []⟩
    stored
    calls := { sampleMachine true with
      sha256Hex := fun content => if content = [2] then lit "ab" else if content = [4] then lit "ef" else lit "cd"
      pkgmanFiles := unpacked } }

def exampleUri : Bytes := lit "https://h/manifest.json"

def packageManifest : Manifest :=
  { version := lit "3"
    sha256 := lit "ef"
    url := lit "https://h/agent.hpkg" }

def packageText : Bytes :=
  Json.dump (.obj [(lit "sha256", .string (lit "EF")), (lit "url", .string (lit "https://h/agent.hpkg")),
    (lit "version", .string (lit "3"))])

/-- The example's manifest of a package is parsed. -/
theorem package_manifest : parseManifest decimalStrtod packageText = .ok packageManifest := by
  have hlossless : Lossless (.obj [(lit "sha256", .string (lit "EF")), (lit "url", .string (lit "https://h/agent.hpkg")),
      (lit "version", .string (lit "3"))]) := by
    have hkeys : [lit "sha256", lit "url", lit "version"].Pairwise (· < ·) := by decide
    simp only [Lossless, LosslessEntries, List.map_cons, List.map_nil, and_true]
    exact hkeys
  unfold parseManifest packageText
  rw [parse_dump decimalStrtod decimalStrtod_reads _ hlossless]
  rfl

/-- The example network has a newer version to offer. -/
theorem exampleNetwork_newer {text running : Bytes} {m : Manifest} (stored : Option Bytes)
    (htext : parseManifest decimalStrtod text = .ok m) (hnewer : ¬versionCompare m.version running ≤ 0) :
    newerManifest decimalStrtod (exampleNetwork text stored) exampleUri running = some m := by
  have hfetched : (manifestText decimalStrtod (exampleNetwork text stored) exampleUri).text = .ok text := by
    have huri : parseUri exampleUri = none := by decide
    have hscheme : startsWith exampleUri https = true := by decide
    unfold manifestText
    rw [huri]
    dsimp only
    rw [if_pos hscheme]
    rfl
  have hparse : (Except.ok text).bind (parseManifest decimalStrtod) = .ok m := htext
  unfold newerManifest
  rw [hfetched, hparse]
  exact if_neg hnewer

/-- A check of the network with what it answers. -/
def exampleCheck {text running : Bytes} {m : Manifest} (stored : Option Bytes)
    (htext : parseManifest decimalStrtod text = .ok m) (hnewer : ¬versionCompare m.version running ≤ 0)
    (hname : Nameable (artifactPath m.url)) : Check decimalStrtod exampleUri where
  network := exampleNetwork text stored
  running
  nameable := by
    intro m' h
    rw [exampleNetwork_newer stored htext hnewer] at h
    cases h
    exact hname

/-- A download that was cut short, a whole one, and that of a package. -/
def exampleChecks : List (Check decimalStrtod exampleUri) :=
  [@exampleCheck sampleText (lit "1") sampleManifest (some []) sample_manifest (by decide) (by decide),
   @exampleCheck sampleText (lit "1") sampleManifest (some [2]) sample_manifest (by decide) (by decide),
   @exampleCheck packageText (lit "2") packageManifest (some [4]) package_manifest (by decide) (by decide)]

/-- The example's binary is in a place of its own. -/
theorem examplePlace : Place samplePath where
  apart := by decide
  nameable := by decide

/-- The package is found where it is staged. -/
theorem unpacked_staged (files : Files) :
    unpacked (staged files packageManifest [4]) =
      Function.update (staged files packageManifest [4]) samplePath (some [3]) := by
  have hpackage : staged files packageManifest [4] packagePath = some [4] := Function.update_self _ _ _
  unfold unpacked
  rw [if_pos hpackage]

/-- There is never anything else at the path than what was there, what was downloaded whole and what
was in the package. -/
theorem exampleChecks_verified :
    sampleFiles samplePath = some [1] ∧
    ∀ now ∈ (diskAfter decimalStrtod exampleUri samplePath sampleFiles exampleChecks).past,
      ∀ content, now samplePath = some content → content = [1] ∨ content = [2] ∨ content = [3] := by
  have hfiles : sampleFiles samplePath = some [1] := Function.update_self _ _ _
  have hnone : sampleFiles (oldPath samplePath) = none := Function.update_of_ne (old_ne_binary _) _ _
  refine ⟨hfiles, ?_⟩
  intro now hnow content hcontent
  have hgenuine := (installed_verified decimalStrtod exampleUri samplePath examplePlace sampleFiles exampleChecks).1
    now hnow content hcontent
  obtain h | h | ⟨before, c, after, m, artifact, hchecks, ⟨hnewer, -, hstored, hdigest⟩, hbecomes⟩ := hgenuine
  · rw [hfiles] at h
    cases h
    exact .inl rfl
  · rw [hnone] at h
    cases h
  · have hc : c ∈ exampleChecks := hchecks ▸ List.mem_append_right _ List.mem_cons_self
    unfold exampleChecks at hc
    simp only [List.mem_cons, List.not_mem_nil, or_false] at hc
    obtain rfl | rfl | rfl := hc
    · -- what was cut short has another digest
      have hm : some sampleManifest = some m := (exampleNetwork_newer _ sample_manifest (by decide)).symm.trans hnewer
      cases hm
      cases hstored
      exact absurd hdigest (show lit "cd" ≠ lit "ab" by decide)
    · have hm : some sampleManifest = some m := (exampleNetwork_newer _ sample_manifest (by decide)).symm.trans hnewer
      cases hm
      cases hstored
      unfold Becomes at hbecomes
      rw [if_neg (by decide)] at hbecomes
      exact .inr (.inl hbecomes)
    · have hm : some packageManifest = some m := (exampleNetwork_newer _ package_manifest (by decide)).symm.trans hnewer
      cases hm
      cases hstored
      unfold Becomes at hbecomes
      rw [if_pos (by decide)] at hbecomes
      obtain ⟨path, hown, hput, hbefore⟩ := hbecomes
      have hput : unpacked (staged _ packageManifest [4]) path = some content := hput
      rw [unpacked_staged] at hput
      obtain rfl | rfl := hown
      · rw [Function.update_self] at hput
        cases hput
        exact .inr (.inr rfl)
      · -- nothing else is put anywhere
        rw [Function.update_of_ne (old_ne_binary samplePath)] at hput
        exact absurd hput hbefore

end HaikuAgent.Analysis.UpdateProvenance
