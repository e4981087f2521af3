import Mathlib.Logic.Function.Basic
import HaikuAgent.Model.Exec
import HaikuAgent.Model.Json
import HaikuAgent.Model.JsonParse

/-!
# Updating the agent (`selfupdate.cpp`)

`check_and_apply` over the contents of the files. A `Disk` keeps the contents after every
call that may change them, so a result about its `past` is one about every point at which
the machine may stop. A call that fails changes nothing; what `pkgman` leaves of the files is the
machine's. File modes are not kept: `chmod` changes no content.
-/

set_option autoImplicit false

namespace HaikuAgent.Model.SelfUpdate

open HaikuAgent.Foundation
open HaikuAgent.Model.Json

/-- SRC: selfupdate.cpp:19 -/
def kWorkDir : Bytes := lit "/tmp/haiku-mgmt-agent-update"

/-- SRC: selfupdate.h:26-30 -/
structure Manifest where
  version : Bytes
  sha256 : Bytes
  url : Bytes

/-- SRC: selfupdate.h:32-36 -/
inductive Outcome where
  | upToDate
  | updated
  | error
  deriving DecidableEq

/-! ## Versions -/

/-- `std::strtol` in base 10, for a `long` of 64 bits.
SRC: the standard library -/
def strtol (s : Bytes) : ℤ :=
  let (negative, s) := splitSign (s.dropWhile fun c => c == 32 || (9 ≤ c && c ≤ 13))
  let magnitude : ℤ := digitsValue 10 (s.takeWhile fun c => (digitValue 10 c).isSome)
  max (-2 ^ 63) (min (2 ^ 63 - 1) (if negative then -magnitude else magnitude))

/-- A component of a version; one that is not there counts as 0.
SRC: util.cpp:309-310 -/
def component (parts : List Bytes) (i : ℕ) : ℤ := (parts[i]?.map strtol).getD 0

/-- The loop of `version_compare` from component `i` on, with `rounds` rounds to go.
SRC: util.cpp:308-313 -/
def compareFrom (pa pb : List Bytes) (i : ℕ) : ℕ → ℤ
  | 0 => 0
  | rounds + 1 =>
    let va := component pa i
    let vb := component pb i
    if va ≠ vb then (if va < vb then -1 else 1) else compareFrom pa pb (i + 1) rounds

/-- SRC: util.cpp:304-314 -/
def versionCompare (a b : Bytes) : ℤ :=
  let pa := split a 46
  let pb := split b 46
  compareFrom pa pb 0 (max pa.length pb.length)

/-! ## Files -/

/-- What is in the file at each path that has one. -/
abbrev Files := Bytes → Option Bytes

/-- The files, and what they were at every point so far. -/
structure Disk where
  files : Files
  past : List Files

namespace Disk

def next (d : Disk) (files : Files) : Disk := ⟨files, d.past ++ [files]⟩

/-- `::rename`; `works` says whether it succeeds on a file that is there. -/
def rename (d : Disk) (works : Bool) (src dst : Bytes) : Bool × Disk :=
  match d.files src with
  | none => (false, d.next d.files)
  | some content =>
    if works then (true, d.next (Function.update (Function.update d.files src none) dst (some content)))
    else (false, d.next d.files)

/-- `cp`, likewise. -/
def copy (d : Disk) (works : Bool) (src dst : Bytes) : Bool × Disk :=
  match d.files src with
  | none => (false, d.next d.files)
  | some content =>
    if works then (true, d.next (Function.update d.files dst (some content)))
    else (false, d.next d.files)

/-- `::unlink`. -/
def unlink (d : Disk) (works : Bool) (path : Bytes) : Disk :=
  d.next (if works then Function.update d.files path none else d.files)

/-- `::chmod`. -/
def chmod (d : Disk) : Disk := d.next d.files

end Disk

/-- What the machine answers to the calls of an update. -/
structure Machine where
  /-- the text of the manifest, or the error of getting it -/
  manifest : Except Bytes Bytes
  /-- what the download leaves at the artifact's path, and its error -/
  downloaded : Option Bytes × Bytes
  sha256Hex : Bytes → Bytes
  pkgman : Exec.Result
  /-- what `pkgman install` leaves of the files -/
  pkgmanFiles : Files → Files
  /-- `rename` from the artifact to `.new` -/
  place : Bool
  cp : Exec.Result
  /-- `rename` from the binary to `.old` -/
  keep : Bool
  /-- `rename` from `.new` to the binary -/
  swap : Bool
  /-- `rename` from `.old` back to the binary -/
  restore : Bool
  unlink : Bool
  strerror : Bytes

/-! ## The update -/

/-- SRC: selfupdate.cpp:95-108 -/
def parseManifest (strtod : Bytes → Double × ℕ) (body : Bytes) : Except Bytes Manifest :=
  let (v, jerr) := parse strtod body
  if jerr ≠ [] ∨ ¬v.isObj then .error (lit "manifest is not valid JSON: " ++ jerr)
  else
    let m : Manifest :=
      { version := v.strAt (lit "version") []
        sha256 := lower (trim (v.strAt (lit "sha256") []))
        url := v.strAt (lit "url") [] }
    if m.version = [] ∨ m.sha256 = [] ∨ m.url = [] then
      .error (lit "manifest is missing version/sha256/url")
    else .ok m

/-- Where the artifact is staged.
SRC: selfupdate.cpp:132-134 -/
def artifactPath (url : Bytes) : Bytes :=
  kWorkDir ++ lit "/" ++
    match rfind url (lit "/") with
    | none => url
    | some base => url.drop (base + 1)

/-- SRC: selfupdate.cpp:151 -/
def isHpkg (artifact : Bytes) : Bool :=
  5 < artifact.length ∧ rfind artifact (lit ".hpkg") = some (artifact.length - 5)

/-- `util::sha256_file_hex`: empty for a file that cannot be read.
SRC: util.cpp:22-39 -/
def sha256FileHex (machine : Machine) (files : Files) (path : Bytes) : Bytes :=
  match files path with
  | none => []
  | some content => machine.sha256Hex content

/-- SRC: selfupdate.cpp:172 -/
def copyCommand (artifact fresh : Bytes) : Bytes := lit "cp '" ++ artifact ++ lit "' '" ++ fresh ++ lit "'"

/-- SRC: selfupdate.cpp:156 -/
def installCommand (artifact : Bytes) : Bytes := lit "pkgman install -y '" ++ artifact ++ lit "'"

/-- The new binary is put beside the target: whether it is there, and the error of `cp`.
SRC: selfupdate.cpp:166-177 -/
def placeFresh (machine : Machine) (artifact fresh : Bytes) (d : Disk) : Bool × Disk :=
  match d.rename machine.place artifact fresh with
  | (true, d) => (true, d)
  | (false, d) => d.copy (machine.cp.exitCode = 0) artifact fresh

/-- The raw-binary path.
SRC: selfupdate.cpp:163-188 -/
def swapBinary (machine : Machine) (artifact binaryPath : Bytes) (d : Disk) : Outcome × Bytes × Disk :=
  let fresh := binaryPath ++ lit ".new"
  let old := binaryPath ++ lit ".old"
  match placeFresh machine artifact fresh d with
  | (false, d) =>
    (.error, lit "could not place " ++ fresh ++ lit ": " ++ machine.cp.stderrData, d)
  | (true, d) =>
    let d := d.chmod
    -- the result of this call is not looked at
    let (_, d) := d.rename machine.keep binaryPath old
    match d.rename machine.swap fresh binaryPath with
    | (false, d) =>
      let (_, d) := d.rename machine.restore old binaryPath
      (.error, lit "rename into place failed: " ++ machine.strerror, d)
    | (true, d) =>
      (.updated, lit "swapped binary at " ++ binaryPath ++ lit " (previous kept as .old)", d)

/-- The package path.
SRC: selfupdate.cpp:152-162 -/
def installPackage (machine : Machine) (m : Manifest) (artifact : Bytes) (d : Disk) :
    Outcome × Bytes × Disk :=
  let r := machine.pkgman
  let d := d.next (machine.pkgmanFiles d.files)
  if r.exitCode ≠ 0 then
    (.error, lit "pkgman install failed (exit " ++ toStringInt r.exitCode ++ lit "): " ++
      clip (r.stdoutData ++ r.stderrData) 500 (lit "..."), d)
  else (.updated, lit "installed " ++ m.version ++ lit " via pkgman (" ++ artifact ++ lit ")", d)

/-- What follows the checksum.
SRC: selfupdate.cpp:151-195 -/
def install (machine : Machine) (m : Manifest) (artifact binaryPath : Bytes) (d : Disk) :
    Outcome × Bytes × Disk :=
  let (outcome, detail, d) :=
    if isHpkg artifact then installPackage machine m artifact d
    else swapBinary machine artifact binaryPath d
  match outcome with
  | .updated => (.updated, detail, d.unlink machine.unlink artifact)
  | outcome => (outcome, detail, d)

/-- SRC: selfupdate.cpp:112-196 -/
def checkAndApply (strtod : Bytes → Double × ℕ) (machine : Machine) (currentVersion binaryPath : Bytes)
    (d : Disk) : Outcome × Bytes × Disk :=
  match machine.manifest.bind (parseManifest strtod) with
  | .error err => (.error, err, d)
  | .ok m =>
    if versionCompare m.version currentVersion ≤ 0 then
      (.upToDate, lit "manifest version " ++ m.version ++ lit " <= running " ++ currentVersion, d)
    else
      let artifact := artifactPath m.url
      let d := d.next (Function.update d.files artifact machine.downloaded.1)
      if machine.downloaded.2 ≠ [] then (.error, machine.downloaded.2, d)
      else
        let got := sha256FileHex machine d.files artifact
        if got ≠ m.sha256 then
          (.error, lit "sha256 mismatch for " ++ artifact ++ lit ": got " ++ got ++ lit " want " ++ m.sha256,
            d.unlink machine.unlink artifact)
        else install machine m artifact binaryPath d

end HaikuAgent.Model.SelfUpdate
