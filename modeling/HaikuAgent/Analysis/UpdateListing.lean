import HaikuAgent.Analysis.PatchCompliance
import HaikuAgent.Analysis.StreamClips
import HaikuAgent.Foundation.Lines

/-!
# The listing of updates and the capture limit

`run_baseline` reads the updates from the lines of a dry run, of which `run_shell` captures the
first 24000 bytes of each stream. The lines behind the cut are lost, and the beginning of the
line that the cut goes through is read as a line of its own. `listings_complete_iff` says for
which outputs this makes no difference.
-/

set_option autoImplicit false

namespace HaikuAgent.Analysis.UpdateListing

open HaikuAgent.Foundation
open HaikuAgent.Model
open HaikuAgent.Model.Json
open HaikuAgent.Model.Runner
open HaikuAgent.Model.Patch
open HaikuAgent.Analysis.ShellCapture
open HaikuAgent.Analysis.PatchCompliance (call refreshCall listCall installCall Completed report_inventory)
open HaikuAgent.Analysis.ReplyEncoding (CallRun CallMachine pouringCall)

/-! ## A stream and its cut -/

/-- The updates that lines hold. -/
def updatesOf (lines : List Bytes) : List Update :=
  lines.filterMap fun line => parseTransactionLine (trim line)

/-- The updates in the complete output of a dry run. -/
def completeUpdates (out err : Bytes) : List Update := updatesOf (split out 10 ++ split err 10)

/-- The updates in the lines before the one that the cut goes through. -/
def beforeCut (s : Bytes) : List Update := updatesOf (endedPieces 10 (s.take kMaxStdoutLength))

/-- What the beginning of this line reads like. -/
def shownAtCut (s : Bytes) : List Update := updatesOf [lastPiece 10 (s.take kMaxStdoutLength)]

/-- The updates in the lines from this one on. -/
def fromCut (s : Bytes) : List Update :=
  updatesOf (split (lastPiece 10 (s.take kMaxStdoutLength) ++ s.drop kMaxStdoutLength) 10)

/-- The stream is not cut, or the beginning of the line that the cut goes through reads like all that
the stream holds from this line on. -/
def CutHarmless (s : Bytes) : Prop := s.length ≤ kMaxStdoutLength ∨ shownAtCut s = fromCut s

/-- The cut of the output takes updates from the list or adds one, and that of the errors happens to
put the same updates back. -/
structure MadeUpFor (out err : Bytes) : Prop where
  differs : (shownAtCut out).length ≠ (fromCut out).length
  same : shownAtCut out ++ (beforeCut err ++ shownAtCut err) = fromCut out ++ (beforeCut err ++ fromCut err)

/-- Neither cut changes what is listed, or the two changes make up for each other. -/
def CutsHarmless (out err : Bytes) : Prop := CutHarmless out ∧ CutHarmless err ∨ MadeUpFor out err

/-- The updates of more lines are those of each part. -/
theorem updatesOf_append (lines more : List Bytes) :
    updatesOf (lines ++ more) = updatesOf lines ++ updatesOf more := List.filterMap_append

/-- The updates of a text are those before the cut and those from it on. -/
theorem updates_eq (s : Bytes) : updatesOf (split s 10) = beforeCut s ++ fromCut s := by
  have h := splitOn_append 10 (s.take kMaxStdoutLength) (s.drop kMaxStdoutLength)
  rw [List.take_append_drop] at h
  rw [split, h, updatesOf_append]
  rfl

/-- The marker is no update. -/
theorem updates_marker : updatesOf (split (lit "--output truncated--") 10) = [] := by decide

/-- What is read from a captured stream: the marker is a line that holds no update. -/
theorem updates_captured (s : Bytes) :
    updatesOf (split (captured kMaxStdoutLength s) 10) = beforeCut s ++ shownAtCut s := by
  have hshown : updatesOf (split (s.take kMaxStdoutLength) 10) = beforeCut s ++ shownAtCut s := by
    rw [split, splitOn_eq, updatesOf_append]
    rfl
  have hmarker : Exec.truncationMarker = 10 :: lit "--output truncated--" := by decide
  unfold captured
  split_ifs
  · rw [hmarker, split, List.splitOn_append_cons_self, updatesOf_append]
    have hnone := updates_marker
    rw [split] at hshown hnone
    rw [hshown, hnone, List.append_nil]
  · rw [List.append_nil]
    exact hshown

/-- Nothing of a short text lies behind the cut. -/
theorem fromCut_of_short {s : Bytes} (h : s.length ≤ kMaxStdoutLength) : fromCut s = shownAtCut s := by
  unfold fromCut shownAtCut
  rw [List.drop_of_length_le h, List.append_nil, split, List.splitOn_eq_singleton (not_mem_lastPiece _ _)]

/-- A harmless cut shows what it leaves out. -/
theorem CutHarmless.shown {s : Bytes} (h : CutHarmless s) : shownAtCut s = fromCut s :=
  h.elim (fun hshort => (fromCut_of_short hshort).symm) id

/-- The updates behind those that stand before the cut of the output. -/
theorem cutsHarmless_iff (out err : Bytes) :
    CutsHarmless out err ↔
      shownAtCut out ++ (beforeCut err ++ shownAtCut err) = fromCut out ++ (beforeCut err ++ fromCut err) := by
  constructor
  · rintro (⟨hout, herr⟩ | hmade)
    · rw [hout.shown, herr.shown]
    · exact hmade.same
  · intro hsame
    by_cases hlength : (shownAtCut out).length = (fromCut out).length
    · obtain ⟨hout, herr⟩ := List.append_inj hsame hlength
      exact .inl ⟨.inr hout, .inr (List.append_cancel_left herr)⟩
    · exact .inr ⟨hlength, hsame⟩

/-- Streams within the limit are not cut. -/
theorem cutsHarmless_of_short {out err : Bytes} (hout : out.length ≤ kMaxStdoutLength)
    (herr : err.length ≤ kMaxStdoutLength) : CutsHarmless out err := .inl ⟨.inl hout, .inl herr⟩

/-- Where only the output is cut, its own cut matters. -/
theorem cutsHarmless_iff_of_short_error {out err : Bytes} (herr : err.length ≤ kMaxStdoutLength) :
    CutsHarmless out err ↔ shownAtCut out = fromCut out := by
  rw [cutsHarmless_iff, fromCut_of_short herr, List.append_left_inj]

/-- The listing of a dry run, and what it would be of the complete output. -/
theorem listed_eq_complete_iff (r : Exec.Result) (out err : Bytes)
    (hout : r.stdoutData = captured kMaxStdoutLength out)
    (herr : r.stderrData = captured kMaxStdoutLength err) :
    listed r = completeUpdates out err ↔ CutsHarmless out err := by
  have hlisted : listed r = beforeCut out ++ (shownAtCut out ++ (beforeCut err ++ shownAtCut err)) := by
    have hnewline : lit "\n" = [10] := by decide
    have hlines : listed r = updatesOf (split (captured kMaxStdoutLength out) 10) ++
        updatesOf (split (captured kMaxStdoutLength err) 10) := by
      unfold listed parsePkgmanTransaction
      rw [hout, herr, hnewline, List.append_assoc, List.singleton_append, split,
        List.splitOn_append_cons_self]
      exact updatesOf_append _ _
    rw [hlines, updates_captured, updates_captured, List.append_assoc]
  have hcomplete : completeUpdates out err = beforeCut out ++ (fromCut out ++ (beforeCut err ++ fromCut err)) := by
    rw [completeUpdates, updatesOf_append, updates_eq, updates_eq, List.append_assoc]
  rw [hlisted, hcomplete, List.append_cancel_left_eq, cutsHarmless_iff]

/-! ## The stages of a run -/

section Stages

variable (host : Host)

/-- A run behind `n` shell calls that nothing has stopped, and of which nothing was sent. -/
structure Going (run : Run) (n : ℕ) : Prop where
  calls : run.log.calls.length = n
  cancelled : run.cancelled = false
  failed : run.failed = false
  inventory : run.inventory = none

/-- A dry run that was neither cancelled nor cut short. -/
def CompletesNormally (r : Exec.Result) : Prop := r.cancelled = false ∧ Completed r

/-- A shell call that was not cancelled goes on with the run. -/
theorem Going.sh {run : Run} {n : ℕ} (h : Going run n) (script : Bytes) (timeout : ℤ)
    (hcall : (host.shell n (call script timeout)).cancelled = false) :
    ∃ next, Patch.sh host script timeout run = (host.shell n (call script timeout), next) ∧
      Going next (n + 1) ∧ next.rep = run.rep := by
  obtain ⟨hcalls, hcancelled, hfailed, hinventory⟩ := h
  subst hcalls
  refine ⟨_, rfl, ?_, rfl⟩
  constructor
  · exact List.length_append
  · show (run.cancelled || _) = false
    rw [hcancelled]
    exact hcall
  · exact hfailed
  · exact hinventory

/-- A run starts going. -/
theorem start_going (ctx : Context) (p : Params) (log : Log) :
    Going (start host ctx p (Run.init log)) log.calls.length := ⟨rfl, rfl, rfl, rfl⟩

/-- Refreshing the repositories goes on with the run. -/
theorem refresh_going {run : Run} {n : ℕ} (h : Going run n)
    (hcall : (host.shell n refreshCall).cancelled = false) : Going (refresh host run) (n + 1) := by
  obtain ⟨next, hsh, hnext, -⟩ := h.sh host refreshScript kRefreshTimeoutSeconds hcall
  rw [refresh, hsh]
  simp only [hnext.cancelled, Bool.false_eq_true, if_false]
  split_ifs
  all_goals exact ⟨hnext.calls, rfl, hnext.failed, hnext.inventory⟩

/-- Listing the updates goes on with the run, and gives what was listed. -/
theorem listAvailable_going {run : Run} {n : ℕ} (h : Going run n)
    (hcall : CompletesNormally (host.shell n listCall)) :
    ∃ next, listAvailable host run = (listed (host.shell n listCall), next) ∧ Going next (n + 1) := by
  obtain ⟨hgoing, herror, -⟩ := hcall
  obtain ⟨next, hsh, hnext, -⟩ := h.sh host listScript kScanTimeoutSeconds hgoing
  refine ⟨next, ?_, hnext⟩
  rw [listAvailable, h.cancelled, hsh]
  simp only [hnext.cancelled, Bool.false_eq_true, if_false]
  exact if_neg (not_not.mpr herror)

/-- Without an install the available updates are the missing ones. -/
theorem apply_report {run : Run} {n : ℕ} (h : Going run n) (operation : Bytes) (available : List Update)
    (hnone : ¬(operation = lit "Install" ∧ available ≠ [])) :
    (apply host operation available run).rep.missing = available ∧
      (apply host operation available run).inventory = none := by
  rw [apply, h.cancelled, h.failed, Bool.or_false, if_neg Bool.false_ne_true, if_neg hnone]
  exact ⟨rfl, h.inventory⟩

/-- Noting an install leaves the run going as it was. -/
theorem noteInstall_keeps (available : List Update) (r : Exec.Result) (run : Run) :
    (noteInstall available r run).log = run.log ∧
      (noteInstall available r run).cancelled = run.cancelled ∧
      (noteInstall available r run).inventory = run.inventory := by
  unfold noteInstall
  split_ifs
  · exact ⟨rfl, rfl, rfl⟩
  · exact ⟨rfl, rfl, rfl⟩

/-- A rescan reports as missing what it lists. -/
theorem rescan_missing {run : Run} {n : ℕ} (hcalls : run.log.calls.length = n) (hcancelled : run.cancelled = false)
    (hcall : (host.shell n listCall).cancelled = false) :
    (rescan host run).rep.missing = listed (host.shell n listCall) ∧
      (rescan host run).inventory = run.inventory := by
  subst hcalls
  have hgoing : (Patch.sh host listScript kScanTimeoutSeconds run).2.cancelled = false := by
    show (run.cancelled || _) = false
    rw [hcancelled]
    exact hcall
  unfold rescan
  simp only [hgoing, Bool.false_eq_true, if_false]
  exact ⟨rfl, rfl⟩

/-- An install is followed by a rescan, whose updates are the missing ones. -/
theorem apply_install {run : Run} {n : ℕ} (h : Going run n) (operation : Bytes) (available : List Update)
    (hinstall : operation = lit "Install" ∧ available ≠ [])
    (hcall : (host.shell n installCall).cancelled = false)
    (hlist : (host.shell (n + 1) listCall).cancelled = false) :
    (apply host operation available run).rep.missing = listed (host.shell (n + 1) listCall) ∧
      (apply host operation available run).inventory = none := by
  have hsaid : Going { run with
      out := run.out ++ [toStringNat available.length ++ (lit " update(s) to install:\n" ++
        listUpdates available)] } n := { h with }
  obtain ⟨next, hsh, hnext, -⟩ := hsaid.sh host installScript kInstallTimeoutSeconds hcall
  obtain ⟨hlog, hcancelled, hinventory⟩ := noteInstall_keeps available (host.shell n installCall) next
  rw [apply, h.cancelled, h.failed, Bool.or_false, if_neg Bool.false_ne_true, if_pos hinstall, install,
    hsh]
  simp only [hnext.cancelled, Bool.false_eq_true, if_false]
  obtain ⟨hmissing, hrescan⟩ := rescan_missing host ((congrArg (fun log => log.calls.length) hlog).trans hnext.calls)
    (hcancelled.trans hnext.cancelled) hlist
  exact ⟨hmissing, hrescan.trans (hinventory.trans hnext.inventory)⟩

end Stages

/-! ## What is reported -/

/-- The `MissingCount` of the inventory items that are sent. -/
def missingCount (items : Value) : Option Bytes :=
  match items with
  | .arr (summary :: _) =>
    match summary.find (lit "Content") with
    | some (.arr (row :: _)) => (row.find (lit "MissingCount")).map (Value.str [])
    | _ => none
  | _ => none

/-- The inventory counts the missing updates. -/
theorem missingCount_inventoryItems (r : Report) (captureTime : Bytes) :
    missingCount (inventoryItems r captureTime) = some (toStringNat r.missing.length) := by
  unfold missingCount inventoryItems
  dsimp only
  rw [find_objOf]
  simp only [List.reverse_cons, List.reverse_nil, List.nil_append, List.cons_append]
  rw [List.lookup_cons_self]
  dsimp only
  rw [find_objOf]
  simp only [List.reverse_cons, List.reverse_nil, List.nil_append, List.cons_append]
  iterate 6 rw [lookup_cons_eq, if_neg (by decide)]
  rw [List.lookup_cons_self]
  rfl

/-- The updates that a run reports as missing, and their number. -/
structure Reported (run : Run) (updates : List Update) : Prop where
  missing : run.rep.missing = updates
  count : ∀ items, run.inventory = some items → missingCount items = some (toStringNat updates.length)

section Report

variable (host : Host) (ctx : Context)

/-- The end of a run leaves its report alone. -/
theorem tail_keeps (run : Run) :
    (countInstalled host (noteReboot run)).rep.missing = run.rep.missing ∧
      (countInstalled host (noteReboot run)).inventory = run.inventory := by
  have hnote : (noteReboot run).rep.missing = run.rep.missing ∧
      (noteReboot run).inventory = run.inventory := by
    unfold noteReboot
    split_ifs
    · exact ⟨rfl, rfl⟩
    · exact ⟨rfl, rfl⟩
  have hcount (r : Run) : (countInstalled host r).rep.missing = r.rep.missing ∧
      (countInstalled host r).inventory = r.inventory := by
    unfold countInstalled
    split_ifs
    · exact ⟨rfl, rfl⟩
    · exact ⟨rfl, rfl⟩
  exact ⟨(hcount _).1.trans hnote.1, (hcount _).2.trans hnote.2⟩

/-- Sending the report leaves it as it was. -/
theorem report_rep (run : Run) : (report ctx run).rep = run.rep := by
  unfold report
  dsimp only
  split_ifs <;> rfl

/-- A run reports the updates that it holds as missing. -/
theorem reported_iff (run : Run) (hnone : run.inventory = none) (updates : List Update) :
    Reported (report ctx (countInstalled host (noteReboot run))) updates ↔ run.rep.missing = updates := by
  obtain ⟨hmissing, hinventory⟩ := tail_keeps host run
  have hsent := report_inventory ctx _ (hinventory.trans hnone)
  constructor
  · intro h
    rw [← hmissing, ← report_rep ctx]
    exact h.missing
  · intro h
    refine ⟨by rw [report_rep, hmissing, h], ?_⟩
    intro items hitems
    rw [hsent] at hitems
    split_ifs at hitems
    cases hitems
    rw [missingCount_inventoryItems, hmissing, h]

end Report

/-! ## The dry runs of a run -/

section Runs

variable (m : CallMachine) (ctx : Context) (parameters : Value) (log : Log)

/-- The variable `available` of `run_baseline`.
SRC: patch.cpp:247-258 -/
def available (host : Host) : List Update :=
  (listAvailable host (refresh host
    (start host ctx (parseParams parameters) (Run.init (host.now log).2)))).1

/-- The dry run that lists the available updates. -/
def dryRun : CallRun listCall := m.run (log.calls.length + 1) listCall

/-- The dry run behind an install. -/
def secondDryRun : CallRun listCall := m.run (log.calls.length + 3) listCall

/-- The updates that a dry run printed. -/
def printed {call : ShellCall} (r : CallRun call) : List Update :=
  completeUpdates (r.read .out) (r.read .err)

def HarmlessCuts {call : ShellCall} (r : CallRun call) : Prop := CutsHarmless (r.read .out) (r.read .err)

/-- The dry run is made and completes normally. -/
structure Listed : Prop where
  valid : (parseParams parameters).error = []
  refreshed : (m.run log.calls.length refreshCall).outcome.result.cancelled = false
  completes : CompletesNormally (dryRun m log).outcome.result

/-- So is the one behind an install. -/
structure ListedAgain : Prop where
  operation : (parseParams parameters).operation = lit "Install"
  some : available ctx parameters log m.host ≠ []
  installed : (m.run (log.calls.length + 2) installCall).outcome.result.cancelled = false
  completes : CompletesNormally (secondDryRun m log).outcome.result

/-- The run works with these updates: they are available and, after a scan, missing. -/
structure WorksWith (updates : List Update) : Prop where
  available : available ctx parameters log m.host = updates
  scan : (parseParams parameters).operation = lit "Scan" →
    Reported (runBaseline m.host ctx parameters log).run updates

/-- The list of a dry run that was captured, and that of all it printed. -/
theorem listed_callRun_iff (r : CallRun listCall) :
    listed r.outcome.result = printed r ↔ HarmlessCuts r := by
  obtain ⟨hout, herr⟩ := runShell_captured r.sys _ _ _ _ _ _ _ _ _ _ r.ran
  exact listed_eq_complete_iff r.outcome.result _ _ hout herr

/-- The run up to its first listing, and what follows. -/
theorem baseline_listed (h : Listed m parameters log) :
    let run := (runBaseline m.host ctx parameters log).run
    available ctx parameters log m.host = listed (dryRun m log).outcome.result ∧
      ∃ next after, Going next (log.calls.length + 2) ∧
        after = apply m.host (parseParams parameters).operation (available ctx parameters log m.host) next ∧
        (after.inventory = none → ∀ updates, Reported run updates ↔ after.rep.missing = updates) := by
  have hrefresh := refresh_going m.host (start_going m.host ctx (parseParams parameters) (m.host.now log).2)
    h.refreshed
  obtain ⟨next, hlist, hnext⟩ := listAvailable_going m.host hrefresh h.completes
  have havailable : available ctx parameters log m.host = listed (dryRun m log).outcome.result := by
    unfold available
    rw [hlist]
    rfl
  refine ⟨havailable, next, _, hnext, rfl, ?_⟩
  intro hnone updates
  have hrun : baseline m.host ctx parameters (m.host.now log).2 =
      report ctx (countInstalled m.host (noteReboot
        (apply m.host (parseParams parameters).operation (available ctx parameters log m.host) next))) := by
    rw [havailable]
    unfold baseline
    simp only [h.valid, ne_eq, not_true_eq_false, if_false]
    rw [hlist]
    rfl
  have hreported := reported_iff m.host ctx _ hnone updates
  rw [← hrun] at hreported
  constructor
  · intro hrun
    exact hreported.mp ⟨hrun.missing, hrun.count⟩
  · intro hmissing
    obtain ⟨hmissing, hcount⟩ := hreported.mpr hmissing
    exact ⟨hmissing, hcount⟩

/-- A scan is complete exactly when the cuts in its listing are harmless. -/
theorem worksWith_iff (h : Listed m parameters log) :
    WorksWith m ctx parameters log (printed (dryRun m log)) ↔ HarmlessCuts (dryRun m log) := by
  obtain ⟨havailable, next, after, hnext, rfl, hreported⟩ := baseline_listed m ctx parameters log h
  rw [← listed_callRun_iff]
  constructor
  · intro hworks
    rw [← havailable]
    exact hworks.available
  · intro hlisted
    refine ⟨havailable.trans hlisted, ?_⟩
    intro hscan
    have hnoinstall : ¬((parseParams parameters).operation = lit "Install" ∧
        available ctx parameters log m.host ≠ []) := by
      rw [hscan]
      intro hinstall
      exact absurd hinstall.1 (by decide)
    obtain ⟨hmissing, hnone⟩ := apply_report m.host hnext _ _ hnoinstall
    rw [hreported hnone, hmissing, havailable]
    exact hlisted

/-- An install is reported completely exactly when the cuts in its second listing are harmless. -/
theorem reportedAgain_iff (h : Listed m parameters log) (hagain : ListedAgain m ctx parameters log) :
    Reported (runBaseline m.host ctx parameters log).run (printed (secondDryRun m log)) ↔
      HarmlessCuts (secondDryRun m log) := by
  obtain ⟨-, next, after, hnext, rfl, hreported⟩ := baseline_listed m ctx parameters log h
  obtain ⟨hmissing, hnone⟩ := apply_install m.host hnext _ _ ⟨hagain.operation, hagain.some⟩
    hagain.installed hagain.completes.1
  rw [hreported hnone, hmissing, ← listed_callRun_iff]
  exact Iff.rfl

/-- **The list is complete** exactly when the beginning of the line that the cut of a stream goes
through reads like all that the stream holds from this line on, or the two streams make up for each
other; so it is when neither stream is longer than 24000 bytes.
SRC: patch.cpp:212-288, patch.cpp:82-122, exec.cpp:110-164 -/
theorem listings_complete_iff (h : Listed m parameters log) :
    (WorksWith m ctx parameters log (printed (dryRun m log)) ↔ HarmlessCuts (dryRun m log)) ∧
      ((∀ stream, ((dryRun m log).read stream).length ≤ kMaxStdoutLength) →
        WorksWith m ctx parameters log (printed (dryRun m log))) ∧
      (ListedAgain m ctx parameters log →
        (Reported (runBaseline m.host ctx parameters log).run (printed (secondDryRun m log)) ↔
          HarmlessCuts (secondDryRun m log))) :=
  ⟨worksWith_iff m ctx parameters log h,
    fun hshort => (worksWith_iff m ctx parameters log h).mpr (cutsHarmless_of_short (hshort .out) (hshort .err)),
    reportedAgain_iff m ctx parameters log h⟩

end Runs

/-! ## A large upgrade -/

def updateLine : Bytes := lit "upgrade package x-1 to 2\n"

/-- A listing of `n` lines. -/
def listing (n : ℕ) : Bytes := (List.replicate n updateLine).flatten

/-- One more line at the end of the listing. -/
theorem listing_succ (n : ℕ) : listing (n + 1) = listing n ++ updateLine := by
  unfold listing
  rw [List.replicate_succ', List.flatten_append]
  simp

/-- One more line at the front of the listing. -/
theorem listing_cons (n : ℕ) : listing (n + 1) = updateLine ++ listing n := by
  unfold listing
  rw [List.replicate_succ, List.flatten_cons]

/-- Every line of the listing has the same length. -/
theorem listing_length (n : ℕ) : (listing n).length = n * 25 := by
  unfold listing
  simp [updateLine, lit]

/-- The listing ends with a line break. -/
theorem lastPiece_listing (n : ℕ) : lastPiece 10 (listing (n + 1)) = [] := by
  have hline : updateLine = lit "upgrade package x-1 to 2" ++ [10] := by decide
  rw [listing_succ, hline, ← List.append_assoc]
  exact lastPiece_concat 10 _

/-- A machine whose commands print a line for an update, `n` times more. -/
def listingMachine (n : ℕ) : CallMachine where
  nowMs _ := 0
  run _ call := pouringCall 117 (updateLine.tail ++ listing n) call

/-- The example machine prints its listing to standard output only. -/
theorem listingMachine_read (n i : ℕ) (call : ShellCall) :
    (((listingMachine n).run i call).read .out = updateLine ++ listing n) ∧
      ((listingMachine n).run i call).read .err = [] := ⟨rfl, rfl⟩

def scanParameters : Value := .obj [(lit "Operation", .arr [.string (lit "Scan")])]

/-- The example machine lists its updates. -/
theorem listingMachine_listed (n : ℕ) : Listed (listingMachine n) scanParameters Log.empty := by
  constructor
  · decide
  · rfl
  · exact ⟨rfl, rfl, rfl⟩

def agentContext : Context := ⟨lit "c1", true, true, fun _ => ⟨200, [], []⟩⟩

/-- A listing of one line is complete. -/
theorem short_listing_complete :
    WorksWith (listingMachine 0) agentContext scanParameters Log.empty
      [⟨lit "upgrade", lit "x", lit "1", lit "2"⟩] := by
  have hupdates : printed (dryRun (listingMachine 0) Log.empty) =
      [⟨lit "upgrade", lit "x", lit "1", lit "2"⟩] := by decide
  have h := (listings_complete_iff (listingMachine 0) agentContext scanParameters Log.empty
    (listingMachine_listed 0)).2.1
  rw [hupdates] at h
  refine h fun stream => ?_
  cases stream with
  | out => decide
  | err => decide

/-- Of 961 updates the last is behind the cut. -/
theorem long_listing_incomplete :
    Listed (listingMachine 960) scanParameters Log.empty ∧
      ¬WorksWith (listingMachine 960) agentContext scanParameters Log.empty
        (printed (dryRun (listingMachine 960) Log.empty)) := by
  refine ⟨listingMachine_listed 960, ?_⟩
  rw [worksWith_iff _ _ _ _ (listingMachine_listed 960)]
  have hread := (listingMachine_read 960 1 listCall).1
  have houtput : updateLine ++ listing 960 = listing 960 ++ updateLine :=
    (listing_cons 960).symm.trans (listing_succ 960)
  have hlength : (listing 960).length = kMaxStdoutLength := listing_length 960
  unfold HarmlessCuts
  rw [cutsHarmless_iff_of_short_error (by decide)]
  show ¬shownAtCut (((listingMachine 960).run 1 listCall).read .out) =
    fromCut (((listingMachine 960).run 1 listCall).read .out)
  rw [hread, houtput]
  unfold shownAtCut fromCut
  rw [List.take_left' hlength, List.drop_left' hlength, lastPiece_listing 959]
  decide

end HaikuAgent.Analysis.UpdateListing
