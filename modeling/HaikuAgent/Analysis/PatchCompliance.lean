import HaikuAgent.Model.Patch

/-!
# Which listing a compliance report rests on

`run_baseline` lists the available updates with a dry run, and once more after an
install. `baseline_ready` gives the state a run that was not cancelled
reports from (`ReadyToReport`): its shell calls, the missing list, whether it failed, and whether it
said that the system is up to date.

From it, `reportsCompletedScan_iff`: the report rests on a listing that completed
exactly when the deciding listing did, or nothing is reported. The source checks
only the first listing's error text, and goes on to report all the same.
-/

set_option autoImplicit false

namespace HaikuAgent.Analysis.PatchCompliance

open HaikuAgent.Foundation
open HaikuAgent.Model
open HaikuAgent.Model.Json
open HaikuAgent.Model.Runner
open HaikuAgent.Model.Patch

/-! ## The inputs of a run -/

section Inputs

variable (host : Host) (parameters : Value)

def call (script : Bytes) (timeout : ℤ) : ShellCall := ⟨script, timeout, [], kMaxStdoutLength⟩

def refreshCall : ShellCall := call refreshScript kRefreshTimeoutSeconds
def listCall : ShellCall := call listScript kScanTimeoutSeconds
def installCall : ShellCall := call installScript kInstallTimeoutSeconds
def countCall : ShellCall := call countScript 60

/-- The result of the first dry run. -/
def firstListing : Exec.Result := host.shell 1 listCall

/-- An install is attempted: it was asked for, and the first dry run lists updates. -/
def installs : Bool :=
  (parseParams parameters).operation = lit "Install" ∧ (firstListing host).error = [] ∧
    listed (firstListing host) ≠ []

/-- The last dry run: the one after the install, if there is one. -/
def decidingListing : Exec.Result :=
  if installs host parameters then host.shell 3 listCall else firstListing host

/-- One of the calls was cut short by a cancel. -/
def cutShort : Bool :=
  (host.shell 0 refreshCall).cancelled || (firstListing host).cancelled ||
    if installs host parameters then
      (host.shell 2 installCall).cancelled || (host.shell 3 listCall).cancelled ||
        (host.shell 4 countCall).cancelled
    else (host.shell 2 countCall).cancelled

/-- A listing ran to completion. -/
def Completed (r : Exec.Result) : Prop := r.error = [] ∧ r.timedOut = false

end Inputs

/-! ## Messages that are not "up to date" -/

/-- No decimal number contains the letter the up-to-date message begins with. -/
private theorem not_mem_toStringNat (n : ℕ) : (110 : UInt8) ∉ toStringNat n := by
  intro hmem
  obtain ⟨c, hc, hcode⟩ := List.mem_map.mp hmem
  have hdigits : c ∈ Nat.toDigits 10 n := by
    simpa [toString, Nat.repr] using hc
  have hdigit := Nat.isDigit_of_mem_toDigits (by omega) (by omega) hdigits
  simp only [Char.isDigit, Bool.and_eq_true, decide_eq_true_eq] at hdigit
  have hlo : 48 ≤ c.toNat := hdigit.1
  have hhi : c.toNat ≤ 57 := hdigit.2
  have hval := congrArg UInt8.toNat hcode
  rw [UInt8.toNat_ofNat'] at hval
  have h110 : (110 : UInt8).toNat = 110 := rfl
  omega

/-- The up-to-date message is not one that begins with a count. -/
private theorem upToDate_ne_count (n : ℕ) (tail : Bytes) : upToDate ≠ toStringNat n ++ tail := by
  intro heq
  cases hn : toStringNat n with
  | nil =>
    have hlen := Nat.length_toDigits_pos (b := 10) (n := n)
    have hnil : Nat.toDigits 10 n = [] := by
      have hmap := List.map_eq_nil_iff.mp hn
      simp [toString, Nat.repr] at hmap
    rw [hnil] at hlen
    cases hlen
  | cons b rest =>
    rw [hn] at heq
    have hb : (110 : UInt8) = b := (List.cons.inj heq).1
    refine not_mem_toStringNat n ?_
    rw [hn, hb]
    simp

/-- The up-to-date message is not one that begins with another byte. -/
private theorem upToDate_ne_of_head (b : UInt8) (bs tail : Bytes) (hb : b ≠ 110) :
    upToDate ≠ (b :: bs) ++ tail := by
  intro heq
  exact hb (List.cons.inj heq).1.symm

/-! ## The stages -/

/-- What later stages need to know of the run so far. -/
structure Facts (run : Run) (calls : List ShellCall) (cancelled failed said : Bool)
    (missing : List Update) : Prop where
  calls : run.log.calls = calls
  cancelled : run.cancelled = cancelled
  failed : run.failed = failed
  said : upToDate ∈ run.out ↔ said = true
  missing : run.rep.missing = missing
  inventory : run.inventory = none

/-- A run cut short by a cancel: nothing more happens to it. -/
structure Stopped (run : Run) : Prop where
  cancelled : run.cancelled = true
  inventory : run.inventory = none

variable (host : Host)

/-- Another message changes none of the facts. -/
theorem Facts.say {run : Run} {calls : List ShellCall} {cancelled failed said : Bool}
    {missing : List Update} (h : Facts run calls cancelled failed said missing) (message : Bytes)
    (hmessage : upToDate ≠ message) :
    Facts { run with out := run.out ++ [message] } calls cancelled failed said missing :=
  { calls := h.calls
    cancelled := h.cancelled
    failed := h.failed
    said := by
      rw [List.mem_append, List.mem_singleton, h.said]
      simp [hmessage]
    missing := h.missing
    inventory := h.inventory }

/-- One shell call of the run: what it adds to the calls and to the cancellation. -/
theorem sh_facts (script : Bytes) (timeout : ℤ) (c : ShellCall) (hc : call script timeout = c)
    (run : Run) (calls : List ShellCall) (failed said : Bool) (missing : List Update)
    (h : Facts run calls false failed said missing) :
    ∃ next, sh host script timeout run = (host.shell calls.length c, next) ∧
      Facts next (calls ++ [c]) (host.shell calls.length c).cancelled failed said missing := by
  subst hc
  refine ⟨(sh host script timeout run).2, ?_, ?_⟩
  · simp only [sh, Host.runShell, h.calls]
    rfl
  · constructor
    · simp only [sh, Host.runShell, h.calls]
      rfl
    · simp only [sh, Host.runShell, h.calls, h.cancelled, Bool.false_or]
      rfl
    · exact h.failed
    · exact h.said
    · exact h.missing
    · exact h.inventory

/-- A run starts without calls, failures or messages. -/
theorem start_facts (ctx : Context) (p : Params) (log : Log) (hlog : log.calls = []) :
    Facts (start host ctx p (Run.init log)) [] false false false [] := by
  constructor
  · exact hlog
  · rfl
  · rfl
  · refine iff_of_false ?_ (by decide)
    simp only [start, Run.init, List.nil_append, List.mem_singleton]
    have hhead : lit "Haiku patch baseline via pkgman: operation=" =
        72 :: (lit "Haiku patch baseline via pkgman: operation=").tail := by decide
    rw [hhead, List.append_assoc, List.append_assoc]
    exact upToDate_ne_of_head 72 _ _ (by decide)
  · rfl
  · rfl

/-- Refreshing the repositories is one call. -/
theorem refresh_facts (run : Run) (h : Facts run [] false false false []) :
    Facts (refresh host run) [refreshCall] (host.shell 0 refreshCall).cancelled false false [] := by
  obtain ⟨next, hsh, hnext⟩ := sh_facts host refreshScript kRefreshTimeoutSeconds refreshCall rfl run
    [] _ _ _ h
  rw [refresh, hsh]
  simp only
  split_ifs with hcancelled hexit
  · exact hnext
  · exact hnext.say _ (by decide)
  · exact { hnext with }

/-- The first dry run: what it leaves, and the updates taken from it. -/
theorem listAvailable_facts (run : Run) (h : Facts run [refreshCall] false false false []) :
    let r := firstListing host
    ∃ next, listAvailable host run = (if r.cancelled ∨ r.error ≠ [] then [] else listed r, next) ∧
      Facts next [refreshCall, listCall] r.cancelled (!r.cancelled && decide (r.error ≠ [])) false
        [] := by
  intro r
  obtain ⟨next, hsh, hnext⟩ := sh_facts host listScript kScanTimeoutSeconds listCall rfl run _ _ _ _ h
  have hr : host.shell [refreshCall].length listCall = r := rfl
  rw [hr] at hsh hnext
  rw [listAvailable, h.cancelled, hsh]
  simp only [Bool.false_eq_true, if_false, hnext.cancelled]
  cases hcancelled : r.cancelled with
  | true =>
    refine ⟨next, by simp, ?_⟩
    rw [hcancelled] at hnext
    exact hnext
  | false =>
    rw [hcancelled] at hnext
    by_cases herror : r.error = []
    · refine ⟨next, by simp [herror], ?_⟩
      simpa [herror] using hnext
    · refine ⟨_, by rw [if_neg (by simp), if_pos herror, if_pos (Or.inr herror)], ?_⟩
      exact
        { calls := hnext.calls
          cancelled := rfl
          failed := by simp [herror]
          said := hnext.said
          missing := hnext.missing
          inventory := hnext.inventory }

/-- An install fails the run exactly when its command does. -/
theorem noteInstall_facts (available : List Update) (r : Exec.Result) (run : Run)
    (calls : List ShellCall) (h : Facts run calls false false false []) :
    Facts (noteInstall available r run) calls false (decide (r.exitCode ≠ 0)) false [] := by
  rw [noteInstall]
  by_cases hexit : r.exitCode = 0
  · rw [if_pos hexit]
    have hne : upToDate ≠
        lit "installed " ++ (toStringNat available.length ++ lit " update(s)\n") := by
      have hhead : lit "installed " = 105 :: (lit "installed ").tail := by decide
      rw [hhead]
      exact upToDate_ne_of_head 105 _ _ (by decide)
    have hsaid := h.say _ hne
    simp only [hexit, ne_eq, not_true_eq_false, decide_false]
    exact { hsaid with }
  · rw [if_neg hexit]
    exact
      { calls := h.calls
        cancelled := h.cancelled
        failed := by simp [hexit]
        said := h.said
        missing := h.missing
        inventory := h.inventory }

/-- The install and the second dry run. -/
theorem install_facts (available : List Update) (run : Run)
    (h : Facts run [refreshCall, listCall] false false false []) :
    let r := host.shell 2 installCall
    let r2 := host.shell 3 listCall
    if r.cancelled || r2.cancelled then Stopped (install host available run)
    else
      Facts (install host available run) [refreshCall, listCall, installCall, listCall] false
        (decide (r.exitCode ≠ 0)) false (listed r2) := by
  intro r r2
  obtain ⟨next, hsh, hnext⟩ := sh_facts host installScript kInstallTimeoutSeconds installCall rfl _ _ _
    _ _ (h.say (toStringNat available.length ++ (lit " update(s) to install:\n" ++ listUpdates available))
      (upToDate_ne_count _ _))
  have hr : host.shell [refreshCall, listCall].length installCall = r := rfl
  rw [hr] at hsh hnext
  rw [install, hsh]
  simp only [hnext.cancelled]
  cases hcancelled : r.cancelled with
  | true =>
    rw [hcancelled] at hnext
    exact ⟨hnext.cancelled, hnext.inventory⟩
  | false =>
    rw [hcancelled] at hnext
    obtain ⟨last, hsh2, hlast⟩ := sh_facts host listScript kScanTimeoutSeconds listCall rfl _ _ _ _ _
      (noteInstall_facts available r next _ hnext)
    have hr2 : host.shell ([refreshCall, listCall] ++ [installCall]).length listCall = r2 := rfl
    rw [hr2] at hsh2 hlast
    simp only [Bool.false_eq_true, if_false, Bool.false_or]
    rw [rescan, hsh2]
    simp only [hlast.cancelled]
    cases hcancelled2 : r2.cancelled with
    | true =>
      rw [hcancelled2] at hlast
      exact ⟨hlast.cancelled, hlast.inventory⟩
    | false =>
      rw [hcancelled2] at hlast
      simp only [Bool.false_eq_true, if_false]
      exact
        { calls := hlast.calls
          cancelled := rfl
          failed := hlast.failed
          said := hlast.said
          missing := rfl
          inventory := hlast.inventory }

/-- The up-to-date message is said exactly when no update is available. -/
theorem reportAvailable_facts (available : List Update) (run : Run) (calls : List ShellCall)
    (h : Facts run calls false false false []) :
    Facts (reportAvailable available run) calls false false (decide (available = [])) available := by
  by_cases hnone : available = []
  · refine
      { calls := h.calls
        cancelled := h.cancelled
        failed := h.failed
        said := ?_
        missing := rfl
        inventory := h.inventory }
    simp [reportAvailable, hnone]
  · have hsaid := h.say (toStringNat available.length ++
      (lit " update(s) available (Missing):\n" ++ listUpdates available)) (upToDate_ne_count _ _)
    refine
      { calls := h.calls
        cancelled := h.cancelled
        failed := h.failed
        said := ?_
        missing := rfl
        inventory := h.inventory }
    simp only [reportAvailable, if_neg hnone]
    rw [hsaid.said]
    simp [hnone]

/-- The reboot note changes none of the facts. -/
theorem noteReboot_facts (run : Run) (calls : List ShellCall) (cancelled failed said : Bool)
    (missing : List Update) (h : Facts run calls cancelled failed said missing) :
    Facts (noteReboot run) calls cancelled failed said missing := by
  rw [noteReboot]
  split_ifs
  · exact { h with }
  · exact h

/-- Counting the packages is one more call. -/
theorem countInstalled_facts (run : Run) (calls : List ShellCall) (failed said : Bool)
    (missing : List Update) (h : Facts run calls false failed said missing) :
    Facts (countInstalled host run) (calls ++ [countCall])
      (host.shell calls.length countCall).cancelled failed said missing := by
  obtain ⟨next, hsh, hnext⟩ := sh_facts host countScript 60 countCall rfl run calls _ _ _ h
  rw [countInstalled, h.cancelled, hsh]
  simp only [Bool.false_eq_true, if_false]
  exact
    { calls := hnext.calls
      cancelled := hnext.cancelled
      failed := hnext.failed
      said := hnext.said
      missing := hnext.missing
      inventory := hnext.inventory }

/-- A stopped run stays stopped to its end. -/
theorem Stopped.tail {run : Run} (h : Stopped run) : Stopped (countInstalled host (noteReboot run)) := by
  have hnote : Stopped (noteReboot run) := by
    rw [noteReboot]
    split_ifs
    · exact ⟨h.cancelled, h.inventory⟩
    · exact h
  rw [countInstalled, hnote.cancelled]
  exact hnote

/-- A cancelled run without inventory is a stopped one. -/
theorem Facts.stopped {run : Run} {calls : List ShellCall} {failed said : Bool} {missing : List Update}
    (h : Facts run calls true failed said missing) : Stopped run := ⟨h.cancelled, h.inventory⟩

/-! ## The whole run -/

/-- The stages after the listing, up to the report. -/
theorem tail_facts (run : Run) (calls : List ShellCall) (n : ℕ) (hn : calls.length = n)
    (failed said : Bool) (missing : List Update) (h : Facts run calls false failed said missing) :
    if (host.shell n countCall).cancelled then Stopped (countInstalled host (noteReboot run))
    else
      Facts (countInstalled host (noteReboot run)) (calls ++ [countCall]) false failed said missing := by
  subst hn
  have hcount := countInstalled_facts host _ _ _ _ _ (noteReboot_facts run _ _ _ _ _ h)
  cases hc : (host.shell calls.length countCall).cancelled with
  | true =>
    rw [hc] at hcount
    exact hcount.stopped
  | false =>
    rw [hc] at hcount
    exact hcount

/-- What is done with a listing that was read. -/
theorem apply_facts (parameters : Value) (run : Run)
    (h : Facts run [refreshCall, listCall] false false false [])
    (herror : (firstListing host).error = []) :
    let applied := apply host (parseParams parameters).operation (listed (firstListing host)) run
    if installs host parameters then
      if (host.shell 2 installCall).cancelled || (host.shell 3 listCall).cancelled then Stopped applied
      else
        Facts applied [refreshCall, listCall, installCall, listCall] false
          (decide ((host.shell 2 installCall).exitCode ≠ 0)) false (listed (host.shell 3 listCall))
    else
      Facts applied [refreshCall, listCall] false false (decide (listed (firstListing host) = []))
        (listed (firstListing host)) := by
  intro applied
  have hgoing : applied =
      if (parseParams parameters).operation = lit "Install" ∧ listed (firstListing host) ≠ [] then
        install host (listed (firstListing host)) run
      else reportAvailable (listed (firstListing host)) run := by
    simp only [applied, apply, h.cancelled, h.failed]
    rfl
  rw [hgoing]
  by_cases hinstalls : installs host parameters = true
  · have hguard := of_decide_eq_true hinstalls
    rw [if_pos hinstalls, if_pos (And.intro hguard.1 hguard.2.2)]
    exact install_facts host (listed (firstListing host)) run h
  · have hguard : ¬((parseParams parameters).operation = lit "Install" ∧
        listed (firstListing host) ≠ []) := by
      intro hboth
      exact hinstalls (decide_eq_true ⟨hboth.1, herror, hboth.2⟩)
    rw [if_neg hinstalls, if_neg hguard]
    exact reportAvailable_facts (listed (firstListing host)) run _ h

/-- What a run that reaches the report has behind it, by the results of its shell calls:
it was stopped if one of them was cut short. -/
structure ReadyToReport (parameters : Value) (run : Run) : Prop where
  stopped : cutShort host parameters = true → Stopped run
  calls : cutShort host parameters = false → run.log.calls =
    if installs host parameters then [refreshCall, listCall, installCall, listCall, countCall]
    else [refreshCall, listCall, countCall]
  cancelled : cutShort host parameters = false → run.cancelled = false
  failed : cutShort host parameters = false → installs host parameters = false →
    run.failed = decide ((firstListing host).error ≠ [])
  said : cutShort host parameters = false →
    (upToDate ∈ run.out ↔ (firstListing host).error = [] ∧ listed (firstListing host) = [])
  missing : cutShort host parameters = false → (firstListing host).error = [] →
    run.rep.missing = listed (decidingListing host parameters)
  inventory : run.inventory = none

/-- A run that was cut short and stopped is ready to be reported. -/
theorem ReadyToReport.of_stopped {parameters : Value} {run : Run}
    (hcut : cutShort host parameters = true) (h : Stopped run) : ReadyToReport host parameters run := by
  constructor
  · exact fun _ => h
  · simp [hcut]
  · simp [hcut]
  · simp [hcut]
  · simp [hcut]
  · simp [hcut]
  · exact h.inventory

/-- A run that went on to the end of its installs and listings: only the last call can still
cut it short. -/
theorem tail_ready (parameters : Value) (applied : Run) (calls : List ShellCall) (n : ℕ)
    (hn : calls.length = n) (failed said : Bool) (missing : List Update)
    (h : Facts applied calls false failed said missing)
    (hcut : cutShort host parameters = (host.shell n countCall).cancelled)
    (hcalls : calls ++ [countCall] =
      if installs host parameters then [refreshCall, listCall, installCall, listCall, countCall]
      else [refreshCall, listCall, countCall])
    (hfailed : installs host parameters = false → failed = decide ((firstListing host).error ≠ []))
    (hsaid : said = true ↔ (firstListing host).error = [] ∧ listed (firstListing host) = [])
    (hmissing : (firstListing host).error = [] → missing = listed (decidingListing host parameters)) :
    ReadyToReport host parameters (countInstalled host (noteReboot applied)) := by
  have htail := tail_facts host applied calls n hn failed said missing h
  cases hlast : (host.shell n countCall).cancelled with
  | true =>
    rw [if_pos hlast] at htail
    exact .of_stopped host (hcut.trans hlast) htail
  | false =>
    rw [if_neg (by simpa using hlast)] at htail
    constructor
    · intro hstopped
      rw [hcut, hlast] at hstopped
      cases hstopped
    · intro _
      rw [htail.calls, hcalls]
    · intro _
      exact htail.cancelled
    · intro _ hnone
      rw [htail.failed, hfailed hnone]
    · intro _
      rw [htail.said, hsaid]
    · intro _ herror
      rw [htail.missing, hmissing herror]
    · exact htail.inventory

/-- A listing that was read: the updates of it are installed, or only counted. -/
theorem read_ready (parameters : Value) (next : Run)
    (hclean : Facts next [refreshCall, listCall] false false false [])
    (hrefresh : (host.shell 0 refreshCall).cancelled = false) (hlist : (firstListing host).cancelled = false)
    (herror : (firstListing host).error = []) :
    ReadyToReport host parameters (countInstalled host (noteReboot
      (apply host (parseParams parameters).operation (listed (firstListing host)) next))) := by
  have happlied := apply_facts host parameters next hclean herror
  cases hinstalls : installs host parameters with
  | true =>
    simp only [hinstalls, if_true] at happlied
    have hne : listed (firstListing host) ≠ [] := (of_decide_eq_true hinstalls).2.2
    cases hcancelled : (host.shell 2 installCall).cancelled || (host.shell 3 listCall).cancelled with
    | true =>
      simp only [hcancelled, if_true] at happlied
      exact .of_stopped host (by simp [cutShort, hinstalls, hcancelled]) (happlied.tail host)
    | false =>
      simp only [hcancelled, Bool.false_eq_true, if_false] at happlied
      apply tail_ready host parameters _ _ 4 rfl _ _ _ happlied
      · simp [cutShort, hrefresh, hlist, hinstalls, hcancelled]
      · rw [hinstalls]
        rfl
      · intro h
        rw [hinstalls] at h
        cases h
      · simp [hne]
      · intro _
        rw [decidingListing, if_pos hinstalls]
  | false =>
    simp only [hinstalls, Bool.false_eq_true, if_false] at happlied
    apply tail_ready host parameters _ _ 2 rfl _ _ _ happlied
    · simp [cutShort, hrefresh, hlist, hinstalls]
    · rw [hinstalls]
      rfl
    · intro _
      simp [herror]
    · simp [herror]
    · intro _
      rw [decidingListing, hinstalls]
      rfl

/-- A listing that failed: nothing is taken from it. -/
theorem unread_ready (parameters : Value) (next : Run) (available : List Update)
    (hfailed : Facts next [refreshCall, listCall] false true false [])
    (hrefresh : (host.shell 0 refreshCall).cancelled = false) (hlist : (firstListing host).cancelled = false)
    (herror : (firstListing host).error ≠ []) :
    ReadyToReport host parameters (countInstalled host (noteReboot
      (apply host (parseParams parameters).operation available next))) := by
  have happly : apply host (parseParams parameters).operation available next = next := by
    rw [apply, hfailed.failed]
    simp
  have hinstalls : installs host parameters = false := by simp [installs, herror]
  rw [happly]
  apply tail_ready host parameters _ _ 2 rfl _ _ _ hfailed
  · simp [cutShort, hrefresh, hlist, hinstalls]
  · rw [hinstalls]
    rfl
  · intro _
    simp [herror]
  · simp [herror]
  · intro h
    exact absurd h herror

/-- The run of a valid request. -/
theorem baseline_ready (ctx : Context) (parameters : Value) (log : Log) (hlog : log.calls = [])
    (hvalid : (parseParams parameters).error = []) :
    ∃ before, baseline host ctx parameters log = report ctx before ∧
      ReadyToReport host parameters before := by
  let p := parseParams parameters
  have hstart := start_facts host ctx p log hlog
  have hrefresh := refresh_facts host _ hstart
  let refreshed := refresh host (start host ctx p (Run.init log))
  refine ⟨countInstalled host (noteReboot (apply host p.operation
    (listAvailable host refreshed).1 (listAvailable host refreshed).2)), ?_, ?_⟩
  · simp only [baseline, ne_eq, hvalid, not_true_eq_false, if_false]
    rfl
  cases hc0 : (host.shell 0 refreshCall).cancelled with
  | true =>
    rw [hc0] at hrefresh
    have hlist : listAvailable host refreshed = ([], refreshed) := by
      rw [listAvailable, hrefresh.cancelled]
      rfl
    have happly : apply host p.operation [] refreshed = refreshed := by
      rw [apply, hrefresh.cancelled]
      rfl
    rw [hlist, happly]
    exact .of_stopped host (by simp [cutShort, hc0]) (hrefresh.stopped.tail host)
  | false =>
    rw [hc0] at hrefresh
    obtain ⟨next, hlist, hnext⟩ := listAvailable_facts host refreshed hrefresh
    rw [hlist]
    simp only
    cases hc1 : (firstListing host).cancelled with
    | true =>
      rw [hc1] at hnext
      have happly (available : List Update) : apply host p.operation available next = next := by
        rw [apply, hnext.cancelled]
        rfl
      rw [happly]
      exact .of_stopped host (by simp [cutShort, hc1]) (hnext.stopped.tail host)
    | false =>
      rw [hc1] at hnext
      by_cases herror : (firstListing host).error = []
      · have hclean : Facts next [refreshCall, listCall] false false false [] := by
          simpa [herror] using hnext
        simp only [herror, ne_eq, not_true_eq_false, or_false, Bool.false_eq_true, if_false]
        exact read_ready host parameters next hclean hc0 hc1 herror
      · have hfailed : Facts next [refreshCall, listCall] false true false [] := by
          simpa [herror] using hnext
        exact unread_ready host parameters next _ hfailed hc0 hc1 herror

/-! ## What is reported -/

/-- Reporting makes no shell call. -/
theorem report_log (ctx : Context) (run : Run) : (report ctx run).log = run.log := by
  unfold report
  dsimp only
  split_ifs <;> rfl

/-- The inventory is sent when the run was not cancelled and the context asks for it with credentials. -/
theorem report_inventory (ctx : Context) (run : Run) (hinventory : run.inventory = none) :
    (report ctx run).inventory =
      if run.cancelled = false ∧ ctx.reportInventory = true ∧ ctx.credentials = true then
        some (inventoryItems run.rep run.rep.operationEnd)
      else none := by
  rw [report]
  cases run.cancelled with
  | true => simpa using hinventory
  | false =>
    cases ctx.reportInventory with
    | false => simpa using hinventory
    | true =>
      cases ctx.credentials with
      | true =>
        simp only [Bool.not_true, Bool.or_self, Bool.false_eq_true, if_false, if_true, and_self]
        split_ifs <;> rfl
      | false => simp [Http.Response.ok, Http.Response.init, lit]

/-- Without inventory to report, reporting changes nothing. -/
theorem report_quiet (ctx : Context) (run : Run) (hreport : ctx.reportInventory = false) :
    report ctx run = run := by
  rw [report, hreport]
  simp

/-- A report without credentials is a failure. -/
theorem report_failed (ctx : Context) (run : Run) (hcancelled : run.cancelled = false)
    (hreport : ctx.reportInventory = true) (hcredentials : ctx.credentials = false) :
    (report ctx run).failed = true := by
  have hnot : Http.Response.ok { Http.Response.init with error := lit "no credentials available" } =
      false := by decide
  rw [report]
  simp [hcancelled, hreport, hcredentials, hnot]

/-- A run succeeds when it was neither cancelled nor failed. -/
theorem status_success (startTime endTime : Bytes) (run : Run) :
    (finish startTime endTime run).status = lit "Success" ↔
      run.cancelled = false ∧ run.failed = false := by
  have hcancelled : lit "Cancelled" ≠ lit "Success" := by decide
  have hfailed : lit "Failed" ≠ lit "Success" := by decide
  simp only [finish]
  cases run.cancelled with
  | true => simp [hcancelled]
  | false =>
    cases run.failed with
    | true => simp [hfailed]
    | false => simp

/-- The `i`-th shell call is a dry run that completed, and no install comes after it. -/
def CompletedScan (log : Log) (i : ℕ) : Prop :=
  log.calls[i]? = some listCall ∧ Completed (host.shell i listCall) ∧
    ∀ j, i < j → log.calls[j]? ≠ some installCall

section Scans

variable (parameters : Value) (log : Log)
  (hcalls : log.calls =
    if installs host parameters then [refreshCall, listCall, installCall, listCall, countCall]
    else [refreshCall, listCall, countCall])

include hcalls

omit hcalls in
/-- The listings among the calls of a run with an install. -/
theorem index_of_install {α : Type} {a b c d : α} (ha : a ≠ b) (hc : c ≠ b) (hd : d ≠ b) {i : ℕ}
    (h : [a, b, c, b, d][i]? = some b) : i = 1 ∨ i = 3 := by
  match i with
  | 0 => exact absurd (Option.some.inj h) ha
  | 1 => exact Or.inl rfl
  | 2 => exact absurd (Option.some.inj h) hc
  | 3 => exact Or.inr rfl
  | 4 => exact absurd (Option.some.inj h) hd
  | i + 5 => cases h

omit hcalls in
/-- The listing among the calls of a run without one. -/
theorem index_of_scan {α : Type} {a b d : α} (ha : a ≠ b) (hd : d ≠ b) {i : ℕ}
    (h : [a, b, d][i]? = some b) : i = 1 := by
  match i with
  | 0 => exact absurd (Option.some.inj h) ha
  | 1 => rfl
  | 2 => exact absurd (Option.some.inj h) hd
  | i + 3 => cases h

/-- Only the deciding listing can be one. -/
theorem CompletedScan.decides (i : ℕ) (h : CompletedScan host log i) :
    host.shell i listCall = decidingListing host parameters := by
  have hrefresh : refreshCall ≠ listCall := by decide
  have hinstall : installCall ≠ listCall := by decide
  have hcount : countCall ≠ listCall := by decide
  obtain ⟨hi, -, hafter⟩ := h
  cases hinstalls : installs host parameters with
  | true =>
    rw [hinstalls, if_pos rfl] at hcalls
    rw [decidingListing, hinstalls, if_pos rfl]
    rw [hcalls] at hi
    rcases index_of_install hrefresh hinstall hcount hi with rfl | rfl
    · exact absurd (by rw [hcalls]; rfl) (hafter 2 (by omega))
    · rfl
  | false =>
    rw [hinstalls, if_neg (by simp)] at hcalls
    rw [decidingListing, hinstalls, if_neg (by simp)]
    rw [hcalls] at hi
    rw [index_of_scan hrefresh hcount hi]
    rfl

/-- A deciding listing that ran to its end is a completed scan of the log. -/
theorem completedScan_of_completed (h : Completed (decidingListing host parameters)) :
    ∃ i, CompletedScan host log i ∧ host.shell i listCall = decidingListing host parameters := by
  have hcount : countCall ≠ installCall := by decide
  cases hinstalls : installs host parameters with
  | true =>
    rw [hinstalls, if_pos rfl] at hcalls
    rw [decidingListing, hinstalls, if_pos rfl] at h ⊢
    refine ⟨3, ⟨by rw [hcalls]; rfl, h, ?_⟩, rfl⟩
    intro j hj hcall
    rw [hcalls] at hcall
    obtain ⟨later, rfl⟩ : ∃ later, j = later + 4 := ⟨j - 4, by omega⟩
    cases later with
    | zero => exact hcount (Option.some.inj hcall)
    | succ later => cases hcall
  | false =>
    rw [hinstalls, if_neg (by simp)] at hcalls
    rw [decidingListing, hinstalls, if_neg (by simp)] at h ⊢
    refine ⟨1, ⟨by rw [hcalls]; rfl, h, ?_⟩, rfl⟩
    intro j hj hcall
    rw [hcalls] at hcall
    obtain ⟨later, rfl⟩ : ∃ later, j = later + 2 := ⟨j - 2, by omega⟩
    cases later with
    | zero => exact hcount (Option.some.inj hcall)
    | succ later => cases hcall

end Scans

/-- Compliance is reported only from a scan that completed: the missing list sent to
`PutInventory` is that of a completed dry run with no install after it, and a run that
says "up to date" and succeeds has made such a dry run.
SRC: patch.cpp:255-279, 306-324 -/
def ReportsCompletedScan (ctx : Context) (parameters : Value) : Prop :=
  let b := runBaseline host ctx parameters Log.empty
  (∀ items, b.run.inventory = some items → ∃ i rep time, CompletedScan host b.run.log i ∧
    rep.missing = listed (host.shell i listCall) ∧ items = inventoryItems rep time) ∧
  (b.outcome.status = lit "Success" → upToDate ∈ b.run.out → ∃ i, CompletedScan host b.run.log i)

/-- The deciding listing completed, or nothing is reported: the request is rejected, a call
is cut short, credentials are missing, or inventory is off and the first listing
either failed or lists something. -/
def ListingSettles (ctx : Context) (parameters : Value) : Prop :=
  (parseParams parameters).error ≠ [] ∨ cutShort host parameters = true ∨
    Completed (decidingListing host parameters) ∨
    (ctx.reportInventory = true ∧ ctx.credentials = false) ∨
    (ctx.reportInventory = false ∧
      ¬((firstListing host).error = [] ∧ listed (firstListing host) = []))

/-- A rejected request makes no call at all. -/
theorem reports_of_rejected (ctx : Context) (parameters : Value) (hrejected : (parseParams parameters).error ≠ []) :
    ReportsCompletedScan host ctx parameters := by
  have hrun : baseline host ctx parameters (host.now Log.empty).2 =
      { Run.init (host.now Log.empty).2 with
        failed := true
        errout := [(parseParams parameters).error ++ lit "\n"] } := by
    rw [baseline]
    simp only [ne_eq, hrejected, not_false_eq_true, if_true]
  refine ⟨?_, ?_⟩
  · intro items hitems
    simp only [runBaseline, hrun, Run.init] at hitems
    cases hitems
  · intro _ hsaid
    simp only [runBaseline, hrun, Run.init] at hsaid
    cases hsaid

/-- The result of a run, in terms of the state before its report. -/
theorem reports_iff_before (ctx : Context) (parameters : Value) (before : Run)
    (hrun : baseline host ctx parameters (host.now Log.empty).2 = report ctx before) :
    ReportsCompletedScan host ctx parameters ↔
      (∀ items, (report ctx before).inventory = some items → ∃ i rep time, CompletedScan host before.log i ∧
        rep.missing = listed (host.shell i listCall) ∧ items = inventoryItems rep time) ∧
      ((report ctx before).cancelled = false ∧ (report ctx before).failed = false →
        upToDate ∈ (report ctx before).out → ∃ i, CompletedScan host before.log i) := by
  have hcalls : (runBaseline host ctx parameters Log.empty).run.log.calls = before.log.calls := by
    change (baseline host ctx parameters (host.now Log.empty).2).log.calls = before.log.calls
    rw [hrun, report_log]
  have hscan (i : ℕ) : CompletedScan host (runBaseline host ctx parameters Log.empty).run.log i ↔
      CompletedScan host before.log i := by
    unfold CompletedScan
    rw [hcalls]
  have hstatus : (runBaseline host ctx parameters Log.empty).outcome.status = lit "Success" ↔
      (report ctx before).cancelled = false ∧ (report ctx before).failed = false := by
    simp only [runBaseline, hrun]
    exact status_success _ _ _
  have hinventory : (runBaseline host ctx parameters Log.empty).run.inventory = (report ctx before).inventory := by
    simp only [runBaseline, hrun]
  have hout : (runBaseline host ctx parameters Log.empty).run.out = (report ctx before).out := by
    simp only [runBaseline, hrun]
  rw [ReportsCompletedScan]
  simp only [hscan, hstatus, hinventory, hout]

/-- A run that was not cut short and rests on a completed scan: the deciding listing settles it. -/
theorem settles_of_reports (ctx : Context) (parameters : Value) (before : Run)
    (hrun : baseline host ctx parameters (host.now Log.empty).2 = report ctx before)
    (hready : ReadyToReport host parameters before) (hcut : cutShort host parameters = false)
    (h : ReportsCompletedScan host ctx parameters) :
    Completed (decidingListing host parameters) ∨ (ctx.reportInventory = true ∧ ctx.credentials = false) ∨
      (ctx.reportInventory = false ∧
        ¬((firstListing host).error = [] ∧ listed (firstListing host) = [])) := by
  obtain ⟨hsent, hsaid⟩ := (reports_iff_before host ctx parameters before hrun).mp h
  have hgoing := hready.cancelled hcut
  have hdecides (i : ℕ) (hi : CompletedScan host before.log i) :
      Completed (decidingListing host parameters) := by
    rw [← hi.decides host parameters _ (hready.calls hcut)]
    exact hi.2.1
  by_contra hnot
  push Not at hnot
  obtain ⟨hincomplete, hcredentials, hquiet⟩ := hnot
  cases hreport : ctx.reportInventory with
  | true =>
    have hcreds : ctx.credentials = true := by simpa using hcredentials hreport
    have hinventory := report_inventory ctx before hready.inventory
    rw [if_pos ⟨hgoing, hreport, hcreds⟩] at hinventory
    obtain ⟨i, -, -, hi, -⟩ := hsent _ hinventory
    exact hincomplete (hdecides i hi)
  | false =>
    obtain ⟨herror, hnone⟩ := hquiet hreport
    have hinstalls : installs host parameters = false := by simp [installs, hnone]
    have hclean : before.cancelled = false ∧ before.failed = false := by
      refine ⟨hgoing, ?_⟩
      rw [hready.failed hcut hinstalls]
      simp [herror]
    rw [report_quiet ctx before hreport] at hsaid
    obtain ⟨i, hi⟩ := hsaid hclean ((hready.said hcut).mpr ⟨herror, hnone⟩)
    exact hincomplete (hdecides i hi)

/-- What is sent behind a deciding listing that completed is that listing. -/
theorem reports_of_completed (ctx : Context) (parameters : Value) (before : Run)
    (hrun : baseline host ctx parameters (host.now Log.empty).2 = report ctx before)
    (hready : ReadyToReport host parameters before) (hcut : cutShort host parameters = false)
    (hcompleted : Completed (decidingListing host parameters)) : ReportsCompletedScan host ctx parameters := by
  obtain ⟨i, hi, hlisting⟩ :=
    completedScan_of_completed host parameters _ (hready.calls hcut) hcompleted
  rw [reports_iff_before host ctx parameters before hrun]
  refine ⟨?_, fun _ _ => ⟨i, hi⟩⟩
  intro items hitems
  -- a listing that failed is the deciding one, so the first listing was read
  have herror : (firstListing host).error = [] := by
    by_contra hfailed
    have hinstalls : installs host parameters = false := by simp [installs, hfailed]
    rw [decidingListing, hinstalls] at hcompleted
    exact hfailed hcompleted.1
  rw [report_inventory ctx before hready.inventory] at hitems
  split_ifs at hitems
  refine ⟨i, before.rep, before.rep.operationEnd, hi, ?_, (Option.some.inj hitems).symm⟩
  rw [hlisting]
  exact hready.missing hcut herror

/-- Nothing is claimed of a run that sends nothing and does not end as a success that said it
is up to date. -/
theorem reports_of_silent (ctx : Context) (parameters : Value) (before : Run)
    (hrun : baseline host ctx parameters (host.now Log.empty).2 = report ctx before)
    (hsent : (report ctx before).inventory = none)
    (hsaid : (report ctx before).cancelled = false → (report ctx before).failed = false →
      upToDate ∉ (report ctx before).out) : ReportsCompletedScan host ctx parameters := by
  rw [reports_iff_before host ctx parameters before hrun]
  refine ⟨?_, ?_⟩
  · intro items hitems
    rw [hsent] at hitems
    cases hitems
  · rintro ⟨hgoing, hclean⟩ hout
    exact absurd hout (hsaid hgoing hclean)

/-- **When compliance rests on a completed scan**: exactly when the deciding listing
completed, or nothing is reported.
SRC: patch.cpp:200-348 -/
theorem reportsCompletedScan_iff (ctx : Context) (parameters : Value) :
    ReportsCompletedScan host ctx parameters ↔ ListingSettles host ctx parameters := by
  by_cases hvalid : (parseParams parameters).error = []
  swap
  · exact iff_of_true (reports_of_rejected host ctx parameters hvalid) (Or.inl hvalid)
  obtain ⟨before, hrun, hready⟩ := baseline_ready host ctx parameters (host.now Log.empty).2 rfl hvalid
  have hinventory := report_inventory ctx before hready.inventory
  cases hcut : cutShort host parameters with
  | true =>
    -- stopped: nothing is sent, and the run is not a success
    have hstopped := hready.stopped hcut
    have hsame : report ctx before = before := by
      rw [report, hstopped.cancelled]
      rfl
    refine iff_of_true (reports_of_silent host ctx parameters before hrun ?_ ?_) (Or.inr (Or.inl hcut))
    · rw [hsame]
      exact hstopped.inventory
    · intro hgoing
      rw [hsame, hstopped.cancelled] at hgoing
      cases hgoing
  | false =>
    constructor
    · intro h
      exact .inr (.inr (settles_of_reports host ctx parameters before hrun hready hcut h))
    · rintro (h | h | hcompleted | ⟨hreport, hcredentials⟩ | ⟨hreport, hlists⟩)
      · exact absurd hvalid h
      · rw [hcut] at h
        cases h
      · exact reports_of_completed host ctx parameters before hrun hready hcut hcompleted
      · have hfailed := report_failed ctx before (hready.cancelled hcut) hreport hcredentials
        apply reports_of_silent host ctx parameters before hrun
        · rw [hinventory, if_neg (by simp [hcredentials])]
        · intro _ hclean
          rw [hfailed] at hclean
          cases hclean
      · apply reports_of_silent host ctx parameters before hrun
        · rw [hinventory, if_neg (by simp [hreport])]
        · intro _ _ hsaid
          rw [report_quiet ctx before hreport] at hsaid
          exact absurd ((hready.said hcut).mp hsaid) hlists

/-- A machine whose dry run cannot be started. -/
def cannotFork : Host :=
  { nowMs := fun _ => 0
    shell := fun _ c => { Exec.Result.init with
      exitCode := if c.script = listScript then -1 else 0
      error := if c.script = listScript then lit "fork: Cannot allocate memory" else [] } }

/-- The scan fails, and an empty missing list is sent all the same. -/
theorem cannotFork_reports :
    ¬ReportsCompletedScan cannotFork ⟨lit "c1", true, true, fun _ => ⟨200, [], []⟩⟩
      (.obj [(lit "Operation", .arr [.string (lit "Scan")])]) := by
  rintro ⟨hsent, -⟩
  obtain ⟨i, rep, time, ⟨hi, ⟨herror, -⟩, -⟩, -, -⟩ := hsent _ rfl
  have hlist : (cannotFork.shell i listCall).error = lit "fork: Cannot allocate memory" := by
    simp only [cannotFork]
    rfl
  rw [hlist] at herror
  cases herror

end HaikuAgent.Analysis.PatchCompliance
