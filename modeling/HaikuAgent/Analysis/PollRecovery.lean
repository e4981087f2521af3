import HaikuAgent.Analysis.JsonRoundTrip
import HaikuAgent.Analysis.TransferRetries
import HaikuAgent.Model.PollLoop

/-!
# The loop that polls

A poll whose credentials are rejected empties the cache of the provider, which other threads use
between the polls and while one waits. `history` is what the provider is asked over a run of the
loop. Whatever the others do, no later poll is made with credentials from before the rejection
(`rejected_not_reused`).
-/

set_option autoImplicit false

namespace HaikuAgent.Analysis.PollRecovery

open HaikuAgent.Foundation
open HaikuAgent.Model
open HaikuAgent.Model.Json
open HaikuAgent.Model.CredentialProvider
open HaikuAgent.Model.PollLoop
open HaikuAgent.Analysis.CredentialCache
open HaikuAgent.Analysis.JsonRoundTrip
open HaikuAgent.Analysis.TransferRetries

section Loop

variable (strtod : Bytes → Double × ℕ) (digests : Signing.Digests) (region instanceId : Bytes)

/-- What the provider is asked over a turn. -/
def turnEvents (cached : Credentials) (t : Turn) : List Event :=
  t.before ++ .get t.cycle.call :: t.during ++
    if (t.polled strtod digests region instanceId cached).invalidates then [.invalidate] else []

/-- What the provider is asked over the turns. -/
def history : Credentials → List Turn → List Event
  | _, [] => []
  | cached, t :: turns =>
    turnEvents strtod digests region instanceId cached t ++
      history (t.next strtod digests region instanceId cached) turns

/-- One turn of the poll loop is the provider's own moves on the turn's events. -/
theorem next_eq (cached : Credentials) (t : Turn) : t.next strtod digests region instanceId cached =
    runFrom (CredentialProvider.next strtod) cached (turnEvents strtod digests region instanceId cached t) := by
  unfold Turn.next turnEvents Turn.cached
  split_ifs with hinvalidates
  · rw [runFrom_append]
    rfl
  · rw [List.append_nil, runFrom_append]

/-- The turns leave the cache that their history does. -/
theorem run_history (cached : Credentials) (turns : List Turn) :
    runFrom (Turn.next strtod digests region instanceId) cached turns =
      runFrom (CredentialProvider.next strtod) cached (history strtod digests region instanceId cached turns) := by
  induction turns generalizing cached with
  | nil => rfl
  | cons t turns ih =>
    rw [runFrom_cons, ih, history, runFrom_append, ← next_eq]

/-! ## What a poll asks with -/

/-- The poll asked, and was answered that its credentials are not accepted. -/
def Rejected (cached : Credentials) (t : Turn) : Prop :=
  ∃ creds, (t.polled strtod digests region instanceId cached).asked = some creds ∧
    (checkAuthFailure (getMessages digests region instanceId creds t.cycle)).2 = true

/-- A poll asks with what the provider gives it. -/
theorem given_of_asked {cached creds : Credentials} {t : Turn}
    (h : (t.polled strtod digests region instanceId cached).asked = some creds) :
    (get strtod (t.cached strtod cached) t.cycle.call).ok = true ∧
      (get strtod (t.cached strtod cached) t.cycle.call).out = creds := by
  unfold Turn.polled pollOnce at h
  dsimp only at h
  split_ifs at h with hnone hfailed
  · exact ⟨Bool.not_eq_false _ ▸ hnone, Option.some.inj h⟩
  · exact ⟨Bool.not_eq_false _ ▸ hnone, Option.some.inj h⟩

/-- A refused answer is not a success. -/
theorem failed_of_auth {resp : Http.Response} (h : (checkAuthFailure resp).2 = true) : resp.ok = false := by
  unfold checkAuthFailure at h
  dsimp only at h
  split_ifs at h with hok
  exact Bool.not_eq_true _ ▸ hok

/-- A rejection empties the cache. -/
theorem next_of_rejected {cached : Credentials} {t : Turn} (h : Rejected strtod digests region instanceId cached t) :
    t.next strtod digests region instanceId cached = Credentials.init := by
  obtain ⟨creds, hasked, hauth⟩ := h
  obtain ⟨hok, hout⟩ := given_of_asked strtod digests region instanceId hasked
  have hinvalidates : (t.polled strtod digests region instanceId cached).invalidates = true := by
    unfold Turn.polled pollOnce
    dsimp only
    rw [hout, hok, failed_of_auth hauth, if_neg (by decide), if_pos rfl]
    exact hauth
  exact if_pos hinvalidates

/-- **Rejected credentials are not used again.** After a poll whose credentials are rejected, the
next ones ask with complete credentials that were fetched from IMDS since then, by the loop or by another
thread; credentials that the poll found in the cache have not expired.
SRC: main.cpp:215-230, 427-458, 804-813; aws.cpp:142-166 -/
theorem rejected_not_reused (earlier later : List Turn) (rejected t : Turn)
    (hrejected : Rejected strtod digests region instanceId
      (runFrom (Turn.next strtod digests region instanceId) Credentials.init earlier) rejected)
    (creds : Credentials)
    (hasked : (t.polled strtod digests region instanceId (runFrom (Turn.next strtod digests region instanceId)
      Credentials.init (earlier ++ rejected :: later))).asked = some creds) :
    let since := history strtod digests region instanceId Credentials.init later ++ t.before
    FetchedIn strtod (since ++ [.get t.cycle.call]) creds ∧ Usable strtod since t.cycle.call creds := by
  intro since
  obtain ⟨hok, hout⟩ := given_of_asked strtod digests region instanceId hasked
  have hcached : t.cached strtod (runFrom (Turn.next strtod digests region instanceId) Credentials.init
      (earlier ++ rejected :: later)) = cacheAfter strtod since := by
    unfold Turn.cached cacheAfter
    rw [runFrom_append, runFrom_cons, next_of_rejected strtod digests region instanceId hrejected, run_history,
      ← runFrom_append]
  rw [hcached] at hok hout
  have husable := usable_of_ok strtod since t.cycle.call hok
  have hfetched := fetchedIn_of_ok strtod [] since t.cycle.call
  rw [cacheAfter_invalidate] at hfetched
  rw [hout] at husable hfetched
  exact ⟨hfetched hok, husable⟩

end Loop

/-! ## A poll that is rejected -/

def exampleIdentity : Value := .obj [(lit "AccessKeyId", .string (lit "key")), (lit "SecretAccessKey", .string (lit "secret"))]

/-- The same credentials, whenever IMDS is asked. -/
def exampleImds (path : Bytes) : Bytes := if path = rolePath then lit "role" else dump exampleIdentity

def exampleCredentials : Credentials := ⟨⟨lit "key", lit "secret", []⟩, 0⟩

/-- The example metadata service hands out the example credentials. -/
theorem exampleImds_credentials : (credentials decimalStrtod exampleImds Credentials.init).ok = true ∧
    (credentials decimalStrtod exampleImds Credentials.init).out = exampleCredentials := by
  have hlossless : Lossless exampleIdentity := by
    have hkeys : [lit "AccessKeyId", lit "SecretAccessKey"].Pairwise (· < ·) := by decide +kernel
    simp only [exampleIdentity, Lossless, LosslessEntries, List.map_cons, List.map_nil, and_true]
    exact hkeys
  have hrole : exampleImds rolePath = lit "role" := if_pos rfl
  have htrim : trim (lit "role") = lit "role" := by decide +kernel
  have hline : trim ((split (lit "role") 10).headD []) = lit "role" := by decide +kernel
  have hbody : exampleImds (rolePath ++ lit "role") = dump exampleIdentity := if_neg (by decide +kernel)
  have hnonempty : dump exampleIdentity ≠ [] := by decide +kernel
  unfold credentials
  dsimp only
  rw [hrole, htrim, hline, hbody, if_neg (by decide), if_neg hnonempty, parse_dump decimalStrtod decimalStrtod_reads _ hlossless]
  exact ⟨rfl, rfl⟩

/-- A turn that is answered so. -/
def exampleTurn (answer : Http.Response) : Turn :=
  { before := []
    cycle :=
      { started := 0
        ended := 20000
        imds := exampleImds
        now := 0
        later := 0
        signedAt := 0
        requestId := []
        perform := fun _ => answer
        stop := fun _ => false
        others := fun _ => []
        answers := fun _ => ⟨.noCredentials, .noCredentials, .noCredentials, 0⟩ }
    during := [] }

def expired : Http.Response := ⟨403, lit "ExpiredTokenException", []⟩

/-- The example turn polls with the example credentials. -/
theorem exampleTurn_asked (digests : Signing.Digests) (answer : Http.Response) :
    ((exampleTurn answer).polled decimalStrtod digests [] [] Credentials.init).asked = some exampleCredentials := by
  obtain ⟨hok, hout⟩ := exampleImds_credentials
  have hgot : (get decimalStrtod Credentials.init (exampleTurn answer).cycle.call).ok = true ∧
      (get decimalStrtod Credentials.init (exampleTurn answer).cycle.call).out = exampleCredentials := by
    have hstale : Credentials.init.stale (exampleTurn answer).cycle.call.now refreshMargin ≠ false := by
      show Credentials.init.stale 0 refreshMargin ≠ false
      decide
    have hfresh : ¬(credentials decimalStrtod (exampleTurn answer).cycle.call.imds Credentials.init).ok = false :=
      fun h => absurd (hok.symm.trans h) (by decide)
    unfold CredentialProvider.get
    dsimp only
    rw [if_neg hstale, if_neg hfresh]
    exact ⟨rfl, hout⟩
  have hcached : (exampleTurn answer).cached decimalStrtod Credentials.init = Credentials.init := rfl
  unfold Turn.polled pollOnce
  rw [hcached]
  dsimp only
  rw [hgot.1, hgot.2, if_neg (by decide)]
  split_ifs
  · rfl
  · rfl

/-- An answer that calls the token expired rejects the credentials of its turn. -/
theorem expired_rejected :
    Rejected decimalStrtod noDigests [] [] Credentials.init (exampleTurn expired) := by
  have hanswer : getMessages noDigests [] [] exampleCredentials (exampleTurn expired).cycle = expired := rfl
  refine ⟨exampleCredentials, exampleTurn_asked noDigests expired, ?_⟩
  rw [hanswer]
  decide +kernel

/-- The poll after it asks IMDS again. -/
theorem expired_refetched :
    FetchedIn decimalStrtod [.get (exampleTurn expired).cycle.call] exampleCredentials := by
  have hasked := exampleTurn_asked noDigests expired
  rw [← next_of_rejected decimalStrtod noDigests [] [] expired_rejected] at hasked
  exact (rejected_not_reused decimalStrtod noDigests [] [] [] [] (exampleTurn expired) (exampleTurn expired)
    expired_rejected exampleCredentials hasked).1

end HaikuAgent.Analysis.PollRecovery
