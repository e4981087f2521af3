import HaikuAgent.Analysis.CredentialCache
import HaikuAgent.Model.S3

/-!
# A transfer and its second attempt

Whatever other threads do with the provider, a transfer is one of four courses (`Course`): nothing
is sent, the first answer is final, the second attempt has no credentials, or it is made with
credentials that were fetched after the first answer (`transfer_course`).
-/

set_option autoImplicit false

namespace HaikuAgent.Analysis.TransferRetries

open HaikuAgent.Foundation
open HaikuAgent.Model
open HaikuAgent.Model.Json (Double)
open HaikuAgent.Model.CredentialProvider
open HaikuAgent.Model.S3
open HaikuAgent.Analysis.CredentialCache

variable (strtod : Bytes → Double × ℕ) (digests : Signing.Digests) (t : Transfer)

/-- One of the calls `events`, from an empty cache, got these credentials from IMDS. -/
def FetchedIn (events : List Event) (creds : Credentials) : Prop :=
  ∃ l c m, events = l ++ .get c :: m ∧ Fetched strtod (cacheAfter strtod l) c creds

/-- The provider after `events` and an `invalidate` begins anew. -/
theorem cacheAfter_invalidate (events later : List Event) :
    cacheAfter strtod (events ++ .invalidate :: later) = cacheAfter strtod later := by
  unfold cacheAfter
  rw [runFrom_append, runFrom_cons]
  rfl

/-- **What is served after an `invalidate`** was fetched after it, in this call or in one of
another thread.
SRC: aws.cpp:142-166 -/
theorem fetchedIn_of_ok (events later : List Event) (c : Call)
    (hok : (get strtod (cacheAfter strtod (events ++ .invalidate :: later)) c).ok = true) :
    FetchedIn strtod (later ++ [.get c])
      (get strtod (cacheAfter strtod (events ++ .invalidate :: later)) c).out := by
  rw [cacheAfter_invalidate] at hok ⊢
  obtain ⟨-, hfetched | ⟨⟨l, first, m, rfl, -, hfetched⟩, -⟩⟩ := usable_of_ok strtod later c hok
  · exact ⟨later, c, [], rfl, hfetched⟩
  · exact ⟨l, first, m ++ [.get c], by rw [List.append_assoc, List.cons_append], hfetched⟩

/-- What a transfer sends is made for it. -/
theorem sent_outgoing (cached : Credentials) (m : Meeting) :
    ∀ out ∈ (transfer strtod digests t cached m).sent, ∃ creds now, out = outgoing digests t creds now := by
  have honce (cached : Credentials) (a : Attempt) : ∀ out ∈ (transferOnce strtod digests t cached a).sent,
      ∃ creds now, out = outgoing digests t creds now := by
    unfold transferOnce
    dsimp only
    intro out hout
    split_ifs at hout
    · cases hout
    · exact ⟨_, _, List.mem_singleton.mp hout⟩
  unfold transfer
  dsimp only
  intro out hout
  split_ifs at hout
  · obtain hout | hout := List.mem_append.mp hout
    · exact honce _ _ out hout
    · exact honce _ _ out hout
  · exact honce _ _ out hout

/-- Credentials that an attempt was given. -/
def Given (events : List Event) (a : Attempt) (creds : Credentials) : Prop :=
  (get strtod (cacheAfter strtod events) a.call).ok = true ∧
    (get strtod (cacheAfter strtod events) a.call).out = creds ∧ Usable strtod events a.call creds

/-- All calls of the provider up to the second attempt; the first one followed `events`. -/
def untilRetry (events : List Event) (m : Meeting) : List Event :=
  (events ++ .get m.first.call :: m.during) ++ .invalidate :: m.between

/-- What can come of a transfer. -/
inductive Course (events : List Event) (m : Meeting) : Done → Prop
  | offline (cached : Credentials) (hnone : (get strtod (cacheAfter strtod events) m.first.call).ok = false) :
      Course events m ⟨offline, cached, []⟩
  | once (cached creds : Credentials) (hgiven : Given strtod events m.first creds)
      (hfinal : expiredToken (m.first.perform (outgoing digests t creds m.first.signedAt)) = false) :
      Course events m
        ⟨m.first.perform (outgoing digests t creds m.first.signedAt), cached,
          [outgoing digests t creds m.first.signedAt]⟩
  | abandoned (cached creds : Credentials) (hgiven : Given strtod events m.first creds)
      (hexpired : expiredToken (m.first.perform (outgoing digests t creds m.first.signedAt)) = true)
      (hnone : (get strtod (cacheAfter strtod (untilRetry events m)) m.second.call).ok = false) :
      Course events m ⟨S3.offline, cached, [outgoing digests t creds m.first.signedAt]⟩
  | twice (cached creds fresh : Credentials) (hgiven : Given strtod events m.first creds)
      (hexpired : expiredToken (m.first.perform (outgoing digests t creds m.first.signedAt)) = true)
      (hagain : Given strtod (untilRetry events m) m.second fresh)
      (hfresh : FetchedIn strtod (m.between ++ [.get m.second.call]) fresh) :
      Course events m
        ⟨m.second.perform (outgoing digests t fresh m.second.signedAt), cached,
          [outgoing digests t creds m.first.signedAt, outgoing digests t fresh m.second.signedAt]⟩

/-- What an attempt does after these calls of the provider. -/
theorem transferOnce_cases (events : List Event) (a : Attempt) :
    (∃ cached, (get strtod (cacheAfter strtod events) a.call).ok = false ∧
      transferOnce strtod digests t (cacheAfter strtod events) a = ⟨offline, cached, []⟩) ∨
    ∃ creds, Given strtod events a creds ∧
      transferOnce strtod digests t (cacheAfter strtod events) a =
        ⟨a.perform (outgoing digests t creds a.signedAt), cacheAfter strtod (events ++ [.get a.call]),
          [outgoing digests t creds a.signedAt]⟩ := by
  unfold transferOnce
  dsimp only
  by_cases hok : (get strtod (cacheAfter strtod events) a.call).ok = false
  · rw [if_pos hok]
    exact .inl ⟨_, hok, rfl⟩
  · rw [if_neg hok]
    rw [Bool.not_eq_false] at hok
    refine .inr ⟨_, ⟨hok, rfl, usable_of_ok strtod events a.call hok⟩, ?_⟩
    rw [cacheAfter_concat]
    rfl

/-- **A transfer** sends the object at most twice, the second time only after an answer that says
that the credentials have expired, and then with credentials that were fetched after this answer;
it returns what the last request was answered.
SRC: s3.cpp:28-47,113-137 -/
theorem transfer_course (events : List Event) (m : Meeting) :
    Course strtod digests t events m (transfer strtod digests t (cacheAfter strtod events) m) := by
  unfold transfer
  dsimp only
  obtain ⟨cached, hnone, hfirst⟩ | ⟨creds, hgiven, hfirst⟩ := transferOnce_cases strtod digests t events m.first
  · rw [hfirst]
    exact .offline cached hnone
  · rw [hfirst]
    dsimp only
    split_ifs with hexpired
    · have hcached : runFrom (next strtod) (cacheAfter strtod (events ++ [.get m.first.call]))
          (m.during ++ Event.invalidate :: m.between) = cacheAfter strtod (untilRetry events m) := by
        unfold cacheAfter untilRetry
        rw [← runFrom_append]
        simp only [List.append_assoc, List.cons_append, List.nil_append]
      rw [hcached]
      obtain ⟨cached, hnone, hsecond⟩ | ⟨fresh, hagain, hsecond⟩ :=
        transferOnce_cases strtod digests t (untilRetry events m) m.second
      · rw [hsecond]
        exact .abandoned cached creds hgiven hexpired hnone
      · rw [hsecond]
        have hfresh := fetchedIn_of_ok strtod (events ++ .get m.first.call :: m.during) m.between m.second.call
          hagain.1
        change FetchedIn strtod _ (get strtod (cacheAfter strtod (untilRetry events m)) _).out at hfresh
        rw [hagain.2.1] at hfresh
        exact .twice _ creds fresh hgiven hexpired hagain hfresh
    · rw [Bool.not_eq_true] at hexpired
      exact .once _ creds hgiven hexpired

/-- Digests for what does not depend on them. -/
def noDigests : Signing.Digests := ⟨fun _ => [], fun _ _ => []⟩

end HaikuAgent.Analysis.TransferRetries
