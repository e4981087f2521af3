import HaikuAgent.Foundation.Runs
import HaikuAgent.Model.CredentialProvider

/-!
# What the provider serves

Runs of calls of the provider, from an empty cache. What is in the cache was fetched since the
last `invalidate`, and there is something in it only if it can be used. `serves_usable` says what
this makes of every call: what it serves, when it asks IMDS first, and what it leaves unchanged.
-/

set_option autoImplicit false

namespace HaikuAgent.Analysis.CredentialCache

open HaikuAgent.Foundation
open HaikuAgent.Model
open HaikuAgent.Model.Json (Double)
open HaikuAgent.Model.CredentialProvider

variable (strtod : Bytes → Double × ℕ)

/-! ## One call -/

/-- The call asks IMDS and gets these credentials from it. -/
def Fetched (cached : Credentials) (c : Call) (creds : Credentials) : Prop :=
  cached.stale c.now refreshMargin = true ∧ (credentials strtod c.imds Credentials.init).ok = true ∧
    (credentials strtod c.imds Credentials.init).out = creds

/-- The credentials have not expired, if it is known when they do. -/
def Unexpired (creds : Credentials) (now : ℤ) : Prop := creds.expiresAt ≠ 0 → now < creds.expiresAt

/-- Whoever asks for credentials asks for the role first. -/
theorem asked_rolePath (imds : Bytes → Bytes) (out : Credentials) :
    (credentials strtod imds out).asked.head? = some rolePath := by
  unfold credentials
  dsimp only
  split_ifs
  all_goals rfl

/-- Credentials that IMDS gave are not empty. -/
theorem nonempty_of_ok {imds : Bytes → Bytes} {out : Credentials} (h : (credentials strtod imds out).ok = true) :
    (credentials strtod imds out).out.empty = false := by
  unfold credentials at h ⊢
  dsimp only at h ⊢
  split_ifs at h ⊢
  rw [Bool.not_eq_true'] at h
  exact h

/-- Credentials are not stale when they are complete and do not expire within the margin. -/
theorem stale_eq_false_iff (creds : Credentials) (now margin : ℤ) :
    creds.stale now margin = false ↔ creds.empty = false ∧ (creds.expiresAt ≠ 0 → now + margin < creds.expiresAt) := by
  unfold Credentials.stale
  rw [decide_eq_false_iff_not, not_or, not_and, not_le, Bool.not_eq_true]

/-- **What a call can do**: serve the cache at once, refresh it, serve it after a refresh that
failed, or give up. -/
theorem get_cases (cached : Credentials) (c : Call) :
    cached.stale c.now refreshMargin = false ∧ get strtod cached c = ⟨⟨true, cached, []⟩, cached⟩ ∨
    cached.stale c.now refreshMargin = true ∧ (get strtod cached c).asked.head? = some rolePath ∧
      ((∃ creds, Fetched strtod cached c creds ∧ (get strtod cached c).ok = true ∧
          (get strtod cached c).out = creds ∧ (get strtod cached c).cached = creds) ∨
        cached.empty = false ∧ cached.stale c.later 0 = false ∧ (get strtod cached c).ok = true ∧
          (get strtod cached c).out = cached ∧ (get strtod cached c).cached = cached ∨
        (get strtod cached c).ok = false ∧ (get strtod cached c).out = c.out ∧
          (get strtod cached c).cached = cached) := by
  have hasked := asked_rolePath strtod c.imds Credentials.init
  by_cases hstale : cached.stale c.now refreshMargin = false
  · refine .inl ⟨hstale, ?_⟩
    unfold CredentialProvider.get
    rw [if_pos hstale]
  · rw [Bool.not_eq_false] at hstale
    refine .inr ⟨hstale, ?_⟩
    unfold Fetched CredentialProvider.get
    rw [hstale, if_neg (by decide)]
    dsimp only
    by_cases hfails : (credentials strtod c.imds Credentials.init).ok = false
    · rw [if_pos hfails]
      by_cases hkept : cached.empty = false ∧ cached.stale c.later 0 = false
      · rw [if_pos hkept]
        exact ⟨hasked, .inr (.inl ⟨hkept.1, hkept.2, rfl, rfl, rfl⟩)⟩
      · rw [if_neg hkept]
        exact ⟨hasked, .inr (.inr ⟨rfl, rfl, rfl⟩)⟩
    · rw [if_neg hfails]
      exact ⟨hasked, .inl ⟨_, ⟨rfl, Bool.not_eq_false _ ▸ hfails, rfl⟩, rfl, rfl, rfl⟩⟩

/-! ## Runs -/

/-- The cache after these calls. -/
def cacheAfter (events : List Event) : Credentials := runFrom (next strtod) Credentials.init events

/-- One of the calls since the last `invalidate` got these credentials from IMDS. -/
def FetchedSince (events : List Event) (creds : Credentials) : Prop :=
  ∃ l c m, events = l ++ .get c :: m ∧ .invalidate ∉ m ∧ Fetched strtod (cacheAfter strtod l) c creds

/-- The cache after one more event. -/
theorem cacheAfter_concat (events : List Event) (e : Event) :
    cacheAfter strtod (events ++ [e]) = next strtod (cacheAfter strtod events) e := by
  unfold cacheAfter
  rw [runFrom_append, runFrom_cons, runFrom_nil]

/-- Asking again keeps what was fetched since the last `invalidate`. -/
theorem FetchedSince.concat {events : List Event} {creds : Credentials} (h : FetchedSince strtod events creds)
    (c : Call) : FetchedSince strtod (events ++ [.get c]) creds := by
  obtain ⟨l, first, m, rfl, hm, hfetched⟩ := h
  refine ⟨l, first, m ++ [.get c], by rw [List.append_assoc, List.cons_append], ?_, hfetched⟩
  intro hmem
  obtain hmem | hmem := List.mem_append.mp hmem
  · exact hm hmem
  · cases List.mem_singleton.mp hmem

/-- What is in the cache was fetched since the last `invalidate`. -/
theorem cached_fetchedSince (events : List Event) (hne : (cacheAfter strtod events).empty = false) :
    FetchedSince strtod events (cacheAfter strtod events) := by
  induction events using List.reverseRecOn with
  | nil => cases hne
  | append_singleton events e ih =>
    rw [cacheAfter_concat] at hne ⊢
    cases e with
    | invalidate => cases hne
    | get c =>
      have hkeeps (hcached : (get strtod (cacheAfter strtod events) c).cached = cacheAfter strtod events) :
          FetchedSince strtod (events ++ [.get c]) (next strtod (cacheAfter strtod events) (.get c)) := by
        unfold next at hne ⊢
        dsimp only at hne ⊢
        rw [hcached] at hne ⊢
        exact (ih hne).concat strtod c
      obtain ⟨-, hserved⟩ | ⟨-, -, hfetched | hkept | hfails⟩ := get_cases strtod (cacheAfter strtod events) c
      · exact hkeeps (congrArg Got.cached hserved)
      · obtain ⟨creds, hfetched, -, -, hcached⟩ := hfetched
        unfold next
        dsimp only
        rw [hcached]
        exact ⟨events, c, [], rfl, List.not_mem_nil, hfetched⟩
      · exact hkeeps hkept.2.2.2.2
      · exact hkeeps hfails.2.2

/-- The clock reading that a call uses: the second one is after IMDS was asked. -/
def reading (cached : Credentials) (c : Call) : ℤ := if (get strtod cached c).asked = [] then c.now else c.later

/-- What a call that returns true serves: credentials fetched in this call, or fetched by an earlier
one since the last `invalidate` and, at the reading used, not expired. -/
def Usable (events : List Event) (c : Call) (creds : Credentials) : Prop :=
  creds.empty = false ∧
    (Fetched strtod (cacheAfter strtod events) c creds ∨
      FetchedSince strtod events creds ∧ Unexpired creds (reading strtod (cacheAfter strtod events) c))

/-- The cache is served at once only where it is live. -/
theorem usable_of_fresh {events : List Event} {c : Call}
    (hfresh : (cacheAfter strtod events).stale c.now refreshMargin = false)
    (hserved : get strtod (cacheAfter strtod events) c =
      ⟨⟨true, cacheAfter strtod events, []⟩, cacheAfter strtod events⟩) :
    Usable strtod events c (cacheAfter strtod events) := by
  obtain ⟨hne, hlive⟩ := (stale_eq_false_iff _ _ _).mp hfresh
  have hreading : reading strtod (cacheAfter strtod events) c = c.now :=
    if_pos (congrArg (fun g : Got => g.asked) hserved)
  refine ⟨hne, .inr ⟨cached_fetchedSince strtod events hne, ?_⟩⟩
  intro hknown
  have h := hlive hknown
  unfold refreshMargin at h
  omega

/-- So it is after a refresh that failed. -/
theorem usable_of_kept {events : List Event} {c : Call}
    (hasked : (get strtod (cacheAfter strtod events) c).asked.head? = some rolePath)
    (hlive : (cacheAfter strtod events).stale c.later 0 = false) :
    Usable strtod events c (cacheAfter strtod events) := by
  obtain ⟨hne, hlive⟩ := (stale_eq_false_iff _ _ _).mp hlive
  have hreading : reading strtod (cacheAfter strtod events) c = c.later := by
    unfold reading
    rw [if_neg]
    intro hnil
    rw [hnil] at hasked
    cases hasked
  refine ⟨hne, .inr ⟨cached_fetchedSince strtod events hne, ?_⟩⟩
  intro hknown
  have h := hlive hknown
  rw [hreading]
  rw [add_zero] at h
  exact h

/-- Whatever a call that returns true serves is usable. -/
theorem usable_of_ok (events : List Event) (c : Call) (hok : (get strtod (cacheAfter strtod events) c).ok = true) :
    Usable strtod events c (get strtod (cacheAfter strtod events) c).out := by
  obtain ⟨hfresh, hserved⟩ | ⟨-, hasked, hcases⟩ := get_cases strtod (cacheAfter strtod events) c
  · have husable := usable_of_fresh strtod hfresh hserved
    rw [hserved]
    exact husable
  · obtain ⟨creds, hfetched, -, hout, -⟩ | ⟨-, hlive, -, hout, -⟩ | ⟨hfails, -⟩ := hcases
    · have hne : creds.empty = false := hfetched.2.2 ▸ nonempty_of_ok strtod hfetched.2.1
      rw [hout]
      exact ⟨hne, .inl hfetched⟩
    · rw [hout]
      exact usable_of_kept strtod hasked hlive
    · rw [hfails] at hok
      cases hok

/-- A cache that is close to its end is not served without asking. -/
theorem asked_of_near (cached : Credentials) (c : Call) (hknown : cached.expiresAt ≠ 0)
    (hnear : cached.expiresAt - 300 ≤ c.now) : (get strtod cached c).asked.head? = some rolePath := by
  obtain ⟨hfresh, -⟩ | ⟨-, hasked, -⟩ := get_cases strtod cached c
  · have h := ((stale_eq_false_iff _ _ _).mp hfresh).2 hknown
    unfold refreshMargin at h
    omega
  · exact hasked

/-- A call that returns false changes neither the cache nor its argument. -/
theorem unchanged_of_not_ok (cached : Credentials) (c : Call) (hfails : (get strtod cached c).ok = false) :
    (get strtod cached c).cached = cached ∧ (get strtod cached c).out = c.out := by
  obtain ⟨-, hserved⟩ | ⟨-, -, ⟨creds, -, hok, -⟩ | ⟨-, -, hok, -⟩ | ⟨-, hout, hcached⟩⟩ := get_cases strtod cached c
  · rw [hserved] at hfails
    cases hfails
  · rw [hok] at hfails
    cases hfails
  · rw [hok] at hfails
    cases hfails
  · exact ⟨hcached, hout⟩

/-- **The provider serves usable credentials**, asks IMDS first within 300 seconds of their expiry,
and changes nothing when it returns false.
SRC: aws.cpp:109-166, aws.h:21-32 -/
theorem serves_usable (events : List Event) (c : Call) :
    let cached := cacheAfter strtod events
    let got := get strtod cached c
    (got.ok = true → Usable strtod events c got.out) ∧
      (cached.expiresAt ≠ 0 ∧ cached.expiresAt - 300 ≤ c.now → got.asked.head? = some rolePath) ∧
      (got.ok = false → got.cached = cached ∧ got.out = c.out) := by
  intro cached got
  refine ⟨usable_of_ok strtod events c, ?_, unchanged_of_not_ok strtod cached c⟩
  rintro ⟨hknown, hnear⟩
  exact asked_of_near strtod cached c hknown hnear

end HaikuAgent.Analysis.CredentialCache
