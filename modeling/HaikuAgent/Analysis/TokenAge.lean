import Mathlib.Algebra.Order.Group.Int
import Mathlib.Data.List.Induction
import Mathlib.Data.List.Infix
import Mathlib.Tactic.Linarith
import HaikuAgent.Foundation.Runs
import HaikuAgent.Model.Metadata

/-!
# How old a token gets

The cache of `Imds` counts with the system clock, the service with its own. What the cache holds
was issued for a request at an earlier state of the run, and its age is bounded by how much the
clock has lost on the service's since then (`token_age`). With the checks of the health thread
the clock is never far off, and neither is the age of a token (`token_age_checked`).
-/

set_option autoImplicit false

namespace HaikuAgent.Analysis.TokenAge

open HaikuAgent.Foundation
open HaikuAgent.Model
open HaikuAgent.Model.Metadata

/-! ## Where a token comes from -/

variable (start : World)

/-- The world after these events. -/
def after (events : List Event) : World := runFrom World.step start events

/-- One more event is a step from where the others led. -/
theorem after_concat (events : List Event) (e : Event) :
    after start (events ++ [e]) = (after start events).step e := by
  unfold after
  rw [runFrom_append]
  rfl

/-- A token was asked for when these events had happened, and issued. -/
def IssuedFor (w : World) (token : Bytes) (before : List Event) : Prop :=
  (token, (after start before).time + kTokenTtlSeconds) ∈ w.issued

/-- Every request on its way, and the token in the cache, stem from a state of the run. -/
structure Traced (w : World) (events : List Event) : Prop where
  pending : ∀ r ∈ w.pending, ∃ before, before <+: events ∧ r.now = (after start before).clock ∧
    r.sent = (after start before).time
  cache : w.imds.token ≠ [] → ∃ before, before <+: events ∧ IssuedFor start w w.imds.token before ∧
    w.imds.tokenExpiresAt = (after start before).clock + kTokenTtlSeconds

/-- A start without a token and without requests is traced. -/
theorem traced_init (hcache : start.imds.token = []) (hpending : start.pending = []) : Traced start start [] := by
  refine ⟨?_, fun h => absurd hcache h⟩
  intro r hr
  rw [hpending] at hr
  cases hr

section Step

variable {start : World} {w : World} {events : List Event}

/-- A world with the same cache and the same requests. -/
theorem Traced.of_same (h : Traced start w events) (e : Event) {v : World} (hpending : v.pending = w.pending)
    (himds : v.imds = w.imds) (hissued : v.issued = w.issued) : Traced start v (events ++ [e]) := by
  refine ⟨?_, ?_⟩
  · intro r hr
    rw [hpending] at hr
    obtain ⟨before, hbefore, hr⟩ := h.pending r hr
    exact ⟨before, hbefore.trans (List.prefix_append _ _), hr⟩
  · rw [himds]
    intro hne
    obtain ⟨before, hbefore, hissuedFor, hexpires⟩ := h.cache hne
    refine ⟨before, hbefore.trans (List.prefix_append _ _), ?_, hexpires⟩
    unfold IssuedFor
    rw [hissued]
    exact hissuedFor

/-- The call begins at a state of the run. -/
theorem Traced.ask (h : Traced start w events) (caller : ℕ) (e : Event) (hw : w = after start events) :
    Traced start { w with pending := w.pending ++ [⟨caller, w.clock, w.time⟩] } (events ++ [e]) := by
  have hold := h.of_same e (v := w) rfl rfl rfl
  refine ⟨?_, hold.cache⟩
  intro r hr
  obtain hr | hr := List.mem_append.mp hr
  · exact hold.pending r hr
  · rw [List.mem_singleton.mp hr, hw]
    exact ⟨events, List.prefix_append _ _, rfl, rfl⟩

/-- Storing a token keeps the old one or takes the answer's body. -/
theorem storeToken_cases (s : Imds) (now : ℤ) (resp : Http.Response) :
    s.storeToken now resp = (s, []) ∨
      s.storeToken now resp = (⟨trim resp.body, now + kTokenTtlSeconds⟩, trim resp.body) := by
  unfold Imds.storeToken
  split_ifs
  · exact .inl rfl
  · exact .inr rfl

/-- What is stored is the token of one of the requests. -/
theorem Traced.receive (h : Traced start w events) (e : Event) {r : Request} (hr : r ∈ w.pending)
    (resp : Http.Response) : Traced start (w.receive r resp) (events ++ [e]) := by
  have hold := h.of_same e (v := w) rfl rfl rfl
  refine ⟨fun r' hr' => hold.pending r' (List.mem_of_mem_erase hr'), ?_⟩
  intro hne
  obtain ⟨before, hbefore, hnow, hsent⟩ := hold.pending r hr
  unfold World.receive at hne ⊢
  unfold IssuedFor
  dsimp only at hne ⊢
  obtain hsame | hnew := storeToken_cases w.imds r.now resp
  · rw [hsame] at hne ⊢
    exact hold.cache hne
  · rw [hnew] at hne ⊢
    refine ⟨before, hbefore, ?_, by rw [hnow]⟩
    rw [if_neg hne, hsent]
    exact List.mem_append_right _ (List.mem_singleton_self _)

/-- **The step.** -/
theorem Traced.step (h : Traced start w events) (e : Event) (hw : w = after start events) :
    Traced start (w.step e) (events ++ [e]) := by
  cases e with
  | pass seconds => exact h.of_same _ rfl rfl rfl
  | drift seconds => exact h.of_same _ rfl rfl rfl
  | ask caller =>
    simp only [World.step]
    cases w.imds.cachedToken w.clock with
    | some token => exact h.of_same _ rfl rfl rfl
    | none => exact h.ask caller _ hw
  | answer caller resp =>
    simp only [World.step]
    cases hfind : w.pending.find? fun r => r.caller = caller with
    | some r => exact h.receive _ (List.mem_of_find?_eq_some hfind) resp
    | none => exact h.of_same _ rfl rfl rfl
  | ensureClock date allowSet setOk =>
    simp only [World.step]
    cases (ensureClock (serverTime date) w.clock allowSet kMaxClockDriftSeconds setOk).2 with
    | some reference => exact h.of_same _ rfl rfl rfl
    | none => exact h.of_same _ rfl rfl rfl

end Step

/-- Every history is traced, by induction on its events. -/
theorem traced_after (hcache : start.imds.token = []) (hpending : start.pending = []) (events : List Event) :
    Traced start (after start events) events := by
  induction events using List.reverseRecOn with
  | nil => exact traced_init start hcache hpending
  | append_singleton events e ih =>
    rw [after_concat]
    exact ih.step e rfl

/-- **The age of a token.** What the cache serves was issued for a request at an earlier state of
the run, and since then less than 21540 seconds have gone by, and what the system clock has lost.
SRC: aws.cpp:26-53 -/
theorem served_age (hcache : start.imds.token = []) (hpending : start.pending = []) (events : List Event)
    (token : Bytes) (hserved : (after start events).imds.cachedToken (after start events).clock = some token) :
    ∃ before, before <+: events ∧ IssuedFor start (after start events) token before ∧
      (after start events).time - (after start before).time <
        21540 + ((after start before).ahead - (after start events).ahead) := by
  have htraced := traced_after start hcache hpending events
  unfold Imds.cachedToken at hserved
  split_ifs at hserved with hfresh
  cases hserved
  obtain ⟨before, hbefore, hissued, hexpires⟩ := htraced.cache hfresh.1
  refine ⟨before, hbefore, hissued, ?_⟩
  have hclock := hfresh.2
  rw [hexpires] at hclock
  unfold World.clock kTokenTtlSeconds at hclock
  linarith

/-! ## A clock that is checked -/

/-- By how much the clock went wrong since it was last checked. -/
def drifted (events : List Event) : ℤ :=
  events.foldl (fun sum e =>
    match e with
    | .drift seconds => sum + |seconds|
    | .ensureClock _ _ _ => 0
    | _ => sum) 0

/-- A check that gets the service's time, and may and can set the clock. -/
def Works (w : World) : Event → Prop
  | .ensureClock date allowSet setOk => serverTime date = some w.time ∧ allowSet = true ∧ setOk = true
  | _ => True

/-- What a check leaves of the clock's error. -/
theorem ahead_ensureClock (w : World) {date : Option Bytes} {allowSet setOk : Bool}
    (h : Works w (.ensureClock date allowSet setOk)) :
    |(w.step (.ensureClock date allowSet setOk)).ahead| < kMaxClockDriftSeconds := by
  obtain ⟨hdate, rfl, rfl⟩ := h
  simp only [World.step]
  rw [hdate]
  unfold ensureClock
  dsimp only
  have hdrift : w.time - w.clock = -w.ahead := by
    unfold World.clock
    ring
  have hmay : ¬true = false := by decide
  rw [hdrift, if_neg hmay, if_neg hmay]
  split_ifs with hnear
  · exact abs_lt.mpr ⟨by linarith [hnear.2], by linarith [hnear.1]⟩
  · dsimp only
    rw [sub_self, abs_zero]
    decide

/-- **A checked clock** is off by less than the tolerance and what it drifted since.
SRC: timesync.cpp:14-57 -/
theorem abs_ahead_lt (hstart : |start.ahead| < kMaxClockDriftSeconds) (events : List Event)
    (hworks : AllSteps World.step Works start events) :
    |(after start events).ahead| < kMaxClockDriftSeconds + drifted events := by
  induction events using List.reverseRecOn with
  | nil => exact lt_of_lt_of_eq hstart (add_zero _).symm
  | append_singleton events e ih =>
    have hbefore := ih fun l e' hl => hworks l e' (hl.trans (List.prefix_append _ _))
    have hlast : Works (after start events) e := hworks events e (List.prefix_refl _)
    rw [after_concat]
    unfold drifted at hbefore ⊢
    rw [List.foldl_append, List.foldl_cons, List.foldl_nil]
    cases e with
    | pass seconds => exact hbefore
    | drift seconds =>
      have htriangle := abs_add_le (after start events).ahead seconds
      change |(after start events).ahead + seconds| < _
      dsimp only
      linarith
    | ask caller =>
      simp only [World.step]
      cases (after start events).imds.cachedToken (after start events).clock with
      | some token => exact hbefore
      | none => exact hbefore
    | answer caller resp =>
      simp only [World.step]
      cases (after start events).pending.find? fun r => r.caller = caller with
      | some r => exact hbefore
      | none => exact hbefore
    | ensureClock date allowSet setOk =>
      dsimp only
      rw [add_zero]
      exact ahead_ensureClock _ hlast

/-- **The age of a token under a checked clock.** With every check working, and at most `most`
seconds of drift between two of them, the clock is never `60 + most` seconds off, and a token that
the cache serves was issued for a request less than `21540 + 2 * (60 + most)` seconds before.
SRC: aws.cpp:26-53, timesync.cpp:14-57, main.cpp:728-742 -/
theorem token_age_checked (hcache : start.imds.token = []) (hpending : start.pending = [])
    (hstart : |start.ahead| < kMaxClockDriftSeconds) (events : List Event) (most : ℤ)
    (hworks : AllSteps World.step Works start events) (hdrift : ∀ l, l <+: events → drifted l ≤ most) :
    AllStates World.step (fun w => |w.ahead| < kMaxClockDriftSeconds + most) start events ∧
      ∀ l, l <+: events → ∀ token,
        (after start l).imds.cachedToken (after start l).clock = some token →
          ∃ before, before <+: l ∧ IssuedFor start (after start l) token before ∧
            (after start l).time - (after start before).time < 21540 + 2 * (kMaxClockDriftSeconds + most) := by
  have hnear (l : List Event) (hl : l <+: events) : |(after start l).ahead| < kMaxClockDriftSeconds + most := by
    have hchecked := abs_ahead_lt start hstart l fun k e hk => hworks k e (hk.trans hl)
    linarith [hdrift l hl]
  refine ⟨hnear, ?_⟩
  intro l hl token hserved
  obtain ⟨before, hbefore, hissued, hage⟩ := served_age start hcache hpending l token hserved
  refine ⟨before, hbefore, hissued, ?_⟩
  have hfrom := (abs_lt.mp (hnear before (hbefore.trans hl))).2
  have hto := (abs_lt.mp (hnear l hl)).1
  linarith

/-! ## A clock that was fast -/

/-- A token is fetched, the clock gains half a minute and is checked, and time goes by. -/
def fastClock : List Event :=
  [.ask 0, .answer 0 ⟨200, lit "token", []⟩, .drift 30,
   .ensureClock (some (lit "Thu, 01 Jan 1970 00:16:40 GMT")) true true, .pass 100]

/-- The clock of the example works. -/
theorem fastClock_works : AllSteps World.step Works (World.init 1000 0) fastClock := by
  have hdate : serverTime (some (lit "Thu, 01 Jan 1970 00:16:40 GMT")) = some 1000 := by decide +kernel
  unfold fastClock
  refine (allSteps_cons _ _ _ _ _).mpr ⟨trivial, (allSteps_cons _ _ _ _ _).mpr ⟨trivial,
    (allSteps_cons _ _ _ _ _).mpr ⟨trivial, (allSteps_cons _ _ _ _ _).mpr ⟨⟨hdate, rfl, rfl⟩,
      (allSteps_cons _ _ _ _ _).mpr ⟨trivial, ?_⟩⟩⟩⟩⟩
  intro l e hl
  exact absurd (List.prefix_nil.mp hl) (by simp)

/-- The token is served. -/
theorem fastClock_served :
    ∃ before, before <+: fastClock ∧
      IssuedFor (World.init 1000 0) (after (World.init 1000 0) fastClock) (lit "token") before ∧
      (after (World.init 1000 0) fastClock).time - (after (World.init 1000 0) before).time <
        21540 + 2 * (kMaxClockDriftSeconds + 30) := by
  have hdrift : ∀ l ∈ fastClock.inits, drifted l ≤ 30 := by decide +kernel
  exact (token_age_checked (World.init 1000 0) rfl rfl (by decide) fastClock 30 fastClock_works
    fun l hl => hdrift l ((List.mem_inits l fastClock).mpr hl)).2 fastClock (List.prefix_refl _) (lit "token")
      (by decide +kernel)

end HaikuAgent.Analysis.TokenAge
