import HaikuAgent.Analysis.OutboxWindow
import HaikuAgent.Foundation.Pacing

/-!
# Dead peers

`due_resend` counts the resends of the oldest frame only, and an `add` to a full outbox
takes that frame, and its count, away. `Watch` is what the outbox is for: it keeps the
frames and, in full, the times at which `due_resend` was called while the present oldest
frame was the oldest. The peer is declared dead exactly when those times hold enough paced
ones (`dead_iff_overdue`), so a peer that vanishes is found if one frame stays the oldest
for long enough, and only then (`detected_iff`).
-/

set_option autoImplicit false

namespace HaikuAgent.Analysis.DeadPeer

open HaikuAgent.Foundation
open HaikuAgent.Model.Sessions
open HaikuAgent.Analysis.OutboxWindow

/-! ## Watching the oldest frame -/

/-- The frames, as they were when the watch began or as they were added, and the times of the
`due_resend` calls since the oldest one became the oldest. -/
structure Watch where
  queue : List Entry
  times : List ℤ

namespace Watch

/-- The watch of an outbox as it is. -/
def begin (o : Outbox) : Watch := ⟨o.buf, []⟩

def apply (w : Watch) : Call → Watch
  | .add seq frame nowMs =>
    if kMaxBuffered ≤ w.queue.length then ⟨w.queue.tail ++ [⟨seq, frame, nowMs, 0⟩], []⟩
    else if w.queue = [] then ⟨[⟨seq, frame, nowMs, 0⟩], []⟩
    else ⟨w.queue ++ [⟨seq, frame, nowMs, 0⟩], w.times⟩
  | .ack a =>
    match w.queue with
    | [] => w
    | front :: _ => if front.seq ≤ a then ⟨w.queue.dropWhile fun e => e.seq ≤ a, []⟩ else w
  | .due nowMs => ⟨w.queue, w.times ++ [nowMs]⟩

end Watch

/-- How many calls it takes to find a peer dead that does not acknowledge the frame: one for
each resend that is left, and the last one. -/
def remaining (e : Entry) : ℕ := (kMaxResends - e.resends).toNat + 1

/-- A frame that had so many calls, far enough apart, while it was the oldest. -/
def Tried (e : Entry) (times : List ℤ) : Prop :=
  Reaches kResendIntervalMs e.lastSentMs (remaining e) times

/-- The oldest frame has had all its calls at `nowMs`. -/
def Overdue (w : Watch) (nowMs : ℤ) : Prop :=
  ∃ front ∈ w.queue.head?, Tried front (w.times ++ [nowMs])

/-! ## The outbox follows the watch -/

/-- The oldest entry, with its count and time stamp, stands for the oldest frame and the
times it was tried. -/
def SameFront (times : List ℤ) (watched actual : Entry) : Prop :=
  actual.seq = watched.seq ∧
    ∀ ts t, (times ++ (ts ++ [t])).Pairwise (· ≤ ·) →
      (Tried watched (times ++ (ts ++ [t])) ↔ Tried actual (ts ++ [t]))

inductive Follows : Outbox → Watch → Prop where
  | empty (times : List ℤ) : Follows ⟨[]⟩ ⟨[], times⟩
  | cons (watched actual : Entry) (rest : List Entry) (times : List ℤ)
      (hfront : SameFront times watched actual) : Follows ⟨actual :: rest⟩ ⟨watched :: rest, times⟩

/-- A watch begins with the outbox that it follows. -/
theorem follows_begin (buf : List Entry) : Follows ⟨buf⟩ ⟨buf, []⟩ := by
  cases buf with
  | nil => exact .empty []
  | cons front rest => exact .cons front front rest [] ⟨rfl, fun _ _ _ => Iff.rfl⟩

/-- What one `due_resend` makes of the oldest entry. -/
theorem sameFront_due {times : List ℤ} {watched actual : Entry} (h : SameFront times watched actual)
    (rest : List Entry) (nowMs : ℤ) :
    ∃ actual', (Outbox.dueResend ⟨actual :: rest⟩ nowMs).2.2 = ⟨actual' :: rest⟩ ∧
      SameFront (times ++ [nowMs]) watched actual' := by
  -- the call is one more time for the watch, and the first one for the entry
  have hshift : ∀ ts t, ((times ++ [nowMs]) ++ (ts ++ [t])).Pairwise (· ≤ ·) →
      (Tried watched ((times ++ [nowMs]) ++ (ts ++ [t])) ↔ Tried actual (nowMs :: (ts ++ [t]))) := by
    intro ts t hsorted
    rw [List.append_assoc] at hsorted ⊢
    exact h.2 (nowMs :: ts) t hsorted
  have hlater {ts : List ℤ} {t : ℤ} (hsorted : ((times ++ [nowMs]) ++ (ts ++ [t])).Pairwise (· ≤ ·)) :
      ∀ u ∈ ts ++ [t], nowMs ≤ u := by
    rw [List.append_assoc] at hsorted
    exact (List.pairwise_cons.mp (List.pairwise_append.mp hsorted).2.1).1
  rcases dueResend_cases ⟨actual :: rest⟩ nowMs with
    ⟨front, rest', hbuf, hdue, hlive, hres⟩ | ⟨front, rest', hbuf, hdue, hmax, hres⟩ | ⟨hearly, hres⟩
  · cases hbuf
    let stamped : Entry := { actual with lastSentMs := nowMs, resends := actual.resends + 1 }
    refine ⟨stamped, by rw [hres], h.1, ?_⟩
    intro ts t hsorted
    rw [hshift ts t hsorted]
    have hone : remaining actual = remaining stamped + 1 := by
      simp only [remaining, kMaxResends, stamped] at hlive ⊢
      omega
    unfold Tried
    rw [hone]
    exact reaches_cons_due (by omega) (hlater hsorted)
  · cases hbuf
    refine ⟨actual, by rw [hres], h.1, ?_⟩
    intro ts t hsorted
    rw [hshift ts t hsorted]
    have hone : remaining actual = 1 := by
      simp only [remaining, kMaxResends] at hmax ⊢
      omega
    have ht : nowMs ≤ t := hlater hsorted t (List.mem_append_right _ (List.mem_singleton_self t))
    unfold Tried
    rw [hone]
    refine iff_of_true ?_ ?_
    · exact reaches_one_of_mem List.mem_cons_self (by omega)
    · exact reaches_one_of_mem (List.mem_append_right _ (List.mem_singleton_self t)) (by omega)
  · refine ⟨actual, by rw [hres], h.1, ?_⟩
    intro ts t hsorted
    rw [hshift ts t hsorted]
    have hsoon := hearly actual rest rfl
    exact reaches_cons_early (by omega)

/-- It follows the outbox over a call. -/
theorem follows_apply {o : Outbox} {w : Watch} (h : Follows o w) (c : Call) :
    Follows (OutboxWindow.apply o c) (w.apply c) := by
  cases h with
  | empty times =>
    cases c with
    | add seq frame nowMs => exact follows_begin _
    | ack a => exact .empty times
    | due nowMs => exact .empty _
  | cons watched actual rest times hfront =>
    cases c with
    | add seq frame nowMs =>
      simp only [OutboxWindow.apply, Watch.apply, Outbox.add, List.length_cons, List.tail_cons]
      by_cases hfull : kMaxBuffered ≤ rest.length + 1
      · rw [if_pos hfull, if_pos hfull]
        exact follows_begin _
      · rw [if_neg hfull, if_neg hfull, if_neg (List.cons_ne_nil _ _)]
        exact .cons watched actual _ times hfront
    | ack a =>
      simp only [OutboxWindow.apply, Watch.apply, Outbox.ack]
      by_cases hle : watched.seq ≤ a
      · have hle' : actual.seq ≤ a := hfront.1.trans_le hle
        rw [if_pos hle, List.dropWhile_cons_of_pos (by simpa using hle'),
          List.dropWhile_cons_of_pos (by simpa using hle)]
        exact follows_begin _
      · have hle' : ¬actual.seq ≤ a := by
          rw [hfront.1]
          exact hle
        rw [if_neg hle, List.dropWhile_cons_of_neg (by simpa using hle')]
        exact .cons watched actual rest times hfront
    | due nowMs =>
      obtain ⟨actual', hstep, hfront'⟩ := sameFront_due hfront rest nowMs
      simp only [OutboxWindow.apply, hstep, Watch.apply]
      exact .cons watched actual' rest _ hfront'

/-- It follows the outbox over any calls. -/
theorem follows_run {o : Outbox} {w : Watch} (h : Follows o w) (calls : List Call) :
    Follows (runFrom OutboxWindow.apply o calls) (runFrom Watch.apply w calls) := by
  induction calls generalizing o w with
  | nil => exact h
  | cons c calls ih => exact ih (follows_apply h c)

/-- `due_resend` declares the peer dead exactly when the oldest frame has had its calls. -/
theorem dead_iff_overdue {o : Outbox} {w : Watch} (h : Follows o w) (nowMs : ℤ)
    (hsorted : (w.times ++ [nowMs]).Pairwise (· ≤ ·)) :
    (o.dueResend nowMs).2.1 = true ↔ Overdue w nowMs := by
  cases h with
  | empty times =>
    refine iff_of_false (by simp [Outbox.dueResend]) ?_
    rintro ⟨front, hfront, -⟩
    cases hfront
  | cons watched actual rest times hfront =>
    have htried : Overdue ⟨watched :: rest, times⟩ nowMs ↔ Tried actual [nowMs] := by
      refine Iff.trans ?_ (hfront.2 [] nowMs hsorted)
      constructor
      · rintro ⟨front, hmem, htried⟩
        cases hmem
        exact htried
      · intro htried
        exact ⟨watched, rfl, htried⟩
    rw [htried]
    unfold Tried remaining
    rw [reaches_singleton_iff]
    rcases dueResend_cases ⟨actual :: rest⟩ nowMs with
      ⟨front, rest', hbuf, -, hlive, hres⟩ | ⟨front, rest', hbuf, hdue, hmax, hres⟩ | ⟨hearly, hres⟩
    · cases hbuf
      rw [hres]
      refine iff_of_false (by simp) ?_
      rintro ⟨hzero, -⟩
      omega
    · cases hbuf
      rw [hres]
      refine iff_of_true rfl ⟨?_, ?_⟩
      · omega
      · omega
    · rw [hres]
      refine iff_of_false (by simp) ?_
      rintro ⟨-, hdue⟩
      have hsoon := hearly actual rest rfl
      omega

/-! ## Rounds of calls -/

/-- Any calls, and a `due_resend` after them. -/
structure Round where
  between : List Call
  nowMs : ℤ

def Round.calls (r : Round) : List Call := r.between ++ [.due r.nowMs]

def callsOf (rounds : List Round) : List Call := rounds.flatMap Round.calls

def dueTime : Call → Option ℤ
  | .due nowMs => some nowMs
  | _ => none

/-- The clock of the `due_resend` calls does not go back. -/
def Ordered (calls : List Call) : Prop := (calls.filterMap dueTime).Pairwise (· ≤ ·)

/-- The `due_resend` that ends one of the rounds declares the peer dead. -/
def Detected (o : Outbox) (rounds : List Round) : Prop :=
  ∃ earlier r later, rounds = earlier ++ r :: later ∧
    ((runFrom OutboxWindow.apply o (callsOf earlier ++ r.between)).dueResend r.nowMs).2.1 = true

/-- At the end of one of the rounds, the frame that is then the oldest was tried for long
enough since it became the oldest. -/
def HeldLongEnough (o : Outbox) (rounds : List Round) : Prop :=
  ∃ earlier r later, rounds = earlier ++ r :: later ∧
    Overdue (runFrom Watch.apply (.begin o) (callsOf earlier ++ r.between)) r.nowMs

/-- `kMaxResends + 1` rounds that end at least the interval apart, without an acknowledge.
SRC: session.h:36-39 -/
structure Vigil (o : Outbox) (rounds : List Round) : Prop where
  nonempty : o.buf ≠ []
  silent : ∀ r ∈ rounds, ∀ a, .ack a ∉ r.between
  many : (rounds.length : ℤ) = kMaxResends + 1
  paced : ∀ front ∈ o.buf.head?, Paced kResendIntervalMs front.lastSentMs (rounds.map Round.nowMs)
  ordered : Ordered (callsOf rounds)

/-- The times of a watch are times of its calls. -/
theorem times_sublist (w : Watch) (calls : List Call) :
    (runFrom Watch.apply w calls).times.Sublist (w.times ++ calls.filterMap dueTime) := by
  induction calls generalizing w with
  | nil =>
    rw [List.filterMap_nil, List.append_nil]
    exact List.Sublist.refl _
  | cons c calls ih =>
    refine (ih (w.apply c)).trans ?_
    cases c with
    | due nowMs =>
      rw [List.filterMap_cons_some (f := dueTime) (b := nowMs) rfl]
      simp [Watch.apply]
    | add seq frame nowMs =>
      rw [List.filterMap_cons_none rfl]
      refine List.Sublist.append_right ?_ _
      simp only [Watch.apply]
      split_ifs
      · exact List.nil_sublist _
      · exact List.nil_sublist _
      · exact List.Sublist.refl _
    | ack a =>
      rw [List.filterMap_cons_none rfl]
      refine List.Sublist.append_right ?_ _
      simp only [Watch.apply]
      cases w.queue with
      | nil => exact List.Sublist.refl _
      | cons front rest =>
        simp only
        split_ifs
        · exact List.nil_sublist _
        · exact List.Sublist.refl _

/-- The calls up to the end of a round, and those behind it. -/
theorem callsOf_split (earlier later : List Round) (r : Round) :
    callsOf (earlier ++ r :: later) = (callsOf earlier ++ r.between) ++ .due r.nowMs :: callsOf later := by
  simp [callsOf, Round.calls]

/-- At the end of a round the peer is declared dead where its oldest frame is overdue. -/
theorem dead_iff_overdue_round (o : Outbox) (earlier later : List Round) (r : Round)
    (hordered : Ordered (callsOf (earlier ++ r :: later))) :
    ((runFrom OutboxWindow.apply o (callsOf earlier ++ r.between)).dueResend r.nowMs).2.1 = true ↔
      Overdue (runFrom Watch.apply (.begin o) (callsOf earlier ++ r.between)) r.nowMs := by
  apply dead_iff_overdue (follows_run (follows_begin o.buf) _)
  unfold Ordered at hordered
  rw [callsOf_split, List.filterMap_append, List.filterMap_cons_some (f := dueTime) (b := r.nowMs) rfl] at hordered
  refine hordered.sublist ?_
  refine (List.Sublist.append_right (times_sublist (.begin o) _) _).trans ?_
  simp [Watch.begin]

/-- The peer is declared dead where the oldest frame was held for long enough. -/
theorem detected_iff_held (o : Outbox) (rounds : List Round) (h : Vigil o rounds) :
    Detected o rounds ↔ HeldLongEnough o rounds := by
  constructor
  · rintro ⟨earlier, r, later, rfl, hdead⟩
    exact ⟨earlier, r, later, rfl, (dead_iff_overdue_round o earlier later r h.ordered).mp hdead⟩
  · rintro ⟨earlier, r, later, rfl, hdue⟩
    exact ⟨earlier, r, later, rfl, (dead_iff_overdue_round o earlier later r h.ordered).mpr hdue⟩

/-! ## While the outbox has room -/

/-- Without an acknowledge and with room for what is added, the oldest frame stays. -/
theorem watch_room (w : Watch) (front : Entry) (hfront : w.queue.head? = some front)
    (calls : List Call) (hsilent : ∀ a, .ack a ∉ calls)
    (hroom : w.queue.length + (added calls).length ≤ kMaxBuffered) :
    (runFrom Watch.apply w calls).queue.head? = some front ∧
      (runFrom Watch.apply w calls).times = w.times ++ calls.filterMap dueTime := by
  induction calls generalizing w with
  | nil => exact ⟨hfront, (List.append_nil _).symm⟩
  | cons c calls ih =>
    have hsilent' : ∀ a, .ack a ∉ calls := fun a ha => hsilent a (List.mem_cons_of_mem _ ha)
    cases c with
    | ack a => exact absurd List.mem_cons_self (hsilent a)
    | due nowMs =>
      obtain ⟨hhead, htimes⟩ := ih (w.apply (.due nowMs)) hfront hsilent' hroom
      refine ⟨hhead, ?_⟩
      rw [runFrom_cons, htimes, List.filterMap_cons_some (f := dueTime) (b := nowMs) rfl]
      simp [Watch.apply]
    | add seq frame nowMs =>
      have hlen : (added (.add seq frame nowMs :: calls)).length = (added calls).length + 1 := rfl
      have hne : w.queue ≠ [] := by
        intro hnil
        rw [hnil] at hfront
        cases hfront
      have hstep : w.apply (.add seq frame nowMs) =
          ⟨w.queue ++ [⟨seq, frame, nowMs, 0⟩], w.times⟩ := by
        simp only [Watch.apply]
        rw [if_neg (by omega), if_neg hne]
      rw [runFrom_cons, hstep, List.filterMap_cons_none (f := dueTime) rfl]
      refine ih _ ?_ hsilent' ?_
      · rw [List.head?_append, hfront]
        rfl
      · rw [List.length_append, List.length_singleton]
        omega

/-- The times of the rounds are among those of the calls. -/
theorem times_sublist_callsOf (rounds : List Round) :
    (rounds.map Round.nowMs).Sublist ((callsOf rounds).filterMap dueTime) := by
  induction rounds with
  | nil => exact List.Sublist.refl _
  | cons r rounds ih =>
    rw [show callsOf (r :: rounds) = r.between ++ .due r.nowMs :: callsOf rounds by
      simp [callsOf, Round.calls], List.filterMap_append,
      List.filterMap_cons_some (f := dueTime) (b := r.nowMs) rfl]
    exact (ih.cons_cons r.nowMs).trans (List.sublist_append_right _ _)

/-- The oldest frame is held as long as the outbox has room for what the shell prints. -/
theorem held_of_room (o : Outbox) (rounds : List Round) (h : Vigil o rounds)
    (hroom : o.buf.length + (added (callsOf rounds)).length ≤ kMaxBuffered)
    (hresends : ∀ e ∈ o.buf, 0 ≤ e.resends) : HeldLongEnough o rounds := by
  obtain ⟨front, hfront⟩ : ∃ front, o.buf.head? = some front :=
    Option.isSome_iff_exists.mp (List.isSome_head?.mpr h.nonempty)
  rcases rounds.eq_nil_or_concat with rfl | ⟨earlier, last, hsplit⟩
  · exact absurd h.many (by simp [kMaxResends])
  rw [List.concat_eq_append] at hsplit
  subst hsplit
  have hcalls : callsOf (earlier ++ [last]) = (callsOf earlier ++ last.between) ++ [.due last.nowMs] :=
    callsOf_split earlier [] last
  have hsilent : ∀ a, .ack a ∉ callsOf earlier ++ last.between := by
    intro a ha
    have hmem : Call.ack a ∈ callsOf (earlier ++ [last]) := by
      rw [hcalls]
      exact List.mem_append_left _ ha
    obtain ⟨r, hr, hmem⟩ := List.mem_flatMap.mp hmem
    rcases List.mem_append.mp hmem with hmem | hmem
    · exact h.silent r hr a hmem
    · cases List.mem_singleton.mp hmem
  have hadded : (added (callsOf earlier ++ last.between)).length ≤
      (added (callsOf (earlier ++ [last]))).length := by
    rw [hcalls, added_concat]
    simp
  obtain ⟨hhead, htimes⟩ := watch_room (.begin o) front hfront _ hsilent
    (by show o.buf.length + _ ≤ _; omega)
  refine ⟨earlier, last, [], rfl, front, hhead, ?_⟩
  rw [htimes]
  have hmany : remaining front ≤ ((earlier ++ [last]).map Round.nowMs).length := by
    have hcount := h.many
    have hfresh := hresends front (List.mem_of_mem_head? hfront)
    rw [List.length_map]
    simp only [remaining, kMaxResends] at hcount ⊢
    omega
  refine Reaches.of_le hmany ⟨_, ?_, h.paced front hfront, rfl⟩
  have hsub := times_sublist_callsOf (earlier ++ [last])
  rw [hcalls, List.filterMap_append] at hsub
  exact hsub

/-- **Dead-peer detection.** In any calls without an acknowledge that end `kMaxResends + 1`
rounds at least the interval apart, the peer is declared dead exactly when at the end of
some round the oldest frame has been tried for long enough since it became the oldest; so it
is as long as the outbox has room for what the shell prints.
SRC: session.h:37-39, session.cpp:481-493 -/
theorem detected_iff (o : Outbox) (rounds : List Round) (h : Vigil o rounds) :
    (Detected o rounds ↔ HeldLongEnough o rounds) ∧
      (o.buf.length + (added (callsOf rounds)).length ≤ kMaxBuffered → (∀ e ∈ o.buf, 0 ≤ e.resends) →
        Detected o rounds) :=
  ⟨detected_iff_held o rounds h,
    fun hroom hresends => (detected_iff_held o rounds h).mpr (held_of_room o rounds h hroom hresends)⟩

/-! ## A shell that keeps printing -/

/-- A full outbox in which only the oldest frame was ever resent. -/
def Flooded (o : Outbox) : Prop :=
  o.buf.length = kMaxBuffered ∧ ∀ e ∈ o.buf.tail, e.resends = 0

/-- A round of a shell that prints one frame. -/
def Round.Prints (r : Round) : Prop := ∃ seq frame nowMs, r.between = [.add seq frame nowMs]

/-- A round in which the shell prints replaces the oldest frame of a full outbox, with its count. -/
theorem flooded_round {o : Outbox} (h : Flooded o) (seq : ℤ) (frame : Bytes) (nowMs dueMs : ℤ) :
    ((o.add seq frame nowMs).dueResend dueMs).2.1 = false ∧
      Flooded ((o.add seq frame nowMs).dueResend dueMs).2.2 := by
  obtain ⟨hlen, hrest⟩ := h
  have hbuf := add_full hlen.ge seq frame nowMs
  have hfresh : ∀ e ∈ (o.add seq frame nowMs).buf, e.resends = 0 := by
    intro e he
    rw [hbuf] at he
    rcases List.mem_append.mp he with he | he
    · exact hrest e he
    · rw [List.mem_singleton.mp he]
  obtain ⟨hkeys, htail⟩ := dueResend_frame (o.add seq frame nowMs) dueMs
  refine ⟨?_, ?_, ?_⟩
  · rcases dueResend_cases (o.add seq frame nowMs) dueMs with
      ⟨_, _, -, -, -, hres⟩ | ⟨front, rest, hcons, -, hmax, -⟩ | ⟨-, hres⟩
    · rw [hres]
    · have hzero := hfresh front (by rw [hcons]; exact List.mem_cons_self)
      rw [hzero] at hmax
      exact absurd hmax (by decide)
    · rw [hres]
  · have hsame := congrArg List.length hkeys
    rw [List.length_map, List.length_map, hbuf, List.length_append, List.length_tail, hlen] at hsame
    rw [hsame]
    rfl
  · rw [htail]
    intro e he
    exact hfresh e (List.mem_of_mem_tail he)

/-- No number of such rounds finds the peer dead. -/
theorem flooded_not_detected (o : Outbox) (h : Flooded o) (rounds : List Round)
    (hprints : ∀ r ∈ rounds, r.Prints) : ¬Detected o rounds := by
  rintro ⟨earlier, r, later, rfl, hdead⟩
  have hflooded : Flooded (runFrom OutboxWindow.apply o (callsOf earlier)) := by
    clear hdead
    induction earlier generalizing o with
    | nil => exact h
    | cons first earlier ih =>
      obtain ⟨seq, frame, nowMs, hbetween⟩ := hprints first List.mem_cons_self
      have hcalls : callsOf (first :: earlier) =
          [.add seq frame nowMs, .due first.nowMs] ++ callsOf earlier := by
        simp [callsOf, Round.calls, hbetween]
      rw [hcalls, runFrom_append]
      refine ih _ (flooded_round h seq frame nowMs first.nowMs).2 ?_
      intro r' hr'
      exact hprints r' (List.mem_cons_of_mem _ hr')
  obtain ⟨seq, frame, nowMs, hbetween⟩ :=
    hprints r (List.mem_append_right _ List.mem_cons_self)
  rw [hbetween, runFrom_append] at hdead
  have halive := (flooded_round hflooded seq frame nowMs r.nowMs).1
  exact absurd (halive.symm.trans hdead) (by decide)

/-- 8192 frames sent at time 0. -/
def fullOutbox : Outbox := ⟨(List.range kMaxBuffered).map fun (k : ℕ) => ⟨k, [], 0, 0⟩⟩

/-- No frame of the full outbox has been sent again. -/
theorem mem_fullOutbox : ∀ e ∈ fullOutbox.buf, e.lastSentMs = 0 ∧ e.resends = 0 := by
  intro e he
  simp only [fullOutbox, List.mem_map] at he
  obtain ⟨k, -, hk⟩ := he
  rw [← hk]
  exact ⟨rfl, rfl⟩

/-- One more frame before each call. -/
def printingRounds : List Round :=
  (List.range 241).map fun (k : ℕ) => ⟨[.add (8192 + k) [] (250 * (k + 1))], 250 * (k + 1)⟩

/-- The rounds of the example end 250 ms apart. -/
theorem paced_printing (first n : ℕ) :
    Paced kResendIntervalMs (250 * first)
      ((List.range' first n).map fun k : ℕ => (250 * (k + 1) : ℤ)) := by
  induction n generalizing first with
  | zero => exact trivial
  | succ n ih =>
    rw [List.range'_succ, List.map_cons]
    refine ⟨by simp only [kResendIntervalMs]; omega, ?_⟩
    have := ih (first + 1)
    push_cast at this
    exact this

/-- In each of them the shell prints a frame. -/
theorem prints_printing : ∀ r ∈ printingRounds, r.Prints := by
  intro r hr
  obtain ⟨k, -, rfl⟩ := List.mem_map.mp hr
  exact ⟨_, _, _, rfl⟩

/-- The outbox of the example is full. -/
theorem flooded_fullOutbox : Flooded fullOutbox := by
  refine ⟨by simp [fullOutbox], ?_⟩
  intro e he
  exact (mem_fullOutbox e (List.mem_of_mem_tail he)).2

/-- The rounds of the example are a vigil. -/
theorem vigil_printing : Vigil fullOutbox printingRounds := by
  refine ⟨?_, ?_, rfl, ?_, ?_⟩
  · intro hnil
    have hlen := flooded_fullOutbox.1
    rw [hnil] at hlen
    cases hlen
  · intro r hr a ha
    obtain ⟨seq, frame, nowMs, hbetween⟩ := prints_printing r hr
    rw [hbetween] at ha
    cases List.mem_singleton.mp ha
  · intro front hfront
    rw [(mem_fullOutbox front (List.mem_of_mem_head? hfront)).1, printingRounds, List.map_map,
      List.range_eq_range']
    exact paced_printing 0 241
  · have hcalls : callsOf printingRounds = (List.range 241).flatMap fun (k : ℕ) =>
        [.add (8192 + k) [] (250 * (k + 1)), .due (250 * (k + 1))] := by
      simp [callsOf, printingRounds, Round.calls, List.flatMap_map]
    unfold Ordered
    rw [hcalls, List.filterMap_flatMap]
    show ((List.range 241).flatMap fun (k : ℕ) => [(250 * (k + 1) : ℤ)]).Pairwise (· ≤ ·)
    rw [← List.map_eq_flatMap, List.pairwise_map]
    refine List.pairwise_lt_range.imp ?_
    intro a b hab
    omega

/-- A shell that prints hides a vanished peer. -/
theorem printing_not_detected :
    Vigil fullOutbox printingRounds ∧ ¬Detected fullOutbox printingRounds :=
  ⟨vigil_printing, flooded_not_detected fullOutbox flooded_fullOutbox printingRounds prints_printing⟩

/-- In the example neither is the case. -/
theorem detected_iff_printing :
    Detected fullOutbox printingRounds ↔ HeldLongEnough fullOutbox printingRounds :=
  (detected_iff fullOutbox printingRounds vigil_printing).1

end HaikuAgent.Analysis.DeadPeer
