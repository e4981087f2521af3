import HaikuAgent.Foundation.RecencyWindow
import HaikuAgent.Foundation.Runs
import HaikuAgent.Model.Outbox

/-!
# The outbox as a window

A run of `Outbox` calls against its own history: the frames added, the acknowledges that
cover them, and the resends made. `Window` ties the buffer to that history: it is a suffix
of the frames added, what it has lost was covered or pushed out by 8192 later frames, and
each entry's counter and time stamp tell its resends.
-/

set_option autoImplicit false

namespace HaikuAgent.Analysis.OutboxWindow

open HaikuAgent.Foundation
open HaikuAgent.Model.Sessions

/-! ## Runs of calls and their history -/

/-- One call of an `Outbox` method. -/
inductive Call where
  | add (seq : ℤ) (frame : Bytes) (nowMs : ℤ)
  | ack (seq : ℤ)
  | due (nowMs : ℤ)

def apply (o : Outbox) : Call → Outbox
  | .add seq frame nowMs => o.add seq frame nowMs
  | .ack seq => o.ack seq
  | .due nowMs => (o.dueResend nowMs).2.2

/-- The outbox after a list of calls. -/
def after (calls : List Call) : Outbox := runFrom apply .empty calls

/-- One more call is applied to the outbox left by those before it. -/
theorem after_concat (calls : List Call) (c : Call) :
    after (calls ++ [c]) = apply (after calls) c := by
  unfold after
  rw [runFrom_append]
  rfl

/-- What identifies a frame, and its bytes. -/
def key (e : Entry) : ℤ × Bytes := (e.seq, e.frame)

def addedBy : Call → Option (ℤ × Bytes)
  | .add seq frame _ => some (seq, frame)
  | _ => none

/-- The frames added, oldest first. -/
def added (calls : List Call) : List (ℤ × Bytes) := calls.filterMap addedBy

/-- An acknowledge made after the frame was added covers it. -/
def Covered (calls : List Call) (seq : ℤ) : Prop :=
  ∃ before later a, calls = before ++ later ∧ seq ∈ (added before).map Prod.fst ∧
    .ack a ∈ later ∧ seq ≤ a

/-- The frame that a call returns for resending, with the time. -/
def resentBy (o : Outbox) : Call → List (ℤ × ℤ)
  | .due nowMs =>
    match o.buf, (o.dueResend nowMs).1 with
    | front :: _, some _ => [(front.seq, nowMs)]
    | _, _ => []
  | _ => []

def resendsFrom : Outbox → List Call → List (ℤ × ℤ)
  | _, [] => []
  | o, c :: calls => resentBy o c ++ resendsFrom (apply o c) calls

/-- The resends of a run, in order: the sequence number of the frame, and the time. -/
def resends (calls : List Call) : List (ℤ × ℤ) := resendsFrom .empty calls

/-- One more call adds what it adds to the frames entered so far. -/
theorem added_concat (calls : List Call) (c : Call) :
    added (calls ++ [c]) = added calls ++ (addedBy c).toList := by
  unfold added
  rw [List.filterMap_append]
  cases h : addedBy c with
  | none => simp [h]
  | some k => simp [h]

/-- The resends of a run in two parts are those of the parts. -/
theorem resendsFrom_append (o : Outbox) (l m : List Call) :
    resendsFrom o (l ++ m) = resendsFrom o l ++ resendsFrom (runFrom apply o l) m := by
  induction l generalizing o with
  | nil => rfl
  | cons c l ih => simp [resendsFrom, ih]

/-- One more call adds its own resend to those made so far. -/
theorem resends_concat (calls : List Call) (c : Call) :
    resends (calls ++ [c]) = resends calls ++ resentBy (after calls) c := by
  unfold resends after
  rw [resendsFrom_append]
  simp [resendsFrom]

/-- A frame becomes covered only by an acknowledge. -/
theorem covered_concat (calls : List Call) (c : Call) (seq : ℤ) :
    Covered (calls ++ [c]) seq ↔
      Covered calls seq ∨ ∃ a, c = .ack a ∧ seq ≤ a ∧ seq ∈ (added calls).map Prod.fst := by
  constructor
  · rintro ⟨before, later, a, hsplit, hadded, hack, hle⟩
    rcases later.eq_nil_or_concat with rfl | ⟨later, last, rfl⟩
    · cases hack
    rw [List.concat_eq_append, ← List.append_assoc] at hsplit
    obtain ⟨rfl, hlast⟩ := List.append_inj' hsplit rfl
    obtain rfl : c = last := by simpa using hlast
    rw [List.concat_eq_append] at hack
    rcases List.mem_append.mp hack with hack | hack
    · exact Or.inl ⟨before, later, a, rfl, hadded, hack, hle⟩
    · refine Or.inr ⟨a, (List.mem_singleton.mp hack).symm, hle, ?_⟩
      unfold added at hadded ⊢
      rw [List.filterMap_append, List.map_append]
      exact List.mem_append_left _ hadded
  · rintro (⟨before, later, a, rfl, hadded, hack, hle⟩ | ⟨a, rfl, hle, hadded⟩)
    · exact ⟨before, later ++ [c], a, by simp, hadded, List.mem_append_left _ hack, hle⟩
    · exact ⟨calls, [.ack a], a, rfl, hadded, List.mem_singleton_self _, hle⟩

/-- A number covered by an acknowledgement was entered. -/
theorem Covered.added {calls : List Call} {seq : ℤ} (h : Covered calls seq) :
    seq ∈ (added calls).map Prod.fst := by
  obtain ⟨before, later, a, rfl, hadded, -, -⟩ := h
  unfold OutboxWindow.added at hadded ⊢
  rw [List.filterMap_append, List.map_append]
  exact List.mem_append_left _ hadded

/-! ## What `add` and `due_resend` do -/

/-- A full outbox drops its oldest frame for the new one. -/
theorem add_full {o : Outbox} (hfull : kMaxBuffered ≤ o.buf.length) (seq : ℤ) (frame : Bytes)
    (nowMs : ℤ) : (o.add seq frame nowMs).buf = o.buf.tail ++ [⟨seq, frame, nowMs, 0⟩] := by
  unfold Outbox.add
  rw [if_pos hfull]

/-- An outbox with room keeps all its frames and the new one. -/
theorem add_room {o : Outbox} (hroom : ¬kMaxBuffered ≤ o.buf.length) (seq : ℤ) (frame : Bytes)
    (nowMs : ℤ) : (o.add seq frame nowMs).buf = o.buf ++ [⟨seq, frame, nowMs, 0⟩] := by
  unfold Outbox.add
  rw [if_neg hroom]

/-- `due_resend` returns the oldest frame and stamps it, or leaves the outbox alone. -/
theorem dueResend_cases (o : Outbox) (nowMs : ℤ) :
    (∃ front rest, o.buf = front :: rest ∧ kResendIntervalMs ≤ nowMs - front.lastSentMs ∧
      front.resends < kMaxResends ∧
      o.dueResend nowMs = (some front.frame, false,
        ⟨{ front with lastSentMs := nowMs, resends := front.resends + 1 } :: rest⟩)) ∨
    (∃ front rest, o.buf = front :: rest ∧ kResendIntervalMs ≤ nowMs - front.lastSentMs ∧
      kMaxResends ≤ front.resends ∧ o.dueResend nowMs = (none, true, o)) ∨
    ((∀ front rest, o.buf = front :: rest → nowMs - front.lastSentMs < kResendIntervalMs) ∧
      o.dueResend nowMs = (none, false, o)) := by
  unfold Outbox.dueResend
  cases hbuf : o.buf with
  | nil =>
    refine Or.inr (Or.inr ⟨?_, rfl⟩)
    intro front rest h
    cases h
  | cons front rest =>
    simp only
    by_cases hdue : nowMs - front.lastSentMs < kResendIntervalMs
    · rw [if_pos hdue]
      refine Or.inr (Or.inr ⟨?_, rfl⟩)
      intro front' rest' h
      cases h
      exact hdue
    rw [if_neg hdue]
    by_cases hdead : kMaxResends ≤ front.resends
    · rw [if_pos hdead]
      exact Or.inr (Or.inl ⟨front, rest, rfl, not_lt.mp hdue, hdead, rfl⟩)
    · rw [if_neg hdead]
      exact Or.inl ⟨front, rest, rfl, not_lt.mp hdue, not_le.mp hdead, rfl⟩

/-- `due_resend` changes no frame, and no entry but the oldest. -/
theorem dueResend_frame (o : Outbox) (nowMs : ℤ) :
    (o.dueResend nowMs).2.2.buf.map key = o.buf.map key ∧
      (o.dueResend nowMs).2.2.buf.tail = o.buf.tail := by
  rcases dueResend_cases o nowMs with ⟨front, rest, hbuf, -, -, h⟩ | ⟨-, -, -, -, -, h⟩ | ⟨-, h⟩
  · rw [h, hbuf]
    exact ⟨rfl, rfl⟩
  · rw [h]
    exact ⟨rfl, rfl⟩
  · rw [h]
    exact ⟨rfl, rfl⟩

/-! ## The buffer is a window -/

/-- The buffer and the stamps of its entries, told by the history. -/
structure Window (calls : List Call) (o : Outbox) : Prop where
  suffix : o.buf.map key <:+ added calls
  bounded : o.buf.length ≤ kMaxBuffered
  lost : ∀ k ∈ added calls, k ∉ o.buf.map key →
    Covered calls k.1 ∨ k ∉ lastN kMaxBuffered (added calls)
  unacked : ∀ e ∈ o.buf, ¬Covered calls e.seq
  counted : ∀ e ∈ o.buf, e.resends = ((resends calls).map Prod.fst).count e.seq
  capped : ∀ e ∈ o.buf, e.resends ≤ kMaxResends
  stamped : ∀ e ∈ o.buf, ∀ t, (e.seq, t) ∈ resends calls → t ≤ e.lastSentMs
  known : ∀ r ∈ resends calls, r.1 ∈ (added calls).map Prod.fst

/-- Sequence numbers are added in increasing order. -/
def Increasing (calls : List Call) : Prop := ((added calls).map Prod.fst).Pairwise (· < ·)

/-- The numbers of a shorter run increase when those of the longer one do. -/
theorem Increasing.of_concat {calls : List Call} {c : Call} (h : Increasing (calls ++ [c])) :
    Increasing calls := by
  unfold Increasing at h ⊢
  rw [added_concat, List.map_append] at h
  exact (List.pairwise_append.mp h).1

/-- The sequence number of an added frame is new. -/
theorem Increasing.lt_of_add {calls : List Call} {seq nowMs : ℤ} {frame : Bytes}
    (h : Increasing (calls ++ [.add seq frame nowMs])) :
    ∀ s ∈ (OutboxWindow.added calls).map Prod.fst, s < seq := by
  unfold Increasing at h
  rw [added_concat, List.map_append] at h
  intro s hs
  exact (List.pairwise_append.mp h).2.2 s hs seq (List.mem_singleton_self _)

/-- The numbers held increase when those entered do. -/
theorem Window.sorted {calls : List Call} {o : Outbox} (h : Window calls o) (hinc : Increasing calls) :
    (o.buf.map Entry.seq).Pairwise (· < ·) := by
  have hsuffix : o.buf.map Entry.seq <:+ (added calls).map Prod.fst := by
    have := h.suffix.map Prod.fst
    rwa [List.map_map] at this
  exact hinc.sublist hsuffix.sublist

/-- A cumulative acknowledge of a buffer in order leaves what it does not cover. -/
theorem dropWhile_gt (a : ℤ) (buf : List Entry) (hsorted : buf.Pairwise fun x y => x.seq < y.seq) :
    ∀ e ∈ buf.dropWhile (fun e => e.seq ≤ a), a < e.seq := by
  induction buf with
  | nil =>
    intro e he
    cases he
  | cons front rest ih =>
    obtain ⟨hfront, hrest⟩ := List.pairwise_cons.mp hsorted
    by_cases hle : front.seq ≤ a
    · rw [List.dropWhile_cons_of_pos (by simpa using hle)]
      exact ih hrest
    · rw [List.dropWhile_cons_of_neg (by simpa using hle)]
      intro e he
      rcases List.mem_cons.mp he with rfl | he
      · exact not_le.mp hle
      · exact (not_le.mp hle).trans (hfront e he)

/-- A frame with a number above the acknowledged one survives the acknowledgement. -/
theorem mem_dropWhile_of_gt (a : ℤ) (buf : List Entry) {e : Entry} (he : e ∈ buf) (hgt : a < e.seq) :
    e ∈ buf.dropWhile (fun e => e.seq ≤ a) := by
  induction buf with
  | nil => cases he
  | cons front rest ih =>
    by_cases hle : front.seq ≤ a
    · rw [List.dropWhile_cons_of_pos (by simpa using hle)]
      rcases List.mem_cons.mp he with rfl | he
      · exact absurd hgt (not_lt.mpr hle)
      · exact ih he
    · rw [List.dropWhile_cons_of_neg (by simpa using hle)]
      exact he

/-- The window holds of the empty outbox. -/
theorem window_empty : Window [] .empty := by
  refine ⟨List.suffix_rfl, Nat.zero_le _, ?_, ?_, ?_, ?_, ?_, ?_⟩
  · intro k hk
    cases hk
  · intro e he
    cases he
  · intro e he
    cases he
  · intro e he
    cases he
  · intro e he
    cases he
  · intro r hr
    cases hr

/-- A call that is no acknowledge covers nothing. -/
theorem covered_concat_of_ne_ack (calls : List Call) (c : Call) (hc : ∀ a, c ≠ .ack a) (seq : ℤ) :
    Covered (calls ++ [c]) seq ↔ Covered calls seq := by
  rw [covered_concat]
  refine or_iff_left ?_
  rintro ⟨a, rfl, -⟩
  exact hc a rfl

/-- What stays of the buffer when a frame is added: all of it, or all but the oldest frame. -/
theorem add_keeps {calls : List Call} {o : Outbox} (h : Window calls o) (seq : ℤ) (frame : Bytes) (nowMs : ℤ) :
    ∃ kept, kept <:+ o.buf ∧ (o.add seq frame nowMs).buf = kept ++ [⟨seq, frame, nowMs, 0⟩] ∧
      kept.length + 1 ≤ kMaxBuffered := by
  by_cases hfull : kMaxBuffered ≤ o.buf.length
  · refine ⟨o.buf.tail, List.tail_suffix _, add_full hfull seq frame nowMs, ?_⟩
    have hbounded := h.bounded
    rw [List.length_tail]
    simp only [kMaxBuffered] at hfull hbounded ⊢
    omega
  · exact ⟨o.buf, List.suffix_rfl, add_room hfull seq frame nowMs, by omega⟩

/-- A frame that an `add` pushes out has left the window. -/
theorem pushed_out {calls : List Call} {o : Outbox} (h : Window calls o) (seq : ℤ) (frame : Bytes) (nowMs : ℤ)
    (hnodup : (added calls ++ [(seq, frame)]).Nodup) (k : ℤ × Bytes) (hmem : k ∈ o.buf.map key)
    (hlost : k ∉ (o.add seq frame nowMs).buf.map key) :
    k ∉ lastN kMaxBuffered (added calls ++ [(seq, frame)]) := by
  cases hcons : o.buf with
  | nil =>
    rw [hcons] at hmem
    cases hmem
  | cons front rest =>
    have hfull : kMaxBuffered ≤ o.buf.length := by
      by_contra hroom
      rw [add_room hroom, List.map_append] at hlost
      exact hlost (List.mem_append_left _ hmem)
    have hoff : k = key front := by
      rw [add_full hfull, hcons, List.tail_cons, List.map_append] at hlost
      rw [hcons, List.map_cons, List.mem_cons] at hmem
      exact hmem.resolve_right fun hrest => hlost (List.mem_append_left _ hrest)
    have hsuffix := h.suffix
    rw [hcons, List.map_cons] at hsuffix
    rw [hoff]
    refine head_notMem_lastN hsuffix ?_ hnodup
    have hbounded := h.bounded
    rw [hcons] at hbounded hfull
    rw [List.length_cons, List.length_map, ← List.length_cons (a := front)]
    exact hbounded.antisymm hfull

/-- Entering a frame keeps the window. -/
theorem window_add {calls : List Call} {o : Outbox} (h : Window calls o) (seq : ℤ) (frame : Bytes)
    (nowMs : ℤ) (hinc : Increasing (calls ++ [.add seq frame nowMs])) :
    Window (calls ++ [.add seq frame nowMs]) (o.add seq frame nowMs) := by
  have hlt := hinc.lt_of_add
  have hadded : added (calls ++ [.add seq frame nowMs]) = added calls ++ [(seq, frame)] :=
    added_concat _ _
  have hresends : resends (calls ++ [.add seq frame nowMs]) = resends calls := by
    rw [resends_concat]
    exact List.append_nil _
  have hcovered := covered_concat_of_ne_ack calls (.add seq frame nowMs)
    (fun a ha => by cases ha)
  obtain ⟨kept, hkept, hbuf, hlen⟩ := add_keeps h seq frame nowMs
  have hold (e : Entry) (he : e ∈ kept) : e ∈ o.buf := hkept.subset he
  -- the new frame has no history
  have hfresh : seq ∉ (added calls).map Prod.fst := fun hmem => (hlt seq hmem).ne rfl
  have hnew : ∀ t, (seq, t) ∉ resends calls := fun t ht => hfresh (h.known _ ht)
  refine ⟨?_, ?_, ?_, ?_, ?_, ?_, ?_, ?_⟩
  · rw [hbuf, hadded, List.map_append]
    exact List.suffix_append_self_iff.mpr ((hkept.map key).trans h.suffix)
  · rw [hbuf, List.length_append]
    exact hlen
  · intro k hk hlost
    rw [hadded] at hk ⊢
    have hne : k ≠ (seq, frame) := by
      rintro rfl
      rw [hbuf, List.map_append] at hlost
      exact hlost (List.mem_append_right _ (List.mem_singleton_self _))
    have hk : k ∈ added calls := (List.mem_append.mp hk).resolve_right (fun hmem => hne (List.mem_singleton.mp hmem))
    rw [hcovered]
    by_cases hmem : k ∈ o.buf.map key
    · -- pushed out by this very call
      have hnodup : (added calls ++ [(seq, frame)]).Nodup := by
        rw [← hadded]
        exact List.Nodup.of_map Prod.fst (hinc.imp fun hlt => hlt.ne)
      exact .inr (pushed_out h seq frame nowMs hnodup k hmem hlost)
    · refine (h.lost k hk hmem).imp_right ?_
      intro hout hin
      exact hout ((mem_lastN_concat hin).resolve_left hne)
  · intro e he
    rw [hcovered]
    rw [hbuf] at he
    rcases List.mem_append.mp he with he | he
    · exact h.unacked e (hold e he)
    · rw [List.mem_singleton.mp he]
      exact fun hcov => hfresh hcov.added
  · intro e he
    rw [hresends]
    rw [hbuf] at he
    rcases List.mem_append.mp he with he | he
    · exact h.counted e (hold e he)
    · rw [List.mem_singleton.mp he]
      have hnone : seq ∉ (resends calls).map Prod.fst := by
        intro hmem
        obtain ⟨⟨s, t⟩, hr, rfl⟩ := List.mem_map.mp hmem
        exact hnew t hr
      rw [List.count_eq_zero_of_not_mem hnone]
      rfl
  · intro e he
    rw [hbuf] at he
    rcases List.mem_append.mp he with he | he
    · exact h.capped e (hold e he)
    · rw [List.mem_singleton.mp he]
      show (0 : ℤ) ≤ 240
      omega
  · intro e he t ht
    rw [hresends] at ht
    rw [hbuf] at he
    rcases List.mem_append.mp he with he | he
    · exact h.stamped e (hold e he) t ht
    · rw [List.mem_singleton.mp he] at ht
      exact absurd ht (hnew t)
  · intro r hr
    rw [hresends] at hr
    rw [hadded, List.map_append]
    exact List.mem_append_left _ (h.known r hr)

/-- An acknowledgement keeps the window. -/
theorem window_ack {calls : List Call} {o : Outbox} (h : Window calls o) (hinc : Increasing calls)
    (a : ℤ) : Window (calls ++ [.ack a]) (o.ack a) := by
  have hadded : added (calls ++ [.ack a]) = added calls := by
    rw [added_concat]
    exact List.append_nil _
  have hresends : resends (calls ++ [.ack a]) = resends calls := by
    rw [resends_concat]
    exact List.append_nil _
  have hsuffix : (o.ack a).buf <:+ o.buf := List.dropWhile_suffix _
  have hold (e : Entry) (he : e ∈ (o.ack a).buf) : e ∈ o.buf := hsuffix.subset he
  -- the buffer is in order, so what is dropped is all that the acknowledge covers
  have hdropped : ∀ e ∈ (o.ack a).buf, a < e.seq := by
    have hsorted : o.buf.Pairwise (fun x y => x.seq < y.seq) := List.pairwise_map.mp (h.sorted hinc)
    unfold Outbox.ack
    exact dropWhile_gt a o.buf hsorted
  refine ⟨?_, hsuffix.length_le.trans h.bounded, ?_, ?_, ?_, fun e he => h.capped e (hold e he), ?_, ?_⟩
  · rw [hadded]
    exact (hsuffix.map key).trans h.suffix
  · intro k hk hlost
    rw [hadded] at hk ⊢
    rw [covered_concat]
    by_cases hmem : k ∈ o.buf.map key
    · obtain ⟨e, he, rfl⟩ := List.mem_map.mp hmem
      refine Or.inl (Or.inr ⟨a, rfl, ?_, List.mem_map_of_mem hk⟩)
      by_contra hgt
      apply hlost
      exact List.mem_map_of_mem (mem_dropWhile_of_gt a o.buf he (not_le.mp hgt))
    · rcases h.lost k hk hmem with hcov | hout
      · exact Or.inl (Or.inl hcov)
      · exact Or.inr hout
  · intro e he
    rw [covered_concat]
    rintro (hcov | ⟨b, hb, hle, -⟩)
    · exact h.unacked e (hold e he) hcov
    · cases hb
      exact absurd (hdropped e he) (not_lt.mpr hle)
  · intro e he
    rw [hresends]
    exact h.counted e (hold e he)
  · intro e he t ht
    rw [hresends] at ht
    exact h.stamped e (hold e he) t ht
  · intro r hr
    rw [hresends] at hr
    rw [hadded]
    exact h.known r hr

/-- What `due_resend` does to the history. -/
theorem resentBy_due (o : Outbox) (nowMs : ℤ) :
    (∃ front rest, o.buf = front :: rest ∧ kResendIntervalMs ≤ nowMs - front.lastSentMs ∧
      front.resends < kMaxResends ∧ resentBy o (.due nowMs) = [(front.seq, nowMs)] ∧
      apply o (.due nowMs) = ⟨{ front with lastSentMs := nowMs, resends := front.resends + 1 } :: rest⟩) ∨
    (resentBy o (.due nowMs) = [] ∧ apply o (.due nowMs) = o) := by
  unfold resentBy apply
  rcases dueResend_cases o nowMs with
    ⟨front, rest, hbuf, hdue, hlive, h⟩ | ⟨front, rest, hbuf, -, -, h⟩ | ⟨-, h⟩
  · left
    refine ⟨front, rest, hbuf, hdue, hlive, ?_, ?_⟩
    · simp only [hbuf, h]
    · simp only [h]
  · right
    simp [h]
  · right
    simp [h]

section Due

variable {calls calls' : List Call} {o : Outbox} (h : Window calls o) (hadded : added calls' = added calls)
  (hcovered : ∀ seq, Covered calls' seq ↔ Covered calls seq)

include h hadded hcovered

/-- A call that changes nothing that the window tells. -/
theorem Window.of_same (hresends : resends calls' = resends calls) : Window calls' o where
  suffix := by
    rw [hadded]
    exact h.suffix
  bounded := h.bounded
  lost k hk hnot := by
    rw [hadded] at hk ⊢
    rw [hcovered]
    exact h.lost k hk hnot
  unacked e he := by
    rw [hcovered]
    exact h.unacked e he
  counted := by
    rw [hresends]
    exact h.counted
  capped := h.capped
  stamped := by
    rw [hresends]
    exact h.stamped
  known := by
    rw [hresends, hadded]
    exact h.known

/-- The oldest frame is sent again and stamped; no other frame has its number. -/
theorem Window.resend (hinc : Increasing calls) {front : Entry} {rest : List Entry} (hbuf : o.buf = front :: rest)
    {nowMs : ℤ} (hdue : kResendIntervalMs ≤ nowMs - front.lastSentMs) (hlive : front.resends < kMaxResends)
    (hresends : resends calls' = resends calls ++ [(front.seq, nowMs)]) :
    Window calls' ⟨{ front with lastSentMs := nowMs, resends := front.resends + 1 } :: rest⟩ := by
  have hkeys : (({ front with lastSentMs := nowMs, resends := front.resends + 1 } : Entry) :: rest).map key =
      o.buf.map key := by
    rw [hbuf]
    rfl
  have hfront : front ∈ o.buf := by
    rw [hbuf]
    exact List.mem_cons_self
  have hrest (e : Entry) (he : e ∈ rest) : e ∈ o.buf := by
    rw [hbuf]
    exact List.mem_cons_of_mem _ he
  have hother : ∀ e ∈ rest, e.seq ≠ front.seq := by
    intro e he heq
    have hsorted := h.sorted hinc
    rw [hbuf, List.map_cons, List.pairwise_cons] at hsorted
    exact (hsorted.1 e.seq (List.mem_map_of_mem he)).ne heq.symm
  refine ⟨?_, ?_, ?_, ?_, ?_, ?_, ?_, ?_⟩
  · rw [hkeys, hadded]
    exact h.suffix
  · have hbounded := h.bounded
    rw [hbuf] at hbounded
    exact hbounded
  · intro k hk hlost
    rw [hkeys] at hlost
    rw [hadded] at hk ⊢
    rw [hcovered]
    exact h.lost k hk hlost
  · intro e he
    rw [hcovered]
    rcases List.mem_cons.mp he with rfl | he
    · exact h.unacked front hfront
    · exact h.unacked e (hrest e he)
  · intro e he
    rw [hresends, List.map_append, List.count_append, List.map_singleton]
    rcases List.mem_cons.mp he with rfl | he
    · show front.resends + 1 = _
      rw [List.count_singleton_self, h.counted front hfront]
      rfl
    · have hnone : e.seq ∉ [front.seq] := fun hmem => hother e he (List.mem_singleton.mp hmem)
      rw [List.count_eq_zero_of_not_mem hnone, h.counted e (hrest e he)]
      rfl
  · intro e he
    rcases List.mem_cons.mp he with rfl | he
    · exact hlive
    · exact h.capped e (hrest e he)
  · intro e he t ht
    rw [hresends] at ht
    rcases List.mem_append.mp ht with ht | ht
    · rcases List.mem_cons.mp he with rfl | he
      · have hle := h.stamped front hfront t ht
        simp only [kResendIntervalMs] at hdue ⊢
        omega
      · exact h.stamped e (hrest e he) t ht
    · obtain ⟨heq, rfl⟩ := Prod.mk.inj (List.mem_singleton.mp ht)
      rcases List.mem_cons.mp he with rfl | he
      · exact le_rfl
      · exact absurd heq (hother e he)
  · intro r hr
    rw [hadded]
    rw [hresends] at hr
    rcases List.mem_append.mp hr with hr | hr
    · exact h.known r hr
    · rw [List.mem_singleton.mp hr]
      have hmem := h.suffix.subset (List.mem_map_of_mem hfront)
      exact List.mem_map_of_mem (f := Prod.fst) hmem

end Due

/-- A resend, due or not, keeps the window. -/
theorem window_due {calls : List Call} {o : Outbox} (h : Window calls o) (hinc : Increasing calls)
    (ho : o = after calls) (nowMs : ℤ) : Window (calls ++ [.due nowMs]) (apply o (.due nowMs)) := by
  have hadded : added (calls ++ [.due nowMs]) = added calls := by
    rw [added_concat]
    exact List.append_nil _
  have hcovered := covered_concat_of_ne_ack calls (.due nowMs) (fun a ha => by cases ha)
  have hresends := resends_concat calls (.due nowMs)
  rw [← ho] at hresends
  obtain ⟨front, rest, hbuf, hdue, hlive, hsent, hstep⟩ | ⟨hsent, hstep⟩ := resentBy_due o nowMs
  · rw [hsent] at hresends
    rw [hstep]
    exact h.resend hadded hcovered hinc hbuf hdue hlive hresends
  · rw [hsent, List.append_nil] at hresends
    rw [hstep]
    exact h.of_same hadded hcovered hresends

/-- Every run of calls with increasing sequence numbers keeps the window. -/
theorem window_after (calls : List Call) (hinc : Increasing calls) : Window calls (after calls) := by
  induction calls using List.reverseRecOn with
  | nil => exact window_empty
  | append_singleton calls c ih =>
    have h := ih hinc.of_concat
    rw [after_concat]
    cases c with
    | add seq frame nowMs => exact window_add h seq frame nowMs hinc
    | ack a => exact window_ack h hinc.of_concat a
    | due nowMs => exact window_due h hinc.of_concat rfl nowMs

/-! ## The representation invariant -/

/-- `e` is the oldest frame of the buffer. -/
def Oldest (o : Outbox) (e : Entry) : Prop := e ∈ o.buf ∧ ∀ e' ∈ o.buf, e.seq ≤ e'.seq

/-- What `due_resend` may do at `nowMs` after the calls. -/
structure ResendsSafely (calls : List Call) (nowMs : ℤ) : Prop where
  /-- it returns the oldest frame, unacknowledged and not resent for the interval -/
  returned : ∀ frame, ((after calls).dueResend nowMs).1 = some frame →
    ∃ e, Oldest (after calls) e ∧ e.frame = frame ∧ ¬Covered calls e.seq ∧
      ∀ t, (e.seq, t) ∈ resends calls → t + kResendIntervalMs ≤ nowMs
  /-- no other entry changes, and no frame -/
  others : ((after calls).dueResend nowMs).2.2.buf.map key = (after calls).buf.map key ∧
    ((after calls).dueResend nowMs).2.2.buf.tail = (after calls).buf.tail
  /-- the peer is dead only when the oldest frame had all its resends, unacknowledged -/
  dead : ((after calls).dueResend nowMs).2.1 = true →
    ∃ e, Oldest (after calls) e ∧ ¬Covered calls e.seq ∧
      ((resends calls).map Prod.fst).count e.seq = kMaxResends

/-- The buffer holds exactly the frames of the window that no acknowledge covers. -/
theorem Window.mem_iff {calls : List Call} {o : Outbox} (h : Window calls o) (k : ℤ × Bytes) :
    k ∈ o.buf.map key ↔ k ∈ lastN kMaxBuffered (added calls) ∧ ¬Covered calls k.1 := by
  constructor
  · intro hk
    refine ⟨(suffix_lastN h.suffix (by rw [List.length_map]; exact h.bounded)).subset hk, ?_⟩
    obtain ⟨e, he, rfl⟩ := List.mem_map.mp hk
    exact h.unacked e he
  · rintro ⟨hwindow, huncovered⟩
    by_contra hlost
    obtain hcov | hout := h.lost k ((lastN_suffix _ _).subset hwindow) hlost
    · exact huncovered hcov
    · exact hout hwindow

/-- The front of a sorted outbox is its oldest frame. -/
theorem oldest_front {o : Outbox} {front : Entry} {rest : List Entry}
    (hsorted : (o.buf.map Entry.seq).Pairwise (· < ·)) (hbuf : o.buf = front :: rest) : Oldest o front := by
  rw [hbuf, List.map_cons, List.pairwise_cons] at hsorted
  refine ⟨by rw [hbuf]; exact List.mem_cons_self, ?_⟩
  rw [hbuf]
  intro e he
  obtain rfl | he := List.mem_cons.mp he
  · exact le_rfl
  · exact (hsorted.1 e.seq (List.mem_map_of_mem he)).le

/-- Every resend is of the oldest frame held and of none that was acknowledged. -/
theorem resendsSafely (calls : List Call) (hinc : Increasing calls) (nowMs : ℤ) : ResendsSafely calls nowMs := by
  have h := window_after calls hinc
  have hsorted := h.sorted hinc
  refine ⟨?_, dueResend_frame _ _, ?_⟩
  · intro frame hframe
    obtain ⟨front, rest, hbuf, hdue, -, hres⟩ | ⟨front, rest, hbuf, -, -, hres⟩ | ⟨-, hres⟩ :=
      dueResend_cases (after calls) nowMs
    · rw [hres] at hframe
      cases hframe
      have hfront := (oldest_front hsorted hbuf).1
      refine ⟨front, oldest_front hsorted hbuf, rfl, h.unacked front hfront, ?_⟩
      intro t ht
      have hle := h.stamped front hfront t ht
      omega
    · rw [hres] at hframe
      cases hframe
    · rw [hres] at hframe
      cases hframe
  · intro hdead
    obtain ⟨front, rest, hbuf, -, -, hres⟩ | ⟨front, rest, hbuf, -, hmax, hres⟩ | ⟨-, hres⟩ :=
      dueResend_cases (after calls) nowMs
    · rw [hres] at hdead
      cases hdead
    · have hfront := (oldest_front hsorted hbuf).1
      refine ⟨front, oldest_front hsorted hbuf, h.unacked front hfront, ?_⟩
      rw [← h.counted front hfront]
      exact (h.capped front hfront).antisymm hmax
    · rw [hres] at hdead
      cases hdead

/-- **The representation invariant of the outbox.** After any calls that add increasing
sequence numbers, the buffer is in order, holds exactly the frames among the last
`kMaxBuffered` added that no later acknowledge covers, and `due_resend` is safe.
SRC: session.h:16-63, session.cpp:472-493 -/
theorem outbox_window (calls : List Call) (hinc : Increasing calls) :
    ((after calls).buf.map Entry.seq).Pairwise (· < ·) ∧
    (∀ k, k ∈ (after calls).buf.map key ↔
      k ∈ lastN kMaxBuffered (added calls) ∧ ¬Covered calls k.1) ∧
    ∀ nowMs, ResendsSafely calls nowMs := by
  have h := window_after calls hinc
  refine ⟨h.sorted hinc, ?_, ?_⟩
  · intro k
    exact h.mem_iff k
  · intro nowMs
    exact resendsSafely calls hinc nowMs

/-- The invariant after two frames, a resend and an acknowledge of the first. -/
theorem outbox_window_acked :
    let calls : List Call := [.add 0 (lit "a") 0, .add 1 (lit "b") 0, .due 250, .ack 0]
    ((after calls).buf.map Entry.seq).Pairwise (· < ·) ∧
    (∀ k, k ∈ (after calls).buf.map key ↔
      k ∈ lastN kMaxBuffered (added calls) ∧ ¬Covered calls k.1) ∧
    ∀ nowMs, ResendsSafely calls nowMs := by
  intro calls
  apply outbox_window
  show List.Pairwise (· < ·) [0, 1]
  simp

end HaikuAgent.Analysis.OutboxWindow
