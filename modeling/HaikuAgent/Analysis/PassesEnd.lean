import HaikuAgent.Analysis.JsonRoundTrip
import HaikuAgent.Analysis.OrderedInput

/-!
# When a pass of the session loop ends

A pass is given an endless stream of results for the reads of the pty and one for the writes; it
ends if finitely many of them are enough. The loop that drains the pty goes on as long as there is
output, a failed send or not, and the loop that writes keystrokes as long as the pty takes none
without refusing them.
-/

set_option autoImplicit false

namespace HaikuAgent.Analysis.PassesEnd

open HaikuAgent.Foundation
open HaikuAgent.Model
open HaikuAgent.Model.Mgs
open HaikuAgent.Model.Sessions
open HaikuAgent.Analysis.AckedInput
open HaikuAgent.Analysis.SessionPasses
open HaikuAgent.Analysis.OrderedInput

/-! ## Results of the pty -/

def isData : PtyRead → Bool
  | .data _ _ => true
  | _ => false

/-- The write fails. -/
def refuses : PtyWrite → Bool
  | .count 0 => true
  | .failed => true
  | _ => false

/-- How many bytes the write takes. -/
def takes : PtyWrite → ℕ
  | .count n => n
  | _ => 0

/-- The results of `write` bring the loop to its end. -/
def Finishes (writes : List PtyWrite) (keys : Bytes) : Prop :=
  (∃ w ∈ writes, refuses w = true) ∨ keys.length ≤ (writes.map takes).sum

/-- The pass comes to the loop that drains the pty. -/
def Reaches (s : Session) (p : Pass) : Prop :=
  p.stop = false ∧ (s.pumpOutbox p.pumpMs).1 = true ∧
    ¬kIdleTimeoutSeconds < p.now - (s.pumpOutbox p.pumpMs).2.lastClientActivity

/-! ## The two loops -/

section Loops

variable (env : Env)

/-- The drain of a pass is still reading exactly when every read so far gave data. -/
theorem drain_none_iff (reads : List PtyRead) (s : Session) (running : Bool) :
    (s.drain env running reads).1 = none ↔ ∀ r ∈ reads, isData r = true := by
  induction reads generalizing s running with
  | nil => exact iff_of_true rfl (List.forall_mem_nil _)
  | cons r reads ih =>
    rw [List.forall_mem_cons]
    cases r with
    | data first rest => exact (ih _ _).trans ⟨fun h => ⟨rfl, h⟩, fun h => h.2⟩
    | eof => exact iff_of_false (Option.some_ne_none _) fun h => Bool.false_ne_true h.1
    | again => exact iff_of_false (Option.some_ne_none _) fun h => Bool.false_ne_true h.1
    | failed => exact iff_of_false (Option.some_ne_none _) fun h => Bool.false_ne_true h.1

/-- Each chunk is one message. -/
theorem drain_sends (reads : List PtyRead) (s : Session) (running : Bool) :
    (s.drain env running reads).2.sends = s.sends + (reads.takeWhile isData).length := by
  induction reads generalizing s running with
  | nil => rfl
  | cons r reads ih =>
    cases r with
    | data first rest =>
      show ((s.sendStream env kPayloadOutput (first :: rest)).2.drain env _ reads).2.sends = _
      rw [ih]
      show s.sends + 1 + _ = s.sends + (_ + 1)
      omega
    | eof => rfl
    | again => rfl
    | failed => rfl

/-- Writing the keys has not ended exactly when the writes so far do not finish them. -/
theorem writeKeys_none_iff (writes : List PtyWrite) (s : Session) (keys : Bytes) :
    (s.writeKeys keys writes).1 = none ↔ ¬Finishes writes keys := by
  unfold Finishes
  induction writes generalizing s keys with
  | nil =>
    cases keys with
    | nil => exact iff_of_false (Option.some_ne_none _) (not_not.mpr (Or.inr (Nat.le_refl 0)))
    | cons b keys =>
      refine iff_of_true rfl ?_
      rintro (⟨w, hw, -⟩ | hle)
      · cases hw
      · cases hle
  | cons w writes ih =>
    cases keys with
    | nil => exact iff_of_false (Option.some_ne_none _) (not_not.mpr (Or.inr (Nat.zero_le _)))
    | cons b keys =>
      rw [List.exists_mem_cons_iff, List.map_cons, List.sum_cons]
      cases w with
      | count n =>
        cases n with
        | zero => exact iff_of_false (Option.some_ne_none _) (not_not.mpr (Or.inl (Or.inl rfl)))
        | succ n =>
          refine (ih (s.record _) _).trans (not_congr ?_)
          have hcount : ((b :: keys).drop (n + 1)).length ≤ (writes.map takes).sum ↔
              (b :: keys).length ≤ takes (.count (n + 1)) + (writes.map takes).sum := by
            rw [List.length_drop]
            show _ ↔ _ ≤ n + 1 + _
            omega
          rw [hcount]
          exact or_congr_left ⟨Or.inr, fun h => h.resolve_left Bool.false_ne_true⟩
      | again =>
        refine (ih s _).trans (not_congr ?_)
        show _ ∨ _ ↔ _ ∨ (b :: keys).length ≤ 0 + _
        rw [Nat.zero_add]
        exact or_congr_left ⟨Or.inr, fun h => h.resolve_left Bool.false_ne_true⟩
      | failed => exact iff_of_false (Option.some_ne_none _) (not_not.mpr (Or.inl (Or.inl rfl)))

end Loops

/-! ## One pass -/

section Pass

variable (env : Env) (sr : StartRequest) (s : Session) (p : Pass)

/-- An acknowledgement leaves the phase alone. -/
theorem handleAck_phase (m : AgentMessage) : (s.handleAck env m).phase = s.phase := (handleAck_silent env s m).2

/-- Applying an input hangs exactly when its keystrokes are not finished. -/
theorem applyInput_stuck_iff (m : AgentMessage) (hstart : s.phase = .main) :
    (s.applyInput env sr p m).phase = .stuck ↔
      m.payloadType = kPayloadOutput ∧ ¬Finishes p.writes m.payload := by
  have hphase : ∀ t : Session, t.phase = .main → ¬t.phase = .stuck := fun t ht h => by rw [ht] at h; cases h
  have hkeys := (writeKeys_silent p.writes s m.payload).2
  have hnone := writeKeys_none_iff p.writes s m.payload
  unfold Session.applyInput
  by_cases hsize : m.payloadType = kPayloadSize
  · have hnot : m.payloadType ≠ kPayloadOutput := by
      rw [hsize]
      decide
    rw [if_pos hsize]
    refine iff_of_false ?_ fun h => hnot h.1
    split
    split_ifs
    · exact hphase _ hstart
    · exact hphase _ hstart
  rw [if_neg hsize]
  by_cases hout : m.payloadType = kPayloadOutput
  · rw [if_pos hout, ← hnone]
    generalize s.writeKeys m.payload p.writes = result at hkeys ⊢
    obtain ⟨running, t⟩ := result
    cases running with
    | none => exact iff_of_true rfl ⟨hout, rfl⟩
    | some running =>
      refine iff_of_false ?_ fun h => Option.some_ne_none _ h.2
      cases running with
      | true => exact hphase t (hkeys.trans hstart)
      | false => exact fun h => nomatch h
  · rw [if_neg hout]
    exact iff_of_false (hphase s hstart) fun h => hout h.1

/-- Handling a message hangs exactly when it is the next input and its keystrokes are not finished. -/
theorem handleMain_stuck_iff (m : AgentMessage) (hstart : s.phase = .main) :
    (s.handleMain env sr p m).phase = .stuck ↔
      IsInput m ∧ m.sequence.toInt = s.nextExpected ∧ m.payloadType = kPayloadOutput ∧
        ¬Finishes p.writes m.payload := by
  have hmain : ∀ t : Session, t.phase = .main → ¬t.phase = .stuck := fun t ht h => by rw [ht] at h; cases h
  by_cases hnext : IsInput m ∧ m.sequence.toInt = s.nextExpected
  · rw [handleMain_next env sr s p m hnext.1 hnext.2, applyInput_stuck_iff env sr (taking env s p m) p m hstart]
    exact ⟨fun h => ⟨hnext.1, hnext.2, h⟩, fun h => h.2.2⟩
  · refine iff_of_false ?_ fun h => hnext ⟨h.1, h.2.1⟩
    unfold Session.handleMain
    dsimp only
    split_ifs with hclosed hacknowledge hother hseq
    · exact fun h => nomatch h
    · exact hmain _ ((handleAck_phase env _ m).trans hstart)
    · exact hmain _ hstart
    · exact hmain _ hstart
    · exact absurd ⟨not_not.mp hother, not_not.mp hseq⟩ hnext

/-- A pass does not come to its end in the drain loop or in the keystroke loop. -/
theorem mainPass_stuck_iff (hstart : s.phase = .main) :
    (s.mainPass env sr p).phase = .stuck ↔
      Reaches s p ∧ (∀ r ∈ p.reads, isData r = true) ∨
        ∃ m, applied env s p = some m ∧ m.payloadType = kPayloadOutput ∧ ¬Finishes p.writes m.payload := by
  have hphase : ∀ t : Session, t.phase = .main → ¬t.phase = .stuck := fun t ht h => by rw [ht] at h; cases h
  cases hhandles : handles env s p with
  | some m =>
    have hclosed : Closed env fun _ _ => True := ⟨fun _ => trivial, fun _ _ => trivial, fun _ _ _ => trivial,
      fun _ _ _ => trivial, fun _ _ => trivial, fun _ _ => trivial⟩
    obtain ⟨t, ht, -, hsilent, htmain, hstep⟩ := (mainPass_spec sr s p hclosed hstart).2 m hhandles
    have hdrained : ¬∀ r ∈ p.reads, isData r = true := by
      rw [handles_main env s p hstart] at hhandles
      split_ifs at hhandles with hleave
      rw [← drain_none_iff env p.reads (s.pumpOutbox p.pumpMs).2 true]
      intro hnone
      exact hleave (Or.inr (Or.inr (Or.inr (by rw [hnone]; exact (Option.some_ne_none true).symm))))
    rw [hstep, handleMain_stuck_iff env sr t p m htmain, hsilent.nextExpected]
    constructor
    · intro h
      exact Or.inr ⟨m, (applied_eq_some env s p m).mpr ⟨hstart, hhandles, h.1, h.2.1⟩, h.2.2⟩
    · rintro (h | ⟨m', hm', h⟩)
      · exact absurd h.2 hdrained
      · obtain ⟨-, hsame, hinput, hseq⟩ := (applied_eq_some env s p m').mp hm'
        cases hhandles.symm.trans hsame
        exact ⟨hinput, hseq, h⟩
  | none =>
    have hnone : ¬∃ m, applied env s p = some m ∧ m.payloadType = kPayloadOutput ∧ ¬Finishes p.writes m.payload := by
      rintro ⟨m, hm, -⟩
      obtain ⟨-, hsame, -⟩ := (applied_eq_some env s p m).mp hm
      cases hhandles.symm.trans hsame
    rw [or_iff_left hnone]
    have hpump := (pumpOutbox_silent s p.pumpMs).2
    rw [handles_main env s p hstart] at hhandles
    unfold Session.mainPass Reaches
    by_cases hstop : p.stop = true
    · rw [if_pos hstop]
      exact iff_of_false (fun h => nomatch h) fun h => Bool.false_ne_true (h.1.1.symm.trans hstop)
    rw [if_neg hstop]
    generalize s.pumpOutbox p.pumpMs = pumped at hpump hhandles ⊢
    obtain ⟨alive, t⟩ := pumped
    cases alive with
    | false => exact iff_of_false (fun h => nomatch h) fun h => Bool.false_ne_true h.1.2.1
    | true =>
      dsimp only at hpump hhandles ⊢
      by_cases hidle : kIdleTimeoutSeconds < p.now - t.lastClientActivity
      · rw [if_pos hidle]
        exact iff_of_false (fun h => nomatch h) fun h => h.1.2.2 hidle
      rw [if_neg hidle]
      have hdrain := drain_none_iff env p.reads t true
      have hdrainPhase := (drain_silent env p.reads t true).2
      generalize t.drain env true p.reads = drained at hdrain hdrainPhase hhandles ⊢
      obtain ⟨running, u⟩ := drained
      dsimp only at hdrain hdrainPhase hhandles ⊢
      cases running with
      | none => exact iff_of_true rfl ⟨⟨Bool.eq_false_iff.mpr hstop, rfl, hidle⟩, hdrain.mp rfl⟩
      | some running =>
        have hends : ¬∀ r ∈ p.reads, isData r = true := fun h => Option.some_ne_none running (hdrain.mpr h)
        refine iff_of_false ?_ fun h => hends h.2
        cases running with
        | false => exact fun h => nomatch h
        | true =>
          dsimp only
          rw [if_neg (by simp [hstop, hidle])] at hhandles
          cases hin : inbound p.recv with
          | closed => exact fun h => nomatch h
          | thrown => exact fun h => nomatch h
          | nothing => exact hphase u (hdrainPhase.trans (hpump.trans hstart))
          | message m =>
            rw [hin] at hhandles
            cases hhandles

end Pass

/-! ## Streams of results -/

/-- A pass with all the results that the pty would give. -/
structure StreamPass where
  base : Pass
  reads : ℕ → PtyRead
  writes : ℕ → PtyWrite

def firstN {α : Type} (f : ℕ → α) (n : ℕ) : List α := (List.range n).map f

/-- The pass with the first results only. -/
def StreamPass.cut (p : StreamPass) (n : ℕ) : Pass :=
  { p.base with
    reads := firstN p.reads n
    writes := firstN p.writes n }

/-- A longer stretch of a stream begins with the shorter one. -/
theorem firstN_append {α : Type} (f : ℕ → α) {n n' : ℕ} (h : n ≤ n') :
    ∃ more, firstN f n' = firstN f n ++ more := by
  obtain ⟨k, rfl⟩ := Nat.exists_eq_add_of_le h
  refine ⟨((List.range k).map fun i => n + i).map f, ?_⟩
  unfold firstN
  rw [List.range_add, List.map_append]

/-- A property of a stretch of a stream, index by index. -/
theorem forall_mem_firstN {α : Type} (f : ℕ → α) (n : ℕ) (P : α → Prop) :
    (∀ a ∈ firstN f n, P a) ↔ ∀ i, i < n → P (f i) := by
  unfold firstN
  rw [List.forall_mem_map]
  exact forall_congr' fun i => imp_congr_left List.mem_range

/-- Writes that finish the keys finish them when more writes follow. -/
theorem Finishes.append {writes : List PtyWrite} {keys : Bytes} (h : Finishes writes keys) (more : List PtyWrite) :
    Finishes (writes ++ more) keys := by
  cases h with
  | inl h =>
    obtain ⟨w, hw, hrefuses⟩ := h
    exact Or.inl ⟨w, List.mem_append_left _ hw, hrefuses⟩
  | inr h =>
    refine Or.inr (h.trans ?_)
    rw [List.map_append, List.sum_append]
    exact Nat.le_add_right _ _

section Streams

variable (env : Env) (sr : StartRequest) (s : Session) (p : StreamPass)

/-- A drain that has ended reads nothing more. -/
theorem drain_append (reads more : List PtyRead) (t : Session) (running : Bool)
    (h : (t.drain env running reads).1 ≠ none) : t.drain env running (reads ++ more) = t.drain env running reads := by
  induction reads generalizing t running with
  | nil => exact absurd rfl h
  | cons r reads ih =>
    cases r with
    | data first rest => exact ih _ _ h
    | eof => rfl
    | again => rfl
    | failed => rfl

/-- The drain loop has one result. -/
theorem drain_unique (t : Session) {n n' : ℕ} (h : (t.drain env true (firstN p.reads n)).1 ≠ none)
    (h' : (t.drain env true (firstN p.reads n')).1 ≠ none) :
    t.drain env true (firstN p.reads n) = t.drain env true (firstN p.reads n') := by
  cases Nat.le_total n n' with
  | inl hle =>
    obtain ⟨more, hmore⟩ := firstN_append p.reads hle
    rw [hmore, drain_append env _ more t true h]
  | inr hle =>
    obtain ⟨more, hmore⟩ := firstN_append p.reads hle
    rw [hmore, drain_append env _ more t true h']

/-- The drain ends within a stretch of reads exactly when one of them gives no data. -/
theorem drain_cut_ne_none_iff (t : Session) (n : ℕ) :
    (t.drain env true (firstN p.reads n)).1 ≠ none ↔ ∃ i, i < n ∧ isData (p.reads i) = false := by
  rw [ne_eq, drain_none_iff, forall_mem_firstN]
  push Not
  simp only [ne_eq, Bool.not_eq_true]

/-- A pass that comes to a message has left the drain loop. -/
theorem of_handles_cut (hstart : s.phase = .main) (n : ℕ) (m : AgentMessage) (hm : handles env s (p.cut n) = some m) :
    Reaches s p.base ∧ ((s.pumpOutbox p.base.pumpMs).2.drain env true (firstN p.reads n)).1 ≠ none := by
  rw [handles_main env s _ hstart] at hm
  split_ifs at hm with h
  simp only [not_or, not_not] at h
  obtain ⟨hstop, hpump, hidle, hdrain⟩ := h
  refine ⟨⟨Bool.eq_false_iff.mpr hstop, Bool.eq_true_of_not_eq_false hpump, hidle⟩, ?_⟩
  have hsome : ((s.pumpOutbox p.base.pumpMs).2.drain env true (firstN p.reads n)).1 = some true := hdrain
  rw [hsome]
  exact Option.some_ne_none true

/-- It is the same message however many results are given. -/
theorem applied_cut_eq (hstart : s.phase = .main) {n n' : ℕ}
    (h : ((s.pumpOutbox p.base.pumpMs).2.drain env true (firstN p.reads n)).1 ≠ none)
    (h' : ((s.pumpOutbox p.base.pumpMs).2.drain env true (firstN p.reads n')).1 ≠ none) :
    applied env s (p.cut n) = applied env s (p.cut n') := by
  have hsame : handles env s (p.cut n) = handles env s (p.cut n') := by
    have hrunning := congrArg Prod.fst (drain_unique env p _ h h')
    rw [handles_main env s _ hstart, handles_main env s _ hstart]
    refine if_congr (or_congr_right (or_congr_right (or_congr_right ?_))) rfl rfl
    show ((s.pumpOutbox p.base.pumpMs).2.drain env true (firstN p.reads n)).1 ≠ some true ↔
      ((s.pumpOutbox p.base.pumpMs).2.drain env true (firstN p.reads n')).1 ≠ some true
    rw [hrunning]
  unfold applied
  rw [hsame]

/-! ## When a pass ends -/

/-- Finitely many results bring the pass to its end. -/
def Ends : Prop := ∃ n, (s.mainPass env sr (p.cut n)).phase ≠ .stuck

/-- Every chunk read is one message; after one whose send failed no other chunk is read. -/
def StopsAtFailure : Prop :=
  let t := (s.pumpOutbox p.base.pumpMs).2
  Reaches s p.base → ∀ n i, t.sends + i < (t.drain env true (firstN p.reads n)).2.sends →
    env.sendOk (t.sends + i) = false → (t.drain env true (firstN p.reads n)).2.sends = t.sends + i + 1

/-- What a pass of the main loop owes to the stop flag and to the channel. -/
def PassEnds : Prop := s.phase = .main → Ends env sr s p ∧ StopsAtFailure env s p

/-- The output pauses, with no failed send before its last chunk. -/
def OutputPauses : Prop :=
  ∃ k, isData (p.reads k) = false ∧ (∀ i, i < k → isData (p.reads i) = true) ∧
    ∀ i, i + 1 < k → env.sendOk ((s.pumpOutbox p.base.pumpMs).2.sends + i) = true

/-- The keystrokes of the pass are taken in the end, or refused. -/
def KeysFinish : Prop :=
  ∀ n m, applied env s (p.cut n) = some m → m.payloadType = kPayloadOutput →
    ∃ n', Finishes (firstN p.writes n') m.payload

/-- What the pty and the sends do in a pass that ends. -/
def PtyYields : Prop := s.phase = .main → (Reaches s p.base → OutputPauses env s p) ∧ KeysFinish env s p

/-- A pass of the main loop ends exactly when its reads run dry, where it gets to them, and its keys
are taken. -/
theorem ends_iff (hstart : s.phase = .main) :
    Ends env sr s p ↔ (Reaches s p.base → ∃ k, isData (p.reads k) = false) ∧ KeysFinish env s p := by
  have hstuck (n : ℕ) : (s.mainPass env sr (p.cut n)).phase = .stuck ↔
      Reaches s p.base ∧ (∀ i, i < n → isData (p.reads i) = true) ∨
        ∃ m, applied env s (p.cut n) = some m ∧ m.payloadType = kPayloadOutput ∧
          ¬Finishes (firstN p.writes n) m.payload := by
    rw [mainPass_stuck_iff env sr s (p.cut n) hstart]
    exact or_congr_left (and_congr_right' (forall_mem_firstN p.reads n _))
  constructor
  · rintro ⟨n, hn⟩
    rw [ne_eq, hstuck, not_or] at hn
    obtain ⟨hdrain, hkeys⟩ := hn
    constructor
    · intro hreaches
      by_contra hall
      apply hdrain
      refine ⟨hreaches, fun i _ => ?_⟩
      exact Bool.eq_true_of_not_eq_false fun hi => hall ⟨i, hi⟩
    · intro n₀ m hm hout
      obtain ⟨hreaches, hleft₀⟩ := of_handles_cut env s p hstart n₀ m ((applied_eq_some env s _ m).mp hm).2.1
      have hleft : ((s.pumpOutbox p.base.pumpMs).2.drain env true (firstN p.reads n)).1 ≠ none := by
        rw [ne_eq, drain_none_iff, forall_mem_firstN]
        exact fun hall => hdrain ⟨hreaches, hall⟩
      rw [applied_cut_eq env s p hstart hleft₀ hleft] at hm
      exact ⟨n, not_not.mp fun hnot => hkeys ⟨m, hm, hout, hnot⟩⟩
  · rintro ⟨hpause, hkeys⟩
    by_cases hreaches : Reaches s p.base
    · obtain ⟨k, hk⟩ := hpause hreaches
      have hleft (n : ℕ) (hn : k < n) :
          ((s.pumpOutbox p.base.pumpMs).2.drain env true (firstN p.reads n)).1 ≠ none :=
        (drain_cut_ne_none_iff env p _ n).mpr ⟨k, hn, hk⟩
      have hnotAll (n : ℕ) (hn : k < n) : ¬∀ i, i < n → isData (p.reads i) = true := by
        intro hall
        exact Bool.false_ne_true (hk.symm.trans (hall k hn))
      -- as many results as the drain loop and the keystrokes need
      by_cases hmessage : ∃ m, applied env s (p.cut (k + 1)) = some m ∧ m.payloadType = kPayloadOutput
      · obtain ⟨m, hm, hout⟩ := hmessage
        obtain ⟨n', hfinishes⟩ := hkeys (k + 1) m hm hout
        refine ⟨max (k + 1) n', ?_⟩
        have hlt : k < max (k + 1) n' := Nat.lt_of_lt_of_le (Nat.lt_succ_self k) (Nat.le_max_left _ _)
        rw [ne_eq, hstuck]
        rintro (h | ⟨m', hm', -, hnot⟩)
        · exact hnotAll _ hlt h.2
        · rw [applied_cut_eq env s p hstart (hleft _ hlt) (hleft _ (Nat.lt_succ_self k)), hm] at hm'
          cases hm'
          obtain ⟨more, hmore⟩ := firstN_append p.writes (Nat.le_max_right (k + 1) n')
          rw [hmore] at hnot
          exact hnot (hfinishes.append more)
      · refine ⟨k + 1, ?_⟩
        rw [ne_eq, hstuck]
        rintro (h | ⟨m, hm, hout, -⟩)
        · exact hnotAll _ (Nat.lt_succ_self k) h.2
        · exact hmessage ⟨m, hm, hout⟩
    · refine ⟨0, ?_⟩
      rw [ne_eq, hstuck]
      rintro (h | ⟨m, hm, -⟩)
      · exact hreaches h.1
      · exact hreaches (of_handles_cut env s p hstart 0 m ((applied_eq_some env s _ m).mp hm).2.1).1

/-- The chunks read are those before the first pause. -/
theorem length_chunks (k n : ℕ) (hk : isData (p.reads k) = false) (hdata : ∀ i, i < k → isData (p.reads i) = true) :
    ((firstN p.reads n).takeWhile isData).length = min n k := by
  have hall (j : ℕ) (hj : j ≤ k) : ∀ r ∈ firstN p.reads j, isData r = true :=
    (forall_mem_firstN p.reads j _).mpr fun i hi => hdata i (Nat.lt_of_lt_of_le hi hj)
  have hlength (j : ℕ) : (firstN p.reads j).length = j := by simp [firstN]
  cases Nat.le_total n k with
  | inl hle =>
    rw [List.takeWhile_eq_self_iff.mpr (hall n hle), hlength, Nat.min_eq_left hle]
  | inr hle =>
    cases Nat.eq_or_lt_of_le hle with
    | inl heq =>
      subst heq
      rw [List.takeWhile_eq_self_iff.mpr (hall k (Nat.le_refl k)), hlength, Nat.min_self]
    | inr hlt =>
      obtain ⟨more, hmore⟩ := firstN_append p.reads hlt
      have hfirst : firstN p.reads (k + 1) = firstN p.reads k ++ [p.reads k] := by
        unfold firstN
        rw [List.range_succ, List.map_append]
        rfl
      rw [hmore, hfirst, List.append_assoc, List.takeWhile_append_of_pos (hall k (Nat.le_refl k)),
        List.singleton_append, List.takeWhile_cons_of_neg (by rw [hk]; exact Bool.false_ne_true), List.append_nil,
        hlength, Nat.min_eq_right hle]

/-- A pass ends, and reads no chunk after a failed send, exactly when the pty and the sends let it. -/
theorem passEnds_iff : PassEnds env sr s p ↔ PtyYields env s p := by
  unfold PassEnds PtyYields
  refine forall_congr' fun hstart => ?_
  rw [ends_iff env sr s p hstart]
  have hchunks (n : ℕ) := drain_sends env (firstN p.reads n) (s.pumpOutbox p.base.pumpMs).2 true
  constructor
  · rintro ⟨⟨hpause, hkeys⟩, hstops⟩
    refine ⟨?_, hkeys⟩
    intro hreaches
    have hpaused := hpause hreaches
    have hdata : ∀ i, i < Nat.find hpaused → isData (p.reads i) = true := fun i hi =>
      Bool.eq_true_of_not_eq_false (Nat.find_min hpaused hi)
    refine ⟨Nat.find hpaused, Nat.find_spec hpaused, hdata, ?_⟩
    intro i hi
    by_contra hfailed
    have hstopped := hstops hreaches (Nat.find hpaused) i
    rw [hchunks, length_chunks p _ _ (Nat.find_spec hpaused) hdata, Nat.min_self] at hstopped
    have hlast := hstopped (by omega) (Bool.eq_false_iff.mpr hfailed)
    omega
  · rintro ⟨hpauses, hkeys⟩
    refine ⟨⟨?_, hkeys⟩, ?_⟩
    · intro hreaches
      obtain ⟨k, hk, -⟩ := hpauses hreaches
      exact ⟨k, hk⟩
    · intro hreaches n i hlt hfailed
      obtain ⟨k, hk, hdata, hsent⟩ := hpauses hreaches
      rw [hchunks, length_chunks p k n hk hdata] at hlt ⊢
      have hlast : ¬i + 1 < k := by
        intro hi
        rw [hsent i hi] at hfailed
        cases hfailed
      omega

open Classical in
/-- The pass with the results it asks for; a pass that does not end is stuck. -/
noncomputable def streamStep (s : Session) (p : StreamPass) : Session :=
  if h : ∃ n, (s.step env sr (p.cut n)).phase ≠ .stuck then s.step env sr (p.cut (Nat.find h))
  else { s with phase := .stuck }

end Streams

/-- **When every pass of the session loop ends**, and reads no chunk after a failed send: in every
run, exactly when in each pass the output pauses, no send before its last chunk fails, and the
keystrokes are taken in the end or refused.
SRC: session.cpp:36-38, 353-450 -/
theorem passes_end_iff (env : Env) (sr : StartRequest) (opened : Bool) (now : ℤ) (passes : List StreamPass) :
    AllSteps (streamStep env sr) (PassEnds env sr) (Session.start env sr opened now) passes ↔
      AllSteps (streamStep env sr) (PtyYields env) (Session.start env sr opened now) passes := by
  constructor
  · intro h l p hl
    exact (passEnds_iff env sr _ p).mp (h l p hl)
  · intro h l p hl
    exact (passEnds_iff env sr _ p).mpr (h l p hl)

/-! ## A shell that always has output -/

def emptyResponseValue : Json.Value := .obj [(lit "ProcessedClientActions", .arr [])]

def emptyResponse : AgentMessage := inputMessage 0 kPayloadHandshakeResponse (Json.dump emptyResponseValue)

/-- The pass that starts the shell. -/
def startingPass : StreamPass where
  base := receiving emptyResponse
  reads := fun _ => .again
  writes := fun _ => .again

/-- The pass in which the shell runs `yes`. -/
def floodPass : StreamPass where
  base := { receiving emptyResponse with recv := .nothing }
  reads := fun _ => .data 121 [10]
  writes := fun _ => .again

/-- An empty handshake answer is refused without a reason. -/
theorem handshakeResponseOk_empty :
    handshakeResponseOk decimalEnv.strtod emptyResponse.payload = .ok [] := by
  have hlossless : JsonRoundTrip.Lossless emptyResponseValue := by
    simp [emptyResponseValue, JsonRoundTrip.Lossless, JsonRoundTrip.LosslessEntries, JsonRoundTrip.LosslessElems]
  have hparse : Json.parse decimalEnv.strtod emptyResponse.payload = (emptyResponseValue, []) :=
    JsonRoundTrip.parse_dump _ JsonRoundTrip.decimalStrtod_reads _ hlossless
  unfold handshakeResponseOk
  rw [hparse]
  rfl

/-- The session once it has the response. -/
def respondedSession : Session :=
  { ((Session.start decimalEnv exampleRequest true 0).sendAck decimalEnv emptyResponse).record (.accept emptyResponse) with
    handshakeSeq := 0 }

def floodedSession : Session := respondedSession.startShell decimalEnv exampleRequest startingPass.base

/-- The starting pass leads to the flooded session, however many reads are cut from it. -/
theorem handshakePass_starting (n : ℕ) :
    (Session.start decimalEnv exampleRequest true 0).handshakePass decimalEnv exampleRequest (startingPass.cut n) =
      floodedSession := by
  have hinbound : inbound (startingPass.cut n).recv = .message emptyResponse :=
    inbound_receiving emptyResponse 97 (by decide) (by decide) (by decide) (by decide)
  have hpump : (Session.start decimalEnv exampleRequest true 0).pumpOutbox (startingPass.cut n).pumpMs =
      (true, Session.start decimalEnv exampleRequest true 0) := rfl
  have hnotAck : emptyResponse.messageType ≠ kMsgAcknowledge := by decide
  unfold Session.handshakePass
  rw [if_neg (show ¬(startingPass.cut n).stop = true from Bool.false_ne_true)]
  rw [if_neg (show ¬(Session.start decimalEnv exampleRequest true 0).hsDeadline < (startingPass.cut n).now by
    show ¬(20 : ℤ) < 0
    decide)]
  rw [hpump]
  dsimp only
  rw [hinbound]
  dsimp only
  unfold Session.handleHandshake
  rw [if_neg hnotAck, if_pos ⟨rfl, rfl⟩, handshakeResponseOk_empty]
  rfl

/-- The starting pass over the whole stream leads to the flooded session. -/
theorem streamStep_starting :
    streamStep decimalEnv exampleRequest (Session.start decimalEnv exampleRequest true 0) startingPass = floodedSession := by
  have hstep (n : ℕ) : (Session.start decimalEnv exampleRequest true 0).step decimalEnv exampleRequest
      (startingPass.cut n) = floodedSession := handshakePass_starting n
  have hends : ∃ n, ((Session.start decimalEnv exampleRequest true 0).step decimalEnv exampleRequest
      (startingPass.cut n)).phase ≠ .stuck := by
    refine ⟨0, ?_⟩
    rw [hstep]
    exact fun h => nomatch h
  unfold streamStep
  rw [dif_pos hends, hstep]

/-- The session of a shell that always has output does not come back to its channel. -/
theorem flood_not_ends :
    ¬AllSteps (streamStep decimalEnv exampleRequest) (PassEnds decimalEnv exampleRequest)
      (Session.start decimalEnv exampleRequest true 0) [startingPass, floodPass] := by
  rw [passes_end_iff]
  intro h
  have hyields := h [startingPass] floodPass (List.prefix_refl _)
  rw [runFrom_cons, runFrom_nil, streamStep_starting] at hyields
  have hreaches : Reaches floodedSession floodPass.base := by
    refine ⟨rfl, rfl, ?_⟩
    show ¬kIdleTimeoutSeconds < (0 : ℤ) - 0
    decide
  obtain ⟨k, hk, -⟩ := (hyields rfl).1 hreaches
  exact Bool.false_ne_true hk.symm

end HaikuAgent.Analysis.PassesEnd
