import HaikuAgent.Model.HttpTransfer

/-!
# What the HTTP reader takes off the stream

A reader has some bytes in `pending` and the rest still in the transport; together they
are what lies `ahead`. Every loop of `http.cpp` is described by what it does to `ahead`
alone: it either consumes bytes and delivers data (`Progress`), or ends with an error
(`Ends`). Nothing here depends on how the transport cuts the bytes into reads.
-/

set_option autoImplicit false

namespace HaikuAgent.Analysis.HttpReading

open HaikuAgent.Foundation
open HaikuAgent.Model
open HaikuAgent.Model.Http
open HaikuAgent.Model.Http.Exchange
open HaikuAgent.Model.WebSocket (crlf headEnd)

/-- The bytes that have not been decoded. -/
def ahead (x : Exchange) : Bytes := x.pending ++ x.transport.incoming

/-- The body that has been delivered: the sink's file where there is one. -/
def stored (x : Exchange) : Bytes := x.sink.file.getD x.resp.body

/-- `x'` is `x` after `used` was consumed and `data` was delivered. -/
structure Progress (x : Exchange) (used data : Bytes) (x' : Exchange) : Prop where
  ahead : used ++ ahead x' = ahead x
  ending : x'.transport.ending = x.transport.ending
  stored : stored x' = stored x ++ data
  count : x'.resp.sinkBytes = x.resp.sinkBytes + data.length
  status : x'.resp.status = x.resp.status
  headers : x'.resp.headers = x.resp.headers
  error : x'.resp.error = x.resp.error
  file : x'.sink.file.isSome = x.sink.file.isSome
  failed : x'.sink.failed = x.sink.failed

/-- Without reading anything nothing changes. -/
theorem Progress.refl (x : Exchange) : Progress x [] [] x :=
  ⟨rfl, rfl, (List.append_nil _).symm, rfl, rfl, rfl, rfl, rfl, rfl⟩

/-- Reading twice takes what both take. -/
theorem Progress.trans {x y z : Exchange} {used used' data data' : Bytes}
    (h : Progress x used data y) (h' : Progress y used' data' z) :
    Progress x (used ++ used') (data ++ data') z where
  ahead := by rw [List.append_assoc, h'.ahead, h.ahead]
  ending := h'.ending.trans h.ending
  stored := by rw [h'.stored, h.stored, List.append_assoc]
  count := by rw [h'.count, h.count, List.length_append, Nat.add_assoc]
  status := h'.status.trans h.status
  headers := h'.headers.trans h.headers
  error := h'.error.trans h.error
  file := h'.file.trans h.file
  failed := h'.failed.trans h.failed

/-- What is ahead then is what was ahead behind the part that was taken. -/
theorem Progress.rest {x x' : Exchange} {used data : Bytes} (h : Progress x used data x') :
    HttpReading.ahead x' = (HttpReading.ahead x).drop used.length := by
  rw [← h.ahead, List.drop_left]

/-- Every write to the sink succeeds. -/
structure Sound (files : Files) : Prop where
  opened : files.openError = none
  write : ∀ call, files.shortWrite call = none
  flush : files.flushError = none

/-- A loop returned `true` and reached `done`, or it left an error; where the sink is sound,
`reason` then holds. -/
def Ends (files : Files) (r : Bool × Exchange) (done : Exchange → Prop) (reason : Prop) : Prop :=
  (∃ y, r = (true, y) ∧ done y) ∨
    ∃ y, r = (false, y) ∧ y.resp.error ≠ [] ∧ (Sound files → reason)

/-! ## Reads -/

/-- What is left to read are the bytes ahead. -/
theorem left_eq (x : Exchange) : x.left = (ahead x).length := List.length_append.symm

/-- A read finds the end where nothing comes in any more. -/
theorem read_nil (t : Transport) (len : ℕ) (h : t.incoming = []) :
    t.read len = (.ended t.ending, { t with reads := t.reads + 1 }) := by
  unfold Transport.read
  rw [h]

/-- A read takes the next bytes off, at least one. -/
theorem read_data (t : Transport) (len : ℕ) (hlen : 0 < len) (h : t.incoming ≠ []) :
    ∃ bytes rest, bytes ≠ [] ∧ bytes ++ rest = t.incoming ∧
      bytes.length ≤ min len (t.cuts t.reads + 1) ∧
      t.read len = (.data bytes, { t with
        incoming := rest
        reads := t.reads + 1 }) := by
  cases hin : t.incoming with
  | nil => exact absurd hin h
  | cons first rest =>
    refine ⟨(first :: rest).take (min len (t.cuts t.reads + 1)),
      (first :: rest).drop (min len (t.cuts t.reads + 1)), ?_, List.take_append_drop _ _, ?_, ?_⟩
    · have hpos : 0 < min len (t.cuts t.reads + 1) := by omega
      rw [ne_eq, List.take_eq_nil_iff]
      rintro (hzero | hnil)
      · omega
      · cases hnil
    · exact List.length_take_le _ _
    · unfold Transport.read
      rw [hin]

/-- The exchange after a read that returned `bytes` and left `rest`. -/
def took (x : Exchange) (bytes rest : Bytes) : Exchange :=
  { x with
    transport := { x.transport with
      incoming := rest
      reads := x.transport.reads + 1 }
    pending := x.pending ++ bytes }

/-- What was read is appended to the bytes read ahead. -/
theorem progress_took (x : Exchange) (bytes rest : Bytes) (h : bytes ++ rest = x.transport.incoming) :
    Progress x [] [] (took x bytes rest) where
  ahead := by
    show [] ++ (x.pending ++ bytes ++ rest) = x.pending ++ x.transport.incoming
    rw [List.nil_append, List.append_assoc, h]
  ending := rfl
  stored := (List.append_nil _).symm
  count := rfl
  status := rfl
  headers := rfl
  error := rfl
  file := rfl
  failed := rfl

/-- Bytes at the front of `pending` are consumed. -/
theorem progress_drop (x : Exchange) (n : ℕ) (h : n ≤ x.pending.length) :
    Progress x ((ahead x).take n) [] { x with pending := x.pending.drop n } where
  ahead := by
    show (x.pending ++ x.transport.incoming).take n ++ (x.pending.drop n ++ x.transport.incoming) =
      x.pending ++ x.transport.incoming
    rw [List.take_append_of_le_length h, ← List.append_assoc, List.take_append_drop]
  ending := rfl
  stored := (List.append_nil _).symm
  count := rfl
  status := rfl
  headers := rfl
  error := rfl
  file := rfl
  failed := rfl

/-- An exchange that fails has an error. -/
theorem error_fail (x : Exchange) (text : Bytes) (h : text ≠ []) : (x.fail text).resp.error ≠ [] := h

/-- An exchange that fails has an error, its first one. -/
theorem error_failUnless (x : Exchange) (text : Bytes) (h : text ≠ []) :
    (x.failUnless text).resp.error ≠ [] := by
  unfold failUnless
  split_ifs with hempty
  · exact h
  · exact hempty

/-- The error of a read has a text. -/
theorem readError_ne_nil (err : Bytes) : readError err ≠ [] := by
  unfold readError
  split_ifs with hempty
  · decide
  · exact hempty

/-- `fill` succeeds when that many bytes are ahead. -/
theorem fillLoop_spec (want fuel : ℕ) (x : Exchange) (hfuel : x.transport.incoming.length < fuel) :
    (want ≤ (ahead x).length → ∃ x', fillLoop want fuel x = (true, x') ∧ Progress x [] [] x' ∧
      want ≤ x'.pending.length) ∧
    ((ahead x).length < want → (fillLoop want fuel x).1 = false) := by
  induction fuel generalizing x with
  | zero => omega
  | succ fuel ih =>
    unfold fillLoop
    by_cases henough : want ≤ x.pending.length
    · rw [if_pos henough]
      refine ⟨fun _ => ⟨x, rfl, Progress.refl x, henough⟩, ?_⟩
      intro hshort
      rw [← left_eq, left] at hshort
      omega
    rw [if_neg henough]
    by_cases hin : x.transport.incoming = []
    · rw [read_nil _ _ hin]
      constructor
      · intro hlong
        rw [← left_eq, left, hin, List.length_nil] at hlong
        omega
      · intro _
        dsimp only
        cases x.transport.ending with
        | closed => rfl
        | failed err => rfl
    · obtain ⟨bytes, rest, hne, hsplit, -, hread⟩ := read_data x.transport (64 * 1024) (by omega) hin
      rw [hread]
      have hstep := progress_took x bytes rest hsplit
      have hlength := congrArg List.length hsplit
      have hpos := List.length_pos_iff.mpr hne
      rw [List.length_append] at hlength
      have hrec := ih (took x bytes rest) (show rest.length < fuel by omega)
      rw [show ahead x = ahead (took x bytes rest) from hstep.ahead.symm]
      refine ⟨?_, hrec.2⟩
      intro hlong
      obtain ⟨x', hrun, hprogress, hpending⟩ := hrec.1 hlong
      exact ⟨x', hrun, hstep.trans hprogress, hpending⟩

/-- With enough ahead the buffer is filled. -/
theorem fill_enough (x : Exchange) (want : ℕ) (h : want ≤ (ahead x).length) :
    ∃ x', x.fill want = (true, x') ∧ Progress x [] [] x' ∧ want ≤ x'.pending.length :=
  (fillLoop_spec want (x.left + 1) x (by rw [left]; omega)).1 h

/-- With less ahead it is not. -/
theorem fill_short (x : Exchange) (want : ℕ) (h : (ahead x).length < want) :
    (x.fill want).1 = false :=
  (fillLoop_spec want (x.left + 1) x (by rw [left]; omega)).2 h

/-! ## The sink -/

/-- Data that is appended is delivered, or the sink fails. -/
theorem append_spec (files : Files) (x : Exchange) (data : Bytes) (hopen : x.sink.failed = false) :
    Ends files (x.append files data)
      (fun x' => x'.pending = x.pending ∧ x'.transport = x.transport ∧ Progress x [] data x')
      False := by
  unfold append
  rw [hopen, if_neg Bool.false_ne_true]
  cases hfile : x.sink.file with
  | none =>
    refine Or.inl ⟨_, rfl, rfl, rfl, ?_⟩
    exact { Progress.refl x with
      ahead := rfl
      stored := by simp only [stored, hfile, Option.getD_none]
      count := rfl }
  | some bytes =>
    dsimp only
    split_ifs with hshort
    · refine Or.inr ⟨_, rfl, ?_, ?_⟩
      · exact List.append_ne_nil_of_left_ne_nil (by decide) _
      · intro hsound
        unfold fwrite at hshort
        rw [hsound.write] at hshort
        exact hshort rfl
    · refine Or.inl ⟨_, rfl, rfl, rfl, ?_⟩
      rw [ne_eq, not_not] at hshort
      exact { Progress.refl x with
        ahead := rfl
        stored := by
          simp only [stored, hfile, Option.getD_some, hshort, List.take_length]
        count := rfl
        file := by rw [hfile]; rfl }

/-- An exchange that is finished ends as it is, or with the error of its file. -/
theorem finish_spec (files : Files) (x : Exchange) (hopen : x.sink.failed = false) :
    Ends files (x.finish files) (fun x' => x' = x) False := by
  unfold finish
  rw [hopen, if_neg Bool.false_ne_true]
  cases hfile : x.sink.file with
  | none => exact Or.inl ⟨_, rfl, rfl⟩
  | some bytes =>
    cases hflush : files.flushError with
    | none => exact Or.inl ⟨_, rfl, rfl⟩
    | some err =>
      refine Or.inr ⟨_, rfl, List.append_ne_nil_of_left_ne_nil (by decide) _, ?_⟩
      intro hsound
      rw [hsound.flush] at hflush
      cases hflush

/-! ## Size lines -/

/-- A line without CRLF ends at the first one behind it. -/
theorem find_crlf (line rest : Bytes) (h : find line crlf 0 = none) :
    find (line ++ (crlf ++ rest)) crlf 0 = some line.length := by
  rw [find_eq_none] at h
  rw [find_eq_some]
  refine ⟨Nat.zero_le _, by rw [List.length_append]; omega, ?_, ?_⟩
  · rw [List.drop_left]
    exact List.prefix_append _ _
  intro j _ hj hearlier
  rw [List.drop_append_of_le_length hj.le] at hearlier
  have hlength : (line.drop j).length = line.length - j := List.length_drop
  match hdrop : line.drop j, hearlier with
  | [], _ =>
    rw [hdrop, List.length_nil] at hlength
    omega
  | [c], hearlier =>
    -- the LF would have to be the CR of the line's end
    have hsecond := (List.cons_prefix_cons.mp hearlier).2
    have hlf := (List.cons_prefix_cons.mp hsecond).1
    exact absurd hlf (by decide)
  | c :: d :: more, hearlier =>
    obtain ⟨hc, hsecond⟩ := List.cons_prefix_cons.mp hearlier
    obtain ⟨hd, -⟩ := List.cons_prefix_cons.mp hsecond
    refine h j (Nat.zero_le _) hj.le ?_
    rw [hdrop, ← hc, ← hd]
    exact List.prefix_append crlf more

/-- Where a CRLF is found, what stands before it is a line. -/
theorem line_of_find (s : Bytes) (nl : ℕ) (h : find s crlf 0 = some nl) :
    nl + 2 ≤ s.length ∧ find (s.take nl) crlf 0 = none ∧
      s = s.take nl ++ (crlf ++ s.drop (nl + 2)) := by
  rw [find_eq_some] at h
  obtain ⟨-, hnl, hfound, hfirst⟩ := h
  have hfits : nl + 2 ≤ s.length := by
    have hlength := hfound.length_le
    rw [List.length_drop] at hlength
    have htwo : crlf.length = 2 := rfl
    omega
  refine ⟨hfits, ?_, ?_⟩
  · rw [find_eq_none]
    intro i _ hi hinside
    have hlength := hinside.length_le
    rw [List.length_drop, List.length_take, show crlf.length = 2 from rfl] at hlength
    refine hfirst i (Nat.zero_le _) (by omega) ?_
    rw [List.drop_take] at hinside
    exact hinside.trans (List.take_prefix _ _)
  · have hdrop : s.drop nl = crlf ++ s.drop (nl + 2) := by
      obtain ⟨rest, hrest⟩ := hfound
      rw [← hrest, ← List.drop_drop, ← hrest]
      rfl
    rw [← hdrop, List.take_append_drop]

/-- The end of a line is found once it has been read. -/
theorem lineLoop_spec (fuel : ℕ) (x : Exchange) (hfuel : x.transport.incoming.length < fuel) :
    (∃ nl x', lineLoop fuel x = (some nl, x') ∧ Progress x [] [] x' ∧
      find x'.pending crlf 0 = some nl ∧ find (ahead x) crlf 0 = some nl) ∨
    ∃ x', lineLoop fuel x = (none, x') ∧ x'.resp.error ≠ [] ∧ find (ahead x) crlf 0 = none := by
  induction fuel generalizing x with
  | zero => omega
  | succ fuel ih =>
    unfold lineLoop
    cases hfind : find x.pending crlf 0 with
    | some nl =>
      exact Or.inl ⟨nl, x, rfl, Progress.refl x, hfind, find_append _ _ _ _ _ hfind⟩
    | none =>
      dsimp only
      by_cases hin : x.transport.incoming = []
      · have hahead : ahead x = x.pending := by rw [ahead, hin, List.append_nil]
        have hfill := fill_short x (x.pending.length + 1) (by rw [hahead]; omega)
        obtain ⟨x', hx'⟩ : ∃ x', x.fill (x.pending.length + 1) = (false, x') :=
          ⟨_, Prod.ext hfill rfl⟩
        rw [hx', hahead]
        exact Or.inr ⟨_, rfl, error_failUnless _ _ (by decide), hfind⟩
      · have hmore := List.length_pos_iff.mpr hin
        obtain ⟨x', hx', hstep, hpending⟩ := fill_enough x (x.pending.length + 1)
          (by rw [← left_eq, left]; omega)
        rw [hx', ← hstep.ahead, List.nil_append]
        have hlength := congrArg List.length hstep.ahead
        rw [List.nil_append, ← left_eq, ← left_eq, left, left] at hlength
        rcases ih x' (by omega) with ⟨nl, y, hrun, hprogress, hnl, hahead⟩ | ⟨y, hrun, herror, hnone⟩
        · exact Or.inl ⟨nl, y, hrun, hstep.trans hprogress, hnl, hahead⟩
        · exact Or.inr ⟨y, hrun, herror, hnone⟩

/-! ## Bytes passed on -/

/-- Before a round there are bytes in `pending`, unless none are ahead. -/
theorem refill_spec (x : Exchange) :
    (∃ y, (if x.pending = [] then x.fill 1 else (true, x)) = (true, y) ∧ Progress x [] [] y ∧
      y.pending ≠ []) ∨
    ∃ y, (if x.pending = [] then x.fill 1 else (true, x)) = (false, y) ∧ ahead x = [] := by
  by_cases hpending : x.pending = []
  · rw [if_pos hpending]
    by_cases hahead : ahead x = []
    · have hfill := fill_short x 1 (by rw [hahead]; exact Nat.one_pos)
      exact Or.inr ⟨_, Prod.ext hfill rfl, hahead⟩
    · obtain ⟨y, hy, hstep, hlength⟩ := fill_enough x 1 (List.length_pos_iff.mpr hahead)
      exact Or.inl ⟨y, hy, hstep, List.length_pos_iff.mp hlength⟩
  · rw [if_neg hpending]
    exact Or.inl ⟨x, rfl, Progress.refl x, hpending⟩

/-- One round delivers bytes at the front of `pending` and consumes them. -/
theorem pass_spec (files : Files) (y : Exchange) (n : ℕ) (hn : n ≤ y.pending.length)
    (hopen : y.sink.failed = false) :
    Ends files (y.append files (y.pending.take n))
      (fun z => Progress y ((ahead y).take n) ((ahead y).take n)
        { z with pending := z.pending.drop n }) False := by
  have hdata : y.pending.take n = (ahead y).take n := by
    rw [ahead, List.take_append_of_le_length hn]
  rcases append_spec files y (y.pending.take n) hopen with ⟨z, hz, hp, ht, happend⟩ | hfailed
  · have hahead : ahead z = ahead y := by rw [ahead, hp, ht, ahead]
    have hround := happend.trans (progress_drop z n (by rw [hp]; exact hn))
    rw [List.nil_append, List.append_nil, hahead, hdata] at hround
    exact Or.inl ⟨z, hz, hround⟩
  · exact Or.inr hfailed

/-- The next `remaining` bytes are delivered, or they are not all there. -/
theorem streamLoop_spec (files : Files) (text : Bytes) (htext : text ≠ []) (fuel remaining : ℕ)
    (x : Exchange) (hfuel : x.left < fuel) (hopen : x.sink.failed = false) :
    Ends files (streamLoop files text fuel remaining x)
      (fun x' => remaining ≤ (ahead x).length ∧
        Progress x ((ahead x).take remaining) ((ahead x).take remaining) x')
      ((ahead x).length < remaining) := by
  induction fuel generalizing x remaining with
  | zero => omega
  | succ fuel ih =>
    unfold streamLoop
    by_cases hdone : remaining = 0
    · rw [if_pos hdone, hdone]
      exact Or.inl ⟨x, rfl, Nat.zero_le _, Progress.refl x⟩
    rw [if_neg hdone]
    dsimp only
    rcases refill_spec x with ⟨y, hy, hfilled, hpending⟩ | ⟨y, hy, hempty⟩
    · rw [hy]
      dsimp only
      have hpos := List.length_pos_iff.mpr hpending
      have hsame : ahead y = ahead x := hfilled.ahead
      set n := min remaining y.pending.length
      have hn : 0 < n ∧ n ≤ remaining := by omega
      rcases pass_spec files y n (min_le_right _ _) (hfilled.failed.trans hopen) with
        ⟨z, hz, hpassed⟩ | ⟨z, hz, herror, hreason⟩
      · rw [hz]
        dsimp only
        have hround := hfilled.trans hpassed
        rw [List.nil_append, hsame] at hround
        set w : Exchange := { z with pending := z.pending.drop n }
        have hsome : n ≤ (ahead x).length := by
          rw [← hsame, ← left_eq, left]
          omega
        have hrest : ahead w = (ahead x).drop n := by
          rw [hround.rest, List.length_take_of_le hsome]
        have hleft : w.left = x.left - n := by
          rw [left_eq, hrest, List.length_drop, left_eq]
        rw [← left_eq] at hsome
        rcases ih (remaining - n) w (by omega) (hround.failed.trans hopen) with
          ⟨v, hrun, henough, hmore⟩ | ⟨v, hrun, herror, hreason⟩
        · refine Or.inl ⟨v, hrun, ?_, ?_⟩
          · rw [← left_eq] at henough ⊢
            omega
          · have hall := hround.trans hmore
            rw [hrest, ← List.take_add, Nat.add_sub_cancel' hn.2] at hall
            exact hall
        · refine Or.inr ⟨v, hrun, herror, ?_⟩
          intro hsound
          have hshort := hreason hsound
          rw [← left_eq] at hshort ⊢
          omega
      · rw [hz]
        exact Or.inr ⟨z, rfl, herror, fun hsound => (hreason hsound).elim⟩
    · rw [hy]
      refine Or.inr ⟨_, rfl, error_failUnless _ _ htext, fun _ => ?_⟩
      rw [hempty, List.length_nil]
      omega

/-! ## The header block -/

/-- The loop stops at the first blank line. It fails where there is none, or where it stands too
far back for reads of `step` bytes. -/
theorem headLoop_spec (step fuel : ℕ) (x : Exchange) (hfuel : x.transport.incoming.length < fuel)
    (hstep : ∀ call, min 4096 (x.transport.cuts call + 1) ≤ step)
    (hsmall : x.pending.length ≤ 256 * 1024) :
    (∃ x' stop, headLoop fuel x = (true, x') ∧ Progress x [] [] x' ∧
      find x'.pending headEnd 0 = some stop ∧ find (ahead x) headEnd 0 = some stop ∧
      x'.pending.length ≤ 256 * 1024) ∨
    ∃ x', headLoop fuel x = (false, x') ∧ x'.resp.error ≠ [] ∧
      ∀ stop, find (ahead x) headEnd 0 = some stop → 256 * 1024 < stop + 3 + step := by
  induction fuel generalizing x with
  | zero => omega
  | succ fuel ih =>
    unfold headLoop
    cases hfind : find x.pending headEnd 0 with
    | some stop =>
      exact Or.inl ⟨x, stop, rfl, Progress.refl x, hfind, find_append _ _ _ _ _ hfind, hsmall⟩
    | none =>
      dsimp only
      by_cases hin : x.transport.incoming = []
      · have hahead : ahead x = x.pending := by rw [ahead, hin, List.append_nil]
        rw [read_nil _ _ hin, hahead, hfind]
        cases x.transport.ending with
        | closed => exact Or.inr ⟨_, rfl, error_fail _ _ (by decide), fun stop h => by cases h⟩
        | failed err => exact Or.inr ⟨_, rfl, readError_ne_nil err, fun stop h => by cases h⟩
      · obtain ⟨bytes, rest, hne, hsplit, hlen, hread⟩ := read_data x.transport 4096 (by omega) hin
        rw [hread]
        dsimp only
        have htook := progress_took x bytes rest hsplit
        have hlength := congrArg List.length hsplit
        have hpos := List.length_pos_iff.mpr hne
        rw [List.length_append] at hlength
        have hbound := hlen.trans (hstep x.transport.reads)
        split_ifs with hlarge
        · refine Or.inr ⟨_, rfl, error_fail _ _ (by decide), ?_⟩
          intro stop hstop
          -- the blank line was not complete before this read
          have hbefore : x.pending.length ≤ stop + 3 := by
            by_contra hlate
            have hfound := find_of_append x.pending headEnd _ stop hstop
              (by rw [show headEnd.length = 4 from rfl]; omega)
            rw [hfind] at hfound
            cases hfound
          rw [List.length_append] at hlarge
          omega
        · have hahead : ahead (took x bytes rest) = ahead x := htook.ahead
          rcases ih (took x bytes rest) (by show rest.length < fuel; omega) hstep (by
              show (x.pending ++ bytes).length ≤ _
              omega) with
            ⟨y, stop, hrun, hmore, hstop, hfirst, hsize⟩ | ⟨y, hrun, herror, hreason⟩
          · rw [hahead] at hfirst
            exact Or.inl ⟨y, stop, hrun, htook.trans hmore, hstop, hfirst, hsize⟩
          · rw [hahead] at hreason
            exact Or.inr ⟨y, hrun, herror, hreason⟩

/-- A head that is refused has an error. -/
theorem error_of_parseHead (head err : Bytes) (h : parseHead head = .error err) : err ≠ [] := by
  unfold parseHead at h
  cases hlines : split head 10 with
  | nil =>
    rw [hlines] at h
    cases h
    decide
  | cons s lines =>
    rw [hlines] at h
    dsimp only at h
    cases hsp : find s [32] 0 with
    | none =>
      rw [hsp] at h
      cases h
      decide
    | some sp =>
      rw [hsp] at h
      cases h

/-- The exchange once the headers are in the response. -/
def withHead (x : Exchange) (status : ℤ) (headers : List (Bytes × Bytes)) : Exchange :=
  { x with
    resp := { x.resp with
      status := status
      headers := headers } }

/-- The header block is consumed up to its blank line, or there is an error. -/
theorem readHeaders_spec (step : ℕ) (x : Exchange)
    (hstep : ∀ call, min 4096 (x.transport.cuts call + 1) ≤ step)
    (hsmall : x.pending.length ≤ 256 * 1024) :
    (∃ y stop status headers, x.readHeaders = (true, withHead y status headers) ∧
      find (ahead x) headEnd 0 = some stop ∧ stop + 4 ≤ 256 * 1024 ∧
      parseHead ((ahead x).take stop) = .ok (status, headers) ∧
      Progress x ((ahead x).take (stop + 4)) [] y) ∨
    ∃ y, x.readHeaders = (false, y) ∧ y.resp.error ≠ [] ∧
      ∀ stop, find (ahead x) headEnd 0 = some stop → stop + 3 + step ≤ 256 * 1024 →
        ∃ err, parseHead ((ahead x).take stop) = .error err := by
  unfold readHeaders
  rcases headLoop_spec step (x.left + 1) x (by rw [left]; omega) hstep hsmall with
    ⟨y, stop, hrun, hread, hpending, hahead, hsize⟩ | ⟨y, hrun, herror, hreason⟩
  · rw [hrun]
    dsimp only
    rw [hpending, Option.getD_some]
    have hfits : stop + 4 ≤ y.pending.length := by
      have hpat := ((find_eq_some _ _ _ _).mp hpending).2.2.1.length_le
      have hstop := ((find_eq_some _ _ _ _).mp hpending).2.1
      rw [List.length_drop, show headEnd.length = 4 from rfl] at hpat
      omega
    have hsame : ahead y = ahead x := hread.ahead
    have htake : y.pending.take stop = (ahead x).take stop := by
      rw [← hsame, ahead, List.take_append_of_le_length (by omega)]
    rw [htake]
    cases hparse : parseHead ((ahead x).take stop) with
    | error err =>
      refine Or.inr ⟨_, rfl, error_fail _ _ (error_of_parseHead _ _ hparse), ?_⟩
      intro stop' hstop' _
      rw [hahead] at hstop'
      cases hstop'
      exact ⟨err, hparse⟩
    | ok parsed =>
      obtain ⟨status, headers⟩ := parsed
      have hconsumed := hread.trans (progress_drop y (stop + 4) hfits)
      rw [hsame, List.nil_append, List.nil_append] at hconsumed
      exact Or.inl ⟨_, stop, status, headers, rfl, hahead, by omega, hparse, hconsumed⟩
  · rw [hrun]
    refine Or.inr ⟨y, rfl, herror, ?_⟩
    intro stop hstop hfits
    have hlate := hreason stop hstop
    omega

end HaikuAgent.Analysis.HttpReading
