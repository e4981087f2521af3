import HaikuAgent.Analysis.WebSocketReception

/-!
# What a WebSocket client delivers

A receiver that goes by the protocol, frame by frame (`judge`), beside the frames that the
calls of `recv` take from the stream and what `recv` does with each (`callsTaken`). The two
agree exactly on the streams whose frames the protocol allows.
-/

set_option autoImplicit false

namespace HaikuAgent.Analysis.WebSocketRefusals

open HaikuAgent.Foundation
open HaikuAgent.Model.WebSocket
open HaikuAgent.Analysis.WebSocketReception

/-! ## The protocol -/

/-- The message in progress: the opcode of its first frame, and its payload so far. -/
abbrev Progress := Option Frame

/-- What a receiver does with a frame. -/
inductive Verdict where
  | pass (progress : Progress)
  | deliver (m : Frame)
  | close
  | refuse
  deriving DecidableEq

/-- A control frame is whole; a continuation continues a message; a text or binary frame begins
one when none is in progress; no other opcode has a meaning. -/
def judge (progress : Progress) (f : ParsedFrame) : Verdict :=
  if f.opcode = kOpPing ∨ f.opcode = kOpPong then if f.fin then .pass progress else .refuse
  else if f.opcode = kOpClose then if f.fin then .close else .refuse
  else
    match progress with
    | some m =>
      if f.opcode ≠ 0 then .refuse
      else if f.fin then .deliver ⟨m.opcode, m.payload ++ f.payload⟩
      else .pass (some ⟨m.opcode, m.payload ++ f.payload⟩)
    | none =>
      if f.opcode ≠ kOpText ∧ f.opcode ≠ kOpBinary then .refuse
      else if f.fin then .deliver ⟨f.opcode, f.payload⟩
      else .pass (some ⟨f.opcode, f.payload⟩)

/-- A frame that may stand there; of a close frame nothing more is asked. -/
def Allowed (progress : Progress) (f : ParsedFrame) : Prop :=
  judge progress f ≠ .refuse ∨ f.opcode = kOpClose

/-- The frames of a stream, up to the one that ends it, may stand where they do. -/
def AllAllowed : Progress → List ParsedFrame → Prop
  | _, [] => True
  | progress, f :: rest => Allowed progress f ∧
    match judge progress f with
    | .pass progress => AllAllowed progress rest
    | .deliver _ => AllAllowed none rest
    | _ => True

/-! ## The frames that are taken -/

/-- A frame, and what `recv` does with it. -/
abbrev Taken := ParsedFrame × Handled

variable (link : Link)

/-- The frames that the loop of `recv` takes between two reads. -/
def taken (c : Client) : List Taken :=
  match _hparse : parseFrame c.readBuf with
  | .complete f rest =>
    match _hnext : { c with readBuf := rest }.handleFrame link f with
    | .next c' => (f, .next c') :: taken c'
    | handled => [(f, handled)]
  | _ => []
termination_by c.readBuf.length
decreasing_by
  rw [Client.readBuf_of_handleFrame link _ f c' _hnext]
  exact length_of_parseFrame c.readBuf f rest _hparse

/-- The frames that a loop of `recv` takes. -/
def loopTaken (c : Client) : List ReadResult → List Taken
  | [] => taken link c
  | r :: script => taken link c ++
    match c.drain link, r with
    | .starved c', .data first rest => loopTaken { c' with readBuf := c'.readBuf ++ first :: rest } script
    | _, _ => []

/-- The frames that a call of `recv` takes. -/
def callTaken (c : Client) (script : List ReadResult) : List Taken :=
  if !c.isOpen then [] else loopTaken link c script

/-- The frames that successive calls take. -/
def callsTaken : ℕ → Client → List ReadResult → List Taken
  | 0, _, _ => []
  | n + 1, c, script => callTaken link c script ++
    callsTaken n (c.recv link script).2.1 (c.recv link script).2.2

/-- `recv` does as the verdict says. -/
def Follows : Verdict → Handled → Prop
  | .pass _, .next _ => True
  | .deliver m, .message m' _ => m = m'
  | .close, .failed _ _ => True
  | .refuse, .failed _ _ => True
  | _, _ => False

/-- It does so at every frame, up to the one that ends the stream. -/
def AllFollow : Progress → List Taken → Prop
  | _, [] => True
  | progress, (f, handled) :: rest => Follows (judge progress f) handled ∧
    match judge progress f with
    | .pass progress => AllFollow progress rest
    | .deliver _ => AllFollow none rest
    | _ => True

/-! ## The calls and the frames they take -/

/-- The first frame taken is the one at the front of the buffer. -/
theorem taken_complete (c : Client) (f : ParsedFrame) (rest : Bytes)
    (hparse : parseFrame c.readBuf = .complete f rest) :
    taken link c =
      match { c with readBuf := rest }.handleFrame link f with
      | .next c' => (f, .next c') :: taken link c'
      | handled => [(f, handled)] := by
  rw [taken]
  split
  next f' rest' hcomplete =>
    rw [hparse] at hcomplete
    cases hcomplete
    split
    next c' hnext => rw [hnext]
    next hnext =>
      split
      next c' h => exact (hnext c' h).elim
      next => rfl
  next hother => exact absurd hparse (hother f rest)

/-- Without a whole frame nothing is taken. -/
theorem taken_other (c : Client) (hparse : ∀ f rest, parseFrame c.readBuf ≠ .complete f rest) :
    taken link c = [] := by
  rw [taken]
  split
  next f rest hcomplete => exact absurd hcomplete (hparse f rest)
  next => rfl

/-- A bad frame closes the client. -/
theorem drain_failed (c : Client) (err : Bytes) (hparse : parseFrame c.readBuf = .failed err) :
    c.drain link = .failed err { c with isOpen := false } := by
  rw [Client.drain]
  split
  next hincomplete =>
    rw [hparse] at hincomplete
    cases hincomplete
  next err' herr =>
    rw [hparse] at herr
    cases herr
    rfl
  next f rest hcomplete =>
    rw [hparse] at hcomplete
    cases hcomplete

/-- All these frames are passed over. -/
def Quiet (ts : List Taken) : Prop := ∀ t ∈ ts, ∃ f c, t = (f, .next c)

/-- What a call that takes these frames returns: the message of the last frame, or the error of
the last frame, or something that no frame led to. -/
def Yields (ts : List Taken) : Received → Prop
  | .message m => ∃ front f c, Quiet front ∧ ts = front ++ [(f, .message m c)]
  | .failed err => (∃ front f c, Quiet front ∧ ts = front ++ [(f, .failed err c)]) ∨ Quiet ts
  | _ => Quiet ts

/-- No frames are quiet. -/
theorem quiet_nil : Quiet [] := fun _ h => nomatch h

/-- Quiet frames in two parts are quiet. -/
theorem quiet_append {front ts : List Taken} (hfront : Quiet front) (hts : Quiet ts) : Quiet (front ++ ts) :=
  fun t ht => (List.mem_append.mp ht).elim (hfront t) (hts t)

/-- Quiet frames in front do not change what a call returns. -/
theorem yields_append {front ts : List Taken} (hfront : Quiet front) (r : Received) (h : Yields ts r) :
    Yields (front ++ ts) r := by
  have hlast (t : Taken) (hts : ∃ front', Quiet front' ∧ ts = front' ++ [t]) :
      ∃ front', Quiet front' ∧ front ++ ts = front' ++ [t] := by
    obtain ⟨front', hfront', rfl⟩ := hts
    exact ⟨front ++ front', quiet_append hfront hfront', (List.append_assoc _ _ _).symm⟩
  cases r with
  | message m =>
    obtain ⟨front', f, c, hfront', hts⟩ := h
    obtain ⟨front'', hquiet, heq⟩ := hlast _ ⟨front', hfront', hts⟩
    exact ⟨front'', f, c, hquiet, heq⟩
  | failed err =>
    cases h with
    | inl h =>
      obtain ⟨front', f, c, hfront', hts⟩ := h
      obtain ⟨front'', hquiet, heq⟩ := hlast _ ⟨front', hfront', hts⟩
      exact Or.inl ⟨front'', f, c, hquiet, heq⟩
    | inr h => exact Or.inr (quiet_append hfront h)
  | timeout => exact quiet_append hfront h
  | waiting => exact quiet_append hfront h

/-- The frames in the buffer, and how they leave `recv`. -/
theorem drain_yields (c : Client) :
    match c.drain link with
    | .message m _ => Yields (taken link c) (.message m)
    | .failed err _ => Yields (taken link c) (.failed err)
    | .starved _ => Quiet (taken link c) := by
  induction hn : c.readBuf.length using Nat.strong_induction_on generalizing c with
  | _ n ih =>
    cases hparse : parseFrame c.readBuf with
    | incomplete =>
      rw [drain_incomplete link c hparse, taken_other link c (by rw [hparse]; nofun)]
      exact quiet_nil
    | failed err =>
      rw [drain_failed link c err hparse, taken_other link c (by rw [hparse]; nofun)]
      exact Or.inr quiet_nil
    | complete f rest =>
      rw [drain_complete link c f rest hparse, taken_complete link c f rest hparse]
      cases hhandled : Client.handleFrame link { c with readBuf := rest } f with
      | next c' =>
        have hlength : c'.readBuf.length < n := by
          rw [Client.readBuf_of_handleFrame link _ f c' hhandled, ← hn]
          exact length_of_parseFrame c.readBuf f rest hparse
        have hfront : Quiet [(f, .next c')] := fun t ht => ⟨f, c', List.mem_singleton.mp ht⟩
        have hrest := ih c'.readBuf.length hlength c' rfl
        dsimp only
        cases hdrain : c'.drain link with
        | message m c'' =>
          rw [hdrain] at hrest
          exact yields_append hfront _ hrest
        | failed err c'' =>
          rw [hdrain] at hrest
          exact yields_append hfront _ hrest
        | starved c'' =>
          rw [hdrain] at hrest
          exact quiet_append hfront hrest
      | message m c' => exact ⟨[], f, c', quiet_nil, rfl⟩
      | failed err c' => exact Or.inl ⟨[], f, c', quiet_nil, rfl⟩

/-- What a call returns is what it does with the frames it takes. -/
theorem recv_yields (c : Client) (script : List ReadResult) :
    Yields (callTaken link c script) (c.recv link script).1 := by
  have hloop : ∀ c : Client, Yields (loopTaken link c script) (c.recvLoop link script).1 := by
    induction script with
    | nil =>
      intro c
      have hdrain := drain_yields link c
      unfold loopTaken Client.recvLoop
      cases hc : c.drain link with
      | message m c' | failed err c' | starved c' =>
        rw [hc] at hdrain
        exact hdrain
    | cons r script ih =>
      intro c
      have hdrain := drain_yields link c
      unfold loopTaken Client.recvLoop
      cases hc : c.drain link with
      | message m c' | failed err c' =>
        rw [hc] at hdrain
        dsimp only
        rw [List.append_nil]
        exact hdrain
      | starved c' =>
        rw [hc] at hdrain
        cases r with
        | data first rest => exact yields_append hdrain _ (ih _)
        | timeout => exact quiet_append hdrain quiet_nil
        | closed | failed => exact Or.inr (quiet_append hdrain quiet_nil)
  unfold callTaken Client.recv
  by_cases hopen : (!c.isOpen) = true
  · rw [if_pos hopen, if_pos hopen]
    exact Or.inr quiet_nil
  · rw [if_neg hopen, if_neg hopen]
    exact hloop c

/-- The message in progress, as the client keeps it. -/
def fragments (c : Client) : UInt8 × Bytes := (c.fragOpcode, c.fragPayload)

/-- Frames taken one after the other, each by the client that the one before left. -/
def Linked : UInt8 × Bytes → List Taken → Prop
  | _, [] => True
  | kept, (f, handled) :: rest => (∃ c, fragments c = kept ∧ c.handleFrame link f = handled) ∧
    match handled with
    | .next c' => Linked (fragments c') rest
    | .message _ c' => Linked (fragments c') rest
    | .failed _ _ => rest = []

/-- What may be taken after a drain. -/
def Continues (more : List Taken) : Drained → Prop
  | .starved c => Linked link (fragments c) more
  | .message _ c => Linked link (fragments c) more
  | .failed _ _ => more = []

/-- The frames of a drain are taken one after the other. -/
theorem taken_linked (c : Client) (more : List Taken) (hmore : Continues link more (c.drain link)) :
    Linked link (fragments c) (taken link c ++ more) := by
  induction hn : c.readBuf.length using Nat.strong_induction_on generalizing c with
  | _ n ih =>
    cases hparse : parseFrame c.readBuf with
    | incomplete =>
      rw [taken_other link c (by rw [hparse]; nofun)]
      rw [drain_incomplete link c hparse] at hmore
      exact hmore
    | failed err =>
      rw [taken_other link c (by rw [hparse]; nofun)]
      rw [drain_failed link c err hparse] at hmore
      rw [show more = [] from hmore]
      trivial
    | complete f rest =>
      rw [taken_complete link c f rest hparse]
      rw [drain_complete link c f rest hparse] at hmore
      cases hhandled : Client.handleFrame link { c with readBuf := rest } f with
      | next c' =>
        rw [hhandled] at hmore
        refine ⟨⟨{ c with readBuf := rest }, rfl, hhandled⟩, ?_⟩
        refine ih c'.readBuf.length ?_ c' hmore rfl
        rw [Client.readBuf_of_handleFrame link _ f c' hhandled, ← hn]
        exact length_of_parseFrame c.readBuf f rest hparse
      | message m c' =>
        rw [hhandled] at hmore
        exact ⟨⟨{ c with readBuf := rest }, rfl, hhandled⟩, hmore⟩
      | failed err c' =>
        rw [hhandled] at hmore
        exact ⟨⟨{ c with readBuf := rest }, rfl, hhandled⟩, hmore⟩

/-- The frames of a receive loop are taken one after the other. -/
theorem loopTaken_linked (script : List ReadResult) (c : Client) (more : List Taken)
    (hmore : match c.recvLoop link script with
      | (.failed _, _) => more = []
      | (_, c', _) => Linked link (fragments c') more) :
    Linked link (fragments c) (loopTaken link c script ++ more) := by
  induction script generalizing c with
  | nil =>
    unfold loopTaken
    apply taken_linked
    unfold Client.recvLoop at hmore
    cases hc : c.drain link with
    | message m c' | failed err c' | starved c' =>
      rw [hc] at hmore
      exact hmore
  | cons r script ih =>
    unfold loopTaken
    rw [List.append_assoc]
    apply taken_linked
    unfold Client.recvLoop at hmore
    cases hc : c.drain link with
    | message m c' | failed err c' =>
      rw [hc] at hmore
      exact hmore
    | starved c' =>
      rw [hc] at hmore
      cases r with
      | data first rest => exact ih { c' with readBuf := c'.readBuf ++ first :: rest } hmore
      | timeout => exact hmore
      | closed =>
        rw [show more = [] from hmore]
        trivial
      | failed err =>
        rw [show more = [] from hmore]
        trivial

/-- A client whose frame fails is closed. -/
theorem handleFrame_failed (c c' : Client) (f : ParsedFrame) (err : Bytes)
    (h : c.handleFrame link f = .failed err c') : c'.isOpen = false := by
  unfold Client.handleFrame at h
  dsimp only at h
  split_ifs at h
  cases h
  rfl

/-- A client whose drain fails is closed. -/
theorem drain_closed (c c' : Client) (err : Bytes) (h : c.drain link = .failed err c') : c'.isOpen = false := by
  induction hn : c.readBuf.length using Nat.strong_induction_on generalizing c with
  | _ n ih =>
    cases hparse : parseFrame c.readBuf with
    | incomplete =>
      rw [drain_incomplete link c hparse] at h
      cases h
    | failed err =>
      rw [drain_failed link c err hparse] at h
      cases h
      rfl
    | complete f rest =>
      rw [drain_complete link c f rest hparse] at h
      cases hhandled : Client.handleFrame link { c with readBuf := rest } f with
      | next c'' =>
        rw [hhandled] at h
        refine ih c''.readBuf.length ?_ c'' h rfl
        rw [Client.readBuf_of_handleFrame link _ f c'' hhandled, ← hn]
        exact length_of_parseFrame c.readBuf f rest hparse
      | message m c'' =>
        rw [hhandled] at h
        cases h
      | failed err' c'' =>
        rw [hhandled] at h
        cases h
        exact handleFrame_failed link _ _ f _ hhandled

/-- A client whose receive loop fails is closed. -/
theorem recvLoop_closed (script script' : List ReadResult) (c c' : Client) (err : Bytes)
    (h : c.recvLoop link script = (.failed err, c', script')) : c'.isOpen = false := by
  induction script generalizing c with
  | nil =>
    unfold Client.recvLoop at h
    cases hc : c.drain link with
    | message m d | starved d =>
      rw [hc] at h
      cases h
    | failed err' d =>
      rw [hc] at h
      cases h
      exact drain_closed link c _ _ hc
  | cons r script ih =>
    unfold Client.recvLoop at h
    cases hc : c.drain link with
    | message m d =>
      rw [hc] at h
      cases h
    | failed err' d =>
      rw [hc] at h
      cases h
      exact drain_closed link c _ _ hc
    | starved d =>
      rw [hc] at h
      cases r with
      | data first rest => exact ih _ h
      | timeout => cases h
      | closed | failed =>
        cases h
        rfl

/-- A client that is closed takes no frames. -/
theorem callsTaken_closed (n : ℕ) (c : Client) (script : List ReadResult) (h : c.isOpen = false) :
    callsTaken link n c script = [] := by
  induction n with
  | zero => rfl
  | succ n ih =>
    unfold callsTaken callTaken Client.recv
    rw [h]
    exact ih

/-- The frames of any number of calls are taken one after the other. -/
theorem callsTaken_linked (n : ℕ) (c : Client) (script : List ReadResult) :
    Linked link (fragments c) (callsTaken link n c script) := by
  induction n generalizing c script with
  | zero => trivial
  | succ n ih =>
    cases hopen : c.isOpen with
    | false =>
      rw [callsTaken_closed link (n + 1) c script hopen]
      trivial
    | true =>
      unfold callsTaken callTaken Client.recv
      rw [hopen, if_neg (by simp), if_neg (by simp)]
      apply loopTaken_linked
      cases hloop : c.recvLoop link script with
      | mk r rest =>
        obtain ⟨c', script'⟩ := rest
        cases r with
        | failed err => exact callsTaken_closed link n c' script' (recvLoop_closed link script script' c c' err hloop)
        | message | timeout | waiting => exact ih c' script'

/-! ## The verdicts -/

/-- The client's record of the message in progress. -/
def Keeps (kept : UInt8 × Bytes) : Progress → Prop
  | none => kept.2 = []
  | some m => kept = (m.opcode, m.payload)

/-- Sending leaves the message in progress alone. -/
theorem fragments_send (c : Client) (opcode : UInt8) (payload : Bytes) :
    fragments (c.send link opcode payload).2 = fragments c := by
  unfold Client.send
  split_ifs
  · rfl
  · dsimp only [Client.write]
    cases link.writeError c.writes.length with
    | some err => rfl
    | none => rfl

/-- What the client keeps after a frame that it takes as the verdict says. -/
def KeepsAfter : Verdict → Handled → Prop
  | .pass progress, .next c => Keeps (fragments c) progress
  | .deliver _, .message _ c => Keeps (fragments c) none
  | _, _ => True

/-- The client does as the protocol says at a frame that may stand there, and at no other. -/
def AgreesAt (c : Client) (progress : Progress) (f : ParsedFrame) : Prop :=
  (Follows (judge progress f) (c.handleFrame link f) ↔ Allowed progress f) ∧
    (Allowed progress f → KeepsAfter (judge progress f) (c.handleFrame link f))

/-- The client agrees at a frame that it follows and that may stand there. -/
theorem agreesAt_allowed (c : Client) (progress : Progress) (f : ParsedFrame) (verdict : Verdict)
    (handled : Handled) (hjudge : judge progress f = verdict) (hhandled : c.handleFrame link f = handled)
    (hverdict : verdict ≠ .refuse) (hfollows : Follows verdict handled) (hkeeps : KeepsAfter verdict handled) :
    AgreesAt link c progress f := by
  unfold AgreesAt Allowed
  rw [hjudge, hhandled]
  exact ⟨iff_of_true hfollows (Or.inl hverdict), fun _ => hkeeps⟩

/-- A frame that should be refused, and that the client does not fail on, may not stand there. -/
theorem agreesAt_refused (c : Client) (progress : Progress) (f : ParsedFrame)
    (hjudge : judge progress f = .refuse) (hclose : f.opcode ≠ kOpClose)
    (hhandled : ∀ err c', c.handleFrame link f ≠ .failed err c') : AgreesAt link c progress f := by
  have hallowed : ¬Allowed progress f := fun h => h.elim (fun h => h hjudge) hclose
  refine ⟨iff_of_false ?_ hallowed, fun h => absurd h hallowed⟩
  rw [hjudge]
  intro hfollows
  cases h : c.handleFrame link f with
  | next c' | message m c' =>
    rw [h] at hfollows
    exact hfollows
  | failed err c' => exact hhandled err c' h

/-- The client agrees at pings and pongs. -/
theorem agreesAt_control (c : Client) (progress : Progress) (f : ParsedFrame)
    (hkeeps : Keeps (fragments c) progress) (hcontrol : f.opcode = kOpPing ∨ f.opcode = kOpPong) :
    AgreesAt link c progress f := by
  have hhandled : ∃ c', c.handleFrame link f = .next c' ∧ fragments c' = fragments c := by
    unfold Client.handleFrame
    cases hcontrol with
    | inl hping =>
      rw [if_pos hping]
      exact ⟨_, rfl, fragments_send link c kOpPong f.payload⟩
    | inr hpong =>
      rw [if_neg (hpong ▸ by decide), if_pos hpong]
      exact ⟨c, rfl, rfl⟩
  obtain ⟨c', hhandled, hsame⟩ := hhandled
  have hjudge : judge progress f = if f.fin then .pass progress else .refuse := if_pos hcontrol
  cases hfin : f.fin with
  | true =>
    rw [hfin, if_pos rfl] at hjudge
    have hkeeps' : Keeps (fragments c') progress := hsame ▸ hkeeps
    exact agreesAt_allowed link c progress f _ _ hjudge hhandled nofun trivial hkeeps'
  | false =>
    rw [hfin, if_neg Bool.false_ne_true] at hjudge
    have hclose : f.opcode ≠ kOpClose := by
      cases hcontrol with
      | inl h => exact h ▸ by decide
      | inr h => exact h ▸ by decide
    exact agreesAt_refused link c progress f hjudge hclose fun err d h => nomatch hhandled.symm.trans h

/-- The client agrees at a close. -/
theorem agreesAt_close (c : Client) (progress : Progress) (f : ParsedFrame) (hclose : f.opcode = kOpClose) :
    AgreesAt link c progress f := by
  have hhandled : ∃ err c', c.handleFrame link f = .failed err c' := by
    unfold Client.handleFrame
    rw [if_neg (hclose ▸ by decide), if_neg (hclose ▸ by decide), if_pos hclose]
    exact ⟨_, _, rfl⟩
  obtain ⟨err, c', hhandled⟩ := hhandled
  have hjudge : judge progress f = if f.fin then .close else .refuse := by
    unfold judge
    rw [if_neg (hclose ▸ by decide), if_pos hclose]
  unfold AgreesAt
  rw [hjudge, hhandled]
  refine ⟨iff_of_true ?_ (Or.inr hclose), fun _ => ?_⟩
  · split_ifs <;> trivial
  · split_ifs <;> trivial

section Data

variable (c : Client) (f : ParsedFrame) (hcontrol : ¬(f.opcode = kOpPing ∨ f.opcode = kOpPong))
  (hclose : f.opcode ≠ kOpClose)

include hcontrol hclose

/-- The verdict on a data frame, by what is in progress. -/
theorem judge_data (progress : Progress) : judge progress f =
    match progress with
    | some m =>
      if f.opcode ≠ 0 then .refuse
      else if f.fin then .deliver ⟨m.opcode, m.payload ++ f.payload⟩
      else .pass (some ⟨m.opcode, m.payload ++ f.payload⟩)
    | none =>
      if f.opcode ≠ kOpText ∧ f.opcode ≠ kOpBinary then .refuse
      else if f.fin then .deliver ⟨f.opcode, f.payload⟩
      else .pass (some ⟨f.opcode, f.payload⟩) := by
  unfold judge
  rw [if_neg hcontrol, if_neg hclose]

/-- What the client does with a data frame. -/
theorem handleFrame_data : c.handleFrame link f =
    if f.opcode = 0 then
      if f.fin then
        .message ⟨c.fragOpcode, c.fragPayload ++ f.payload⟩ { c with fragPayload := [], fragOpcode := 0 }
      else .next { c with fragPayload := c.fragPayload ++ f.payload }
    else if !f.fin then .next { c with fragOpcode := f.opcode, fragPayload := f.payload }
    else .message ⟨f.opcode, f.payload⟩ c := by
  unfold Client.handleFrame
  rw [if_neg fun h => hcontrol (Or.inl h), if_neg fun h => hcontrol (Or.inr h), if_neg hclose]

/-- The client fails on no data frame. -/
theorem handleFrame_data_ne (err : Bytes) (c' : Client) : c.handleFrame link f ≠ .failed err c' := by
  rw [handleFrame_data link c f hcontrol hclose]
  split_ifs
  all_goals exact nofun

/-- The client agrees with a message in progress. -/
theorem agreesAt_some (m : Frame) (hkeeps : Keeps (fragments c) (some m)) : AgreesAt link c (some m) f := by
  have hhandled := handleFrame_data link c f hcontrol hclose
  have hjudge := judge_data f hcontrol hclose (some m)
  have hopcode : c.fragOpcode = m.opcode := congrArg Prod.fst hkeeps
  have hpayload : c.fragPayload = m.payload := congrArg Prod.snd hkeeps
  dsimp only at hjudge
  by_cases hzero : f.opcode = 0
  · rw [if_neg (not_not.mpr hzero)] at hjudge
    rw [if_pos hzero, hopcode, hpayload] at hhandled
    cases hfin : f.fin with
    | true =>
      rw [hfin, if_pos rfl] at hjudge hhandled
      exact agreesAt_allowed link c _ f _ _ hjudge hhandled nofun rfl rfl
    | false =>
      rw [hfin, if_neg Bool.false_ne_true] at hjudge hhandled
      exact agreesAt_allowed link c _ f _ _ hjudge hhandled nofun trivial rfl
  · rw [if_pos hzero] at hjudge
    exact agreesAt_refused link c _ f hjudge hclose (handleFrame_data_ne link c f hcontrol hclose)

/-- The client agrees with no message in progress. -/
theorem agreesAt_none (hkeeps : Keeps (fragments c) none) : AgreesAt link c none f := by
  have hhandled := handleFrame_data link c f hcontrol hclose
  have hjudge := judge_data f hcontrol hclose none
  dsimp only at hjudge
  by_cases hdata : f.opcode ≠ kOpText ∧ f.opcode ≠ kOpBinary
  · rw [if_pos hdata] at hjudge
    exact agreesAt_refused link c _ f hjudge hclose (handleFrame_data_ne link c f hcontrol hclose)
  · rw [if_neg hdata] at hjudge
    have hzero : f.opcode ≠ 0 := fun h => hdata (h ▸ by decide)
    rw [if_neg hzero] at hhandled
    cases hfin : f.fin with
    | true =>
      rw [hfin] at hjudge hhandled
      exact agreesAt_allowed link c _ f _ _ hjudge hhandled nofun rfl hkeeps
    | false =>
      rw [hfin] at hjudge hhandled
      exact agreesAt_allowed link c _ f _ _ hjudge hhandled nofun trivial rfl

end Data

/-- The client agrees at every frame while it keeps the message in progress. -/
theorem agreesAt (c : Client) (progress : Progress) (f : ParsedFrame) (hkeeps : Keeps (fragments c) progress) :
    AgreesAt link c progress f := by
  by_cases hcontrol : f.opcode = kOpPing ∨ f.opcode = kOpPong
  · exact agreesAt_control link c progress f hkeeps hcontrol
  by_cases hclose : f.opcode = kOpClose
  · exact agreesAt_close link c progress f hclose
  cases progress with
  | none => exact agreesAt_none link c f hcontrol hclose hkeeps
  | some m => exact agreesAt_some link c f hcontrol hclose m hkeeps

/-! ## The streams -/

/-- Frames are all followed exactly when each of them may stand where it does. -/
theorem allFollow_iff (kept : UInt8 × Bytes) (progress : Progress) (ts : List Taken)
    (hlinked : Linked link kept ts) (hkeeps : Keeps kept progress) :
    AllFollow progress ts ↔ AllAllowed progress (ts.map Prod.fst) := by
  induction ts generalizing kept progress with
  | nil => exact Iff.rfl
  | cons t rest ih =>
    obtain ⟨f, handled⟩ := t
    obtain ⟨⟨c, rfl, rfl⟩, hrest⟩ := hlinked
    obtain ⟨hfollows, hafter⟩ := agreesAt link c progress f hkeeps
    unfold AllFollow
    rw [List.map_cons]
    unfold AllAllowed
    rw [hfollows]
    refine and_congr_right fun hallowed => ?_
    have hkeeps' := hafter hallowed
    have hmatch := hfollows.mpr hallowed
    cases hjudge : judge progress f with
    | close | refuse => exact Iff.rfl
    | pass progress' =>
      rw [hjudge] at hkeeps' hmatch
      cases hhandled : c.handleFrame link f with
      | next c' =>
        rw [hhandled] at hkeeps' hrest
        exact ih _ progress' hrest hkeeps'
      | message | failed =>
        rw [hhandled] at hmatch
        exact hmatch.elim
    | deliver m =>
      rw [hjudge] at hkeeps' hmatch
      cases hhandled : c.handleFrame link f with
      | message m' c' =>
        rw [hhandled] at hkeeps' hrest
        exact ih _ none hrest hkeeps'
      | next | failed =>
        rw [hhandled] at hmatch
        exact hmatch.elim

/-- Whatever the stream and its cuts, the calls of `recv` do at every frame they take what the
protocol says: they pass over it, return the message it completes, or return -1. -/
def DeliversOnlyData (c : Client) (script : List ReadResult) : Prop :=
  ∀ n, AllFollow none (callsTaken link n c script) ∧
    ∀ r ∈ (recvCalls link n c script).1, ∃ ts, ts <:+: callsTaken link n c script ∧ Yields ts r

/-- Every call returns what the frames it took lead to. -/
theorem recvCalls_yield (n : ℕ) (c : Client) (script : List ReadResult) :
    ∀ r ∈ (recvCalls link n c script).1, ∃ ts, ts <:+: callsTaken link n c script ∧ Yields ts r := by
  induction n generalizing c script with
  | zero => exact fun _ h => nomatch h
  | succ n ih =>
    intro r hr
    unfold callsTaken
    cases List.mem_cons.mp hr with
    | inl heq =>
      rw [heq]
      exact ⟨callTaken link c script, (List.prefix_append _ _).isInfix, recv_yields link c script⟩
    | inr hrest =>
      obtain ⟨ts, hts, hyields⟩ := ih _ _ r hrest
      exact ⟨ts, hts.trans (List.suffix_append _ _).isInfix, hyields⟩

/-- Exactly when a client that has connected delivers only data messages: every frame that the
peer sends, up to the close frame, may stand where it does. -/
theorem deliversOnlyData_iff (sha1Raw : Bytes → Bytes) (c₀ c : Client) (host path : Bytes)
    (extraHeaders : List (Bytes × Bytes)) (err : Bytes) (script script' : List ReadResult)
    (hconnect : c₀.connect sha1Raw link host path extraHeaders err script = (.done, c, script')) :
    DeliversOnlyData link c script' ↔
      ∀ n, AllAllowed none ((callsTaken link n c script').map Prod.fst) := by
  obtain ⟨_, _, _, _, _, hfrag, _⟩ := connect_done link sha1Raw c₀ c host path extraHeaders err script script' hconnect
  refine forall_congr' fun n => ?_
  rw [and_iff_left (recvCalls_yield link n c script')]
  exact allFollow_iff link (fragments c) none _ (callsTaken_linked link n c script') hfrag

/-- The theorem at the example's frames. -/
theorem exampleScript_delivers :
    DeliversOnlyData exampleLink exampleConnect.2.1 exampleConnect.2.2 ↔
      ∀ n, AllAllowed none ((callsTaken exampleLink n exampleConnect.2.1 exampleConnect.2.2).map Prod.fst) := by
  refine deliversOnlyData_iff exampleLink exampleSha1 Client.init exampleConnect.2.1 (lit "host") (lit "/") []
    [] exampleScript exampleConnect.2.2 ?_
  exact Prod.ext exampleConnect_done rfl

/-! ## A message with opcode 0 -/

/-- A client that is open, with nothing received yet. -/
def freshClient : Client := { Client.init with isOpen := true }

/-- A continuation frame with FIN, and no message in progress. -/
def orphan : List ReadResult := [.data 0x80 [0x01, 0x61]]

/-- It is delivered as a message of opcode 0. -/
theorem orphan_delivered :
    (recvCalls exampleLink 1 freshClient orphan).1 = [.message ⟨0, [0x61]⟩] ∧
      ¬DeliversOnlyData exampleLink freshClient orphan := by
  let filled : Client := { freshClient with readBuf := [0x80, 0x01, 0x61] }
  have hempty : parseFrame freshClient.readBuf = .incomplete := by decide
  have hparse : parseFrame filled.readBuf = .complete ⟨true, 0, [0x61]⟩ [] := by decide
  have hstarved := drain_incomplete exampleLink freshClient hempty
  have hdrain : filled.drain exampleLink = .message ⟨0, [0x61]⟩ freshClient :=
    drain_complete exampleLink filled _ _ hparse
  have htaken : taken exampleLink filled = [(⟨true, 0, [0x61]⟩, .message ⟨0, [0x61]⟩ freshClient)] :=
    taken_complete exampleLink filled _ _ hparse
  have hloop : freshClient.recvLoop exampleLink orphan = (.message ⟨0, [0x61]⟩, freshClient, []) := by
    unfold orphan Client.recvLoop
    rw [hstarved]
    show filled.recvLoop exampleLink [] = _
    unfold Client.recvLoop
    rw [hdrain]
  have hcall : callTaken exampleLink freshClient orphan =
      [(⟨true, 0, [0x61]⟩, .message ⟨0, [0x61]⟩ freshClient)] := by
    show taken exampleLink freshClient ++ _ = _
    rw [taken_other exampleLink freshClient (by simp [hempty]), hstarved]
    exact htaken
  constructor
  · show [(freshClient.recvLoop exampleLink orphan).1] = _
    rw [hloop]
  · intro h
    have hfollow := (h 1).1
    unfold callsTaken at hfollow
    rw [hcall] at hfollow
    exact hfollow.1

end HaikuAgent.Analysis.WebSocketRefusals
