import HaikuAgent.Analysis.FrameCodec
import HaikuAgent.Analysis.WebSocketReception
import HaikuAgent.Foundation.Runs

/-!
# What the client writes

A connection over its whole life: any calls of `send`, `recv` and `close`, on a stream of frames
that is cut in any way and may break off anywhere, with writes that may fail.

What is written is the upgrade request and then frames of RFC 6455: those that were asked for, and
between them a pong for each ping and an echo of a close frame (`written_frames`). Nothing follows a
close frame or a write that failed.
-/

set_option autoImplicit false

namespace HaikuAgent.Analysis.WrittenFrames

open HaikuAgent.Foundation
open HaikuAgent.Model
open HaikuAgent.Model.WebSocket
open HaikuAgent.Interface.ServerFrames
open HaikuAgent.Analysis.WebSocketFrames
open HaikuAgent.Analysis.WebSocketReception (bytesOf headEnd_found readHead_done drain_incomplete drain_complete
  exampleTransmission exampleHead exampleLink exampleScript exampleConnect exampleConnect_done)
open HaikuAgent.Analysis.FrameCodec (Sending makeFrame_eq_encode)

/-! ## Calls -/

inductive Call where
  | send (opcode : UInt8) (payload : Bytes)
  | recv
  | close

/-- The client, and what its reads will give. -/
structure Connection where
  client : Client
  script : List ReadResult

def Connection.next (link : Link) (s : Connection) : Call → Connection
  | .send opcode payload => { s with client := (s.client.send link opcode payload).2 }
  | .recv => ⟨(s.client.recv link s.script).2.1, (s.client.recv link s.script).2.2⟩
  | .close => { s with client := s.client.close link }

/-- The opcode and the payload of a frame that a call asks for. -/
def Call.asks : Call → List (UInt8 × Bytes)
  | .send opcode payload => [(opcode, payload)]
  | .recv => []
  | .close => [(kOpClose, [0x03, 0xE8])]

/-- The call does not close the connection. -/
def Call.goes : Call → Bool
  | .close => false
  | _ => true

/-- What a frame of the server is answered with. -/
def answers (f : ServerFrame) : List (UInt8 × Bytes) :=
  if f.opcode = kOpPing then [(kOpPong, f.payload)]
  else if f.opcode = kOpClose then [(kOpClose, f.payload)]
  else []

/-- A frame that was written, because a call asked for it or as an answer. -/
inductive Told where
  | asked (f : Sending)
  | answered (f : Sending)

namespace Told

def sending : Told → Sending
  | asked f => f
  | answered f => f

/-- The frame as RFC 6455 has it. -/
def frame (t : Told) : ServerFrame := t.sending.frame

def whatAsked : Told → Option (UInt8 × Bytes)
  | asked f => some (f.opcode, f.payload)
  | answered _ => none

def whatAnswered : Told → Option (UInt8 × Bytes)
  | asked _ => none
  | answered f => some (f.opcode, f.payload)

end Told

/-! ## What a part of the connection does -/

/-- Between two states of the client: what was asked for, what was taken from the stream, and what was
told. All that is due is told while the client stays open. -/
structure Did (link : Link) (c c' : Client) (due : List (UInt8 × Bytes)) (taken : List ServerFrame) (told : List Told) :
    Prop where
  writes : c'.writes = c.writes ++ told.map fun t => t.frame.encode
  asked : told.filterMap Told.whatAsked <+: due
  answered : told.filterMap Told.whatAnswered <+: taken.flatMap answers
  whole : c'.isOpen = true → c.isOpen = true ∧ told.filterMap Told.whatAsked = due ∧
    told.filterMap Told.whatAnswered = taken.flatMap answers
  shut : c.isOpen = false → told = []
  last : ∀ l t r, told = l ++ t :: r → r ≠ [] ∨ c'.isOpen = true →
    t.frame.opcode ≠ kOpClose ∧ link.writeError (c.writes.length + l.length) = none

namespace Did

variable {link : Link} {c c' c'' : Client} {due due' : List (UInt8 × Bytes)} {taken taken' : List ServerFrame}
  {told told' : List Told}

/-- Nothing is written, and the client may be closed. -/
theorem quiet (hwrites : c'.writes = c.writes) (hopen : c'.isOpen = true → c.isOpen = true)
    (hanswers : taken.flatMap answers = []) : Did link c c' [] taken [] where
  writes := by rw [hwrites, List.map_nil, List.append_nil]
  asked := List.prefix_rfl
  answered := List.nil_prefix
  whole h := ⟨hopen h, rfl, hanswers.symm⟩
  shut _ := rfl
  last l t r h := absurd h.symm (List.append_ne_nil_of_right_ne_nil _ (List.cons_ne_nil _ _))

/-- Doing nothing. -/
theorem refl (link : Link) (c : Client) : Did link c c [] [] [] := quiet rfl id rfl

/-- A client that was shut stays shut. -/
theorem closed_of_shut (h : Did link c c' due taken told) (hshut : c.isOpen = false) : c'.isOpen = false := by
  rw [Bool.eq_false_iff]
  intro hopen
  rw [(h.whole hopen).1] at hshut
  cases hshut

/-- What is asked of a closed client comes to nothing. -/
theorem ignored (due : List (UInt8 × Bytes)) (hwrites : c'.writes = c.writes)
    (hstill : c'.isOpen = false) : Did link c c' due taken [] where
  writes := by rw [hwrites, List.map_nil, List.append_nil]
  asked := List.nil_prefix
  answered := List.nil_prefix
  whole h := absurd (hstill.symm.trans h) Bool.false_ne_true
  shut _ := rfl
  last l t r h := absurd h.symm (List.append_ne_nil_of_right_ne_nil _ (List.cons_ne_nil _ _))

/-- A prefix grows with what follows, or nothing follows. -/
theorem prefix_trans {α : Type} {l m due due' : List α} (hl : l <+: due) (hm : m <+: due') (h : l = due ∨ m = []) :
    l ++ m <+: due ++ due' := by
  obtain rfl | rfl := h
  · exact (List.prefix_append_right_inj _).mpr hm
  · rw [List.append_nil]
    exact hl.trans (List.prefix_append _ _)

/-- Two parts of a course make one. -/
theorem trans (h : Did link c c' due taken told) (h' : Did link c' c'' due' taken' told') :
    Did link c c'' (due ++ due') (taken ++ taken') (told ++ told') := by
  have hstops : c'.isOpen = true ∨ told' = [] := by
    cases hopen : c'.isOpen with
    | true => exact .inl rfl
    | false => exact .inr (h'.shut hopen)
  constructor
  · rw [h'.writes, h.writes, List.map_append, List.append_assoc]
  · rw [List.filterMap_append]
    refine prefix_trans h.asked h'.asked ?_
    obtain hopen | hnil := hstops
    · exact .inl (h.whole hopen).2.1
    · exact .inr (by rw [hnil]; rfl)
  · rw [List.filterMap_append, List.flatMap_append]
    refine prefix_trans h.answered h'.answered ?_
    obtain hopen | hnil := hstops
    · exact .inl (h.whole hopen).2.2
    · exact .inr (by rw [hnil]; rfl)
  · intro hopen
    obtain ⟨hopen', hasked', hanswered'⟩ := h'.whole hopen
    obtain ⟨hfirst, hasked, hanswered⟩ := h.whole hopen'
    rw [List.filterMap_append, List.filterMap_append, List.flatMap_append, hasked, hasked', hanswered, hanswered']
    exact ⟨hfirst, rfl, rfl⟩
  · intro hshut
    rw [h.shut hshut, h'.shut (h.closed_of_shut hshut)]
    rfl
  · intro l t r hsplit hgoes
    obtain ⟨m, rfl, hrest⟩ | ⟨m, hm, hrest⟩ := List.append_eq_append_iff.mp hsplit
    · have hlast := h'.last m t r hrest hgoes
      rw [h.writes, List.length_append, List.length_map] at hlast
      rw [List.length_append, ← Nat.add_assoc]
      exact hlast
    · cases m with
      | nil =>
        have hlast := h'.last [] t r hrest.symm hgoes
        rw [List.append_nil] at hm
        rw [h.writes, List.length_append, List.length_map, hm] at hlast
        exact hlast
      | cons first m =>
        obtain ⟨rfl, rfl⟩ := List.cons.inj hrest
        refine h.last l t m hm ?_
        obtain hopen | rfl := hstops
        · exact .inr hopen
        · rw [List.append_eq, List.append_nil] at hgoes
          obtain hmore | hopen := hgoes
          · exact .inl hmore
          · exact .inr (h'.whole hopen).1

end Did

/-! ## A frame that is sent -/

/-- What is due can be told: the opcode fits, and the payload is no larger than a frame's. -/
def Tellable (due : UInt8 × Bytes) : Prop := due.1 < 16 ∧ due.2.length ≤ 1024 * 1024

/-- A frame goes out if the client is open, and a write that fails closes it. -/
theorem send_cases (link : Link) (c : Client) (due : UInt8 × Bytes) (h : Tellable due) :
    (c.isOpen = false ∧ (c.send link due.1 due.2).2 = c) ∨
    c.isOpen = true ∧ ∃ f : Sending, (f.opcode, f.payload) = due ∧
      (c.send link due.1 due.2).2.writes = c.writes ++ [f.frame.encode] ∧
      (c.send link due.1 due.2).2.isOpen = (link.writeError c.writes.length).isNone := by
  unfold Client.send
  cases hopen : c.isOpen with
  | false => exact .inl ⟨rfl, rfl⟩
  | true =>
    refine .inr ⟨rfl, ?_⟩
    rw [Bool.not_true, if_neg Bool.false_ne_true]
    dsimp only
    have hmask : (if (link.mask c.writes.length).length ≠ 4 then List.replicate 4 0x5A
        else link.mask c.writes.length).length = 4 := by
      split_ifs with hlength
      · rfl
      · exact not_not.mp hlength
    generalize (if (link.mask c.writes.length).length ≠ 4 then List.replicate 4 0x5A else link.mask c.writes.length) = mask
      at hmask ⊢
    let f : Sending := ⟨due.1, ⟨mask.toArray, hmask⟩, due.2, h.1, h.2⟩
    have htext : makeFrame due.1 due.2 mask = f.frame.encode := makeFrame_eq_encode f
    rw [htext]
    refine ⟨f, rfl, ?_⟩
    unfold Client.write
    cases link.writeError c.writes.length with
    | some err => exact ⟨rfl, rfl⟩
    | none => exact ⟨rfl, hopen⟩

variable {link : Link} {c c' : Client}

/-- A frame that goes out at the end of a step. -/
theorem did_told {t : Told} {due : List (UInt8 × Bytes)} {taken : List ServerFrame} (hopen : c.isOpen = true)
    (hwrites : c'.writes = c.writes ++ [t.frame.encode]) (hasked : [t].filterMap Told.whatAsked = due)
    (hanswered : [t].filterMap Told.whatAnswered = taken.flatMap answers)
    (hgoes : c'.isOpen = true → t.frame.opcode ≠ kOpClose ∧ link.writeError c.writes.length = none) :
    Did link c c' due taken [t] where
  writes := hwrites
  asked := by rw [hasked]
  answered := by rw [hanswered]
  whole _ := ⟨hopen, hasked, hanswered⟩
  shut hshut := absurd (hshut.symm.trans hopen) Bool.false_ne_true
  last l u r hsplit h := by
    obtain ⟨rfl, hrest⟩ | ⟨l, rfl, hrest⟩ := List.cons_eq_append_iff.mp hsplit
    · obtain ⟨rfl, rfl⟩ := List.cons.inj hrest
      obtain hmore | hopen' := h
      · exact absurd rfl hmore
      · exact hgoes hopen'
    · exact absurd hrest.symm (List.append_ne_nil_of_right_ne_nil _ (List.cons_ne_nil _ _))

/-- A message that may be told is sent, and told when it goes out. -/
theorem did_send (link : Link) (c : Client) (opcode : UInt8) (payload : Bytes)
    (h : Tellable (opcode, payload)) (hgoes : opcode ≠ kOpClose) :
    ∃ told, Did link c (c.send link opcode payload).2 [(opcode, payload)] [] told := by
  obtain ⟨hshut, hsame⟩ | ⟨hopen, f, hdue, hwrites, hstays⟩ := send_cases link c (opcode, payload) h
  · dsimp only at hsame
    rw [hsame]
    exact ⟨[], .ignored _ rfl hshut⟩
  · refine ⟨[.asked f], did_told hopen hwrites (congrArg (fun due => [due]) hdue) rfl ?_⟩
    intro hopen'
    rw [hstays, Option.isNone_iff_eq_none] at hopen'
    obtain ⟨hopcode, -⟩ := Prod.mk.inj hdue
    exact ⟨fun hclose => hgoes (hopcode.symm.trans hclose), hopen'⟩

/-- Closing sends the closing frame. -/
theorem did_close (link : Link) (c : Client) : ∃ told, Did link c (c.close link) [(kOpClose, [0x03, 0xE8])] [] told := by
  unfold Client.close
  obtain ⟨hshut, -⟩ | ⟨hopen, f, hdue, hwrites, -⟩ :=
    send_cases link c (kOpClose, [0x03, 0xE8]) ⟨by decide, by decide⟩
  · rw [hshut, if_neg Bool.false_ne_true]
    exact ⟨[], .ignored _ rfl rfl⟩
  · rw [hopen, if_pos rfl]
    exact ⟨[.asked f], did_told hopen hwrites (congrArg (fun due => [due]) hdue) rfl fun h => absurd h Bool.false_ne_true⟩

/-! ## Frames that are taken -/

/-- The client that `switch` leaves. -/
def clientOf : Handled → Client
  | .next c => c
  | .message _ c => c
  | .failed _ c => c

/-- A frame that calls for an answer is answered. -/
theorem did_answer {f : ServerFrame} {opcode : UInt8} (hanswers : answers f = [(opcode, f.payload)])
    (hopcode : opcode < 16) (hwrites : c'.writes = (c.send link opcode f.payload).2.writes)
    (hstays : c'.isOpen = true → opcode ≠ kOpClose ∧ (c.send link opcode f.payload).2.isOpen = true) :
    ∃ told, Did link c c' [] [f] told := by
  have htaken : [f].flatMap answers = [(opcode, f.payload)] := by rw [List.flatMap_singleton, hanswers]
  obtain ⟨hshut, hsame⟩ | ⟨hopen, g, hdue, hsent, hopen'⟩ := send_cases link c (opcode, f.payload) ⟨hopcode, f.size⟩
  · dsimp only at hsame
    rw [hsame] at hwrites hstays
    refine ⟨[], .ignored _ hwrites ?_⟩
    rw [Bool.eq_false_iff]
    intro h
    exact absurd (hshut.symm.trans (hstays h).2) Bool.false_ne_true
  · refine ⟨[.answered g], did_told hopen (hwrites.trans hsent) rfl ?_ ?_⟩
    · rw [htaken, ← hdue]
      rfl
    · intro h
      obtain ⟨hgoes, hstill⟩ := hstays h
      rw [hopen', Option.isNone_iff_eq_none] at hstill
      obtain ⟨hsame, -⟩ := Prod.mk.inj hdue
      exact ⟨fun hclose => hgoes (hsame.symm.trans hclose), hstill⟩

/-- Handling a frame takes it and answers as it should. -/
theorem did_handleFrame (link : Link) (c : Client) (f : ServerFrame) :
    ∃ told, Did link c (clientOf (c.handleFrame link (view f))) [] [f] told := by
  unfold Client.handleFrame
  dsimp only
  have hopcode : (view f).opcode = f.opcode := rfl
  rw [hopcode]
  split_ifs with hping hpong hclose hcontinuation hfin hsplit
  · refine did_answer (if_pos hping) (by decide) rfl ?_
    intro hopen
    exact ⟨by decide, hopen⟩
  · have hnone : [f].flatMap answers = [] := by
      rw [List.flatMap_singleton, answers, if_neg hping, if_neg (by rw [hpong]; decide)]
    exact ⟨[], .quiet rfl id hnone⟩
  · refine did_answer ((if_neg hping).trans (if_pos hclose)) (by decide) rfl ?_
    intro hopen
    cases hopen
  all_goals
    have hnone : [f].flatMap answers = [] := by
      rw [List.flatMap_singleton, answers, if_neg hping, if_neg hclose]
    exact ⟨[], .quiet rfl id hnone⟩

/-- Handling a frame leaves the buffer alone. -/
theorem readBuf_handled (link : Link) (c : Client) (f : ParsedFrame) :
    (clientOf (c.handleFrame link f)).readBuf = c.readBuf := by
  unfold Client.handleFrame
  dsimp only
  split_ifs
  · exact c.readBuf_send link kOpPong f.payload
  · rfl
  · exact c.readBuf_send link kOpClose f.payload
  · rfl
  · rfl
  · rfl
  · rfl

/-! ## Calls of `recv` -/

/-- Frames are taken off the front of the stream, of which `later` has not been read. -/
structure Took (link : Link) (c c' : Client) (later later' : Bytes) (frames : List ServerFrame) (taken : List ServerFrame)
    (rest : List ServerFrame) (told : List Told) : Prop where
  frames_eq : frames = taken ++ rest
  did : Did link c c' [] taken told
  stream : c'.readBuf ++ later' = rest.flatMap ServerFrame.encode

/-- Two takings in a row make one. -/
theorem Took.trans {c'' : Client} {later later' later'' : Bytes} {frames taken taken' rest rest' : List ServerFrame}
    {told told' : List Told} (h : Took link c c' later later' frames taken rest told)
    (h' : Took link c' c'' later' later'' rest taken' rest' told') :
    Took link c c'' later later'' frames (taken ++ taken') rest' (told ++ told') :=
  ⟨by rw [h.frames_eq, h'.frames_eq, List.append_assoc], h.did.trans h'.did, h'.stream⟩

/-- Nothing is taken. -/
theorem Took.none {later later' : Bytes} {frames : List ServerFrame} (hwrites : c'.writes = c.writes)
    (hopen : c'.isOpen = true → c.isOpen = true) (hstream : c'.readBuf ++ later' = frames.flatMap ServerFrame.encode) :
    Took link c c' later later' frames [] frames [] :=
  ⟨rfl, .quiet hwrites hopen rfl, hstream⟩

/-- The client that the frames in the buffer leave. -/
def leftBy : Drained → Client
  | .starved c => c
  | .message _ c => c
  | .failed _ c => c

/-- A drain takes whole frames from the front of the stream. -/
theorem drain_took (link : Link) (frames : List ServerFrame) (c : Client) (later : Bytes)
    (hstream : c.readBuf ++ later = frames.flatMap ServerFrame.encode) :
    ∃ taken rest told, Took link c (leftBy (c.drain link)) later later frames taken rest told := by
  induction frames generalizing c with
  | nil =>
    have hempty : c.readBuf = [] := (List.append_eq_nil_iff.mp hstream).1
    have hparse : parseFrame c.readBuf = .incomplete := by
      rw [hempty]
      rfl
    rw [drain_incomplete link c hparse]
    exact ⟨[], [], [], .none rfl id hstream⟩
  | cons f frames ih =>
    have hfront := hstream
    rw [List.flatMap_cons] at hfront
    obtain ⟨rest, hparse, hrest⟩ | ⟨hparse, -⟩ := parseFrame_delimits.scan_front f c.readBuf later _ hfront
    · obtain ⟨told, hdid⟩ := did_handleFrame link { c with readBuf := rest } f
      have hbuf := readBuf_handled link { c with readBuf := rest } (view f)
      have hone : Took link c (clientOf ({ c with readBuf := rest }.handleFrame link (view f))) later later (f :: frames)
          [f] frames told := by
        have hread : Did link c { c with readBuf := rest } [] [] [] := .quiet rfl id rfl
        exact ⟨rfl, hread.trans hdid, by rw [hbuf]; exact hrest⟩
      rw [drain_complete link c (view f) rest hparse]
      generalize { c with readBuf := rest }.handleFrame link (view f) = handled at hone ⊢
      cases handled with
      | next c' =>
        obtain ⟨taken, rest', told', htook⟩ := ih c' hone.stream
        exact ⟨_, _, _, hone.trans htook⟩
      | message m c' => exact ⟨_, _, _, hone⟩
      | failed err c' => exact ⟨_, _, _, hone⟩
    · rw [drain_incomplete link c hparse]
      exact ⟨[], f :: frames, [], .none rfl id hstream⟩

/-- A receive loop takes whole frames from the front of the stream. -/
theorem recvLoop_took (link : Link) (script : List ReadResult) (frames : List ServerFrame) (c : Client) (later : Bytes)
    (hstream : c.readBuf ++ (bytesOf script ++ later) = frames.flatMap ServerFrame.encode) :
    ∃ taken rest told, Took link c (c.recvLoop link script).2.1 (bytesOf script ++ later)
      (bytesOf (c.recvLoop link script).2.2 ++ later) frames taken rest told := by
  induction script generalizing c frames with
  | nil =>
    obtain ⟨taken, rest, told, htook⟩ := drain_took link frames c _ hstream
    unfold Client.recvLoop
    cases hdrain : c.drain link with
    | starved c' =>
      rw [hdrain] at htook
      exact ⟨taken, rest, told, htook⟩
    | message m c' =>
      rw [hdrain] at htook
      exact ⟨taken, rest, told, htook⟩
    | failed err c' =>
      rw [hdrain] at htook
      exact ⟨taken, rest, told, htook⟩
  | cons r script ih =>
    obtain ⟨taken, rest, told, htook⟩ := drain_took link frames c _ hstream
    unfold Client.recvLoop
    cases hdrain : c.drain link with
    | message m c' =>
      rw [hdrain] at htook
      exact ⟨taken, rest, told, htook⟩
    | failed err c' =>
      rw [hdrain] at htook
      exact ⟨taken, rest, told, htook⟩
    | starved c' =>
      rw [hdrain] at htook
      cases r with
      | timeout => exact ⟨taken, rest, told, htook⟩
      | closed =>
        have hend : Took link c' { c' with isOpen := false } (bytesOf (.closed :: script) ++ later)
            (bytesOf script ++ later) rest [] rest [] :=
          .none rfl (fun h => absurd h Bool.false_ne_true) htook.stream
        exact ⟨_, _, _, htook.trans hend⟩
      | failed err =>
        have hend : Took link c' { c' with isOpen := false } (bytesOf (.failed err :: script) ++ later)
            (bytesOf script ++ later) rest [] rest [] :=
          .none rfl (fun h => absurd h Bool.false_ne_true) htook.stream
        exact ⟨_, _, _, htook.trans hend⟩
      | data first more =>
        have hmoved : (c'.readBuf ++ first :: more) ++ (bytesOf script ++ later) = rest.flatMap ServerFrame.encode := by
          rw [← htook.stream]
          simp only [leftBy, bytesOf, List.append_assoc, List.cons_append]
        obtain ⟨taken', rest', told', htook'⟩ := ih rest { c' with readBuf := c'.readBuf ++ first :: more } hmoved
        have hread : Took link c' { c' with readBuf := c'.readBuf ++ first :: more }
            (bytesOf (.data first more :: script) ++ later) (bytesOf script ++ later) rest [] rest [] :=
          .none rfl id hmoved
        exact ⟨_, _, _, htook.trans (hread.trans htook')⟩

/-! ## The whole connection -/

/-- What has been done of a connection so far: `rest` of the frames is what the client has not taken yet. -/
structure SoFar (link : Link) (c : Client) (s : Connection) (later : Bytes) (frames : List ServerFrame)
    (due : List (UInt8 × Bytes)) (taken rest : List ServerFrame) (told : List Told) : Prop where
  did : Did link c s.client due taken told
  frames_eq : frames = taken ++ rest
  stream : s.client.readBuf ++ (bytesOf s.script ++ later) = rest.flatMap ServerFrame.encode

/-- **The step**: a call before the first `close` does what it is due to do. -/
theorem soFar_next {s : Connection} {later : Bytes} {frames taken rest : List ServerFrame} {due : List (UInt8 × Bytes)}
    {told : List Told} (h : SoFar link c s later frames due taken rest told) (call : Call)
    (hgoes : call.goes = true)
    (hcall : ∀ opcode payload, call = .send opcode payload → Tellable (opcode, payload) ∧ opcode ≠ kOpClose) :
    ∃ taken' rest' told', SoFar link c (s.next link call) later frames (due ++ call.asks) taken' rest' told' := by
  cases call with
  | send opcode payload =>
    obtain ⟨htellable, hopcode⟩ := hcall opcode payload rfl
    obtain ⟨more, hdid⟩ := did_send link s.client opcode payload htellable hopcode
    have hboth := h.did.trans hdid
    rw [List.append_nil] at hboth
    refine ⟨taken, rest, told ++ more, hboth, h.frames_eq, ?_⟩
    rw [← h.stream]
    exact congrArg (· ++ _) (s.client.readBuf_send link opcode payload)
  | close => cases hgoes
  | recv =>
    rw [Call.asks, List.append_nil]
    unfold Connection.next Client.recv
    dsimp only
    cases hopen : s.client.isOpen with
    | false =>
      rw [Bool.not_false, if_pos rfl]
      exact ⟨taken, rest, told, h⟩
    | true =>
      rw [Bool.not_true, if_neg Bool.false_ne_true]
      obtain ⟨taken', rest', told', htook⟩ := recvLoop_took link s.script rest s.client later h.stream
      have hsplit : frames = (taken ++ taken') ++ rest' := by rw [h.frames_eq, htook.frames_eq, List.append_assoc]
      have hboth := h.did.trans htook.did
      rw [List.append_nil] at hboth
      exact ⟨taken ++ taken', rest', told ++ told', hboth, hsplit, htook.stream⟩

/-- **The run** up to the first `close`. -/
theorem soFar_run (calls : List Call) (hgo : ∀ call ∈ calls, call.goes = true)
    (hcalls : ∀ opcode payload, .send opcode payload ∈ calls → Tellable (opcode, payload) ∧ opcode ≠ kOpClose)
    {s : Connection} {later : Bytes} {frames taken rest : List ServerFrame} {due : List (UInt8 × Bytes)} {told : List Told}
    (h : SoFar link c s later frames due taken rest told) :
    ∃ taken' rest' told', SoFar link c (runFrom (Connection.next link) s calls) later frames
      (due ++ calls.flatMap Call.asks) taken' rest' told' := by
  induction calls generalizing s due taken rest told with
  | nil =>
    rw [List.flatMap_nil, List.append_nil]
    exact ⟨taken, rest, told, h⟩
  | cons call calls ih =>
    obtain ⟨taken', rest', told', hnext⟩ := soFar_next h call (hgo call List.mem_cons_self) fun opcode payload heq =>
      hcalls opcode payload (heq ▸ List.mem_cons_self)
    rw [List.flatMap_cons, ← List.append_assoc, runFrom_cons]
    exact ih (fun call' hmem => hgo call' (List.mem_cons_of_mem _ hmem))
      (fun opcode payload hmem => hcalls opcode payload (List.mem_cons_of_mem _ hmem)) hnext

/-- A client that is closed stays so and writes nothing. -/
theorem closed_run (link : Link) (calls : List Call) {s : Connection} (hclosed : s.client.isOpen = false) :
    (runFrom (Connection.next link) s calls).client.writes = s.client.writes ∧
      (runFrom (Connection.next link) s calls).client.isOpen = false := by
  induction calls generalizing s with
  | nil => exact ⟨rfl, hclosed⟩
  | cons call calls ih =>
    have hcall : (s.next link call).client.writes = s.client.writes ∧ (s.next link call).client.isOpen = false := by
      cases call with
      | send opcode payload =>
        unfold Connection.next Client.send
        dsimp only
        rw [hclosed, Bool.not_false, if_pos rfl]
        exact ⟨rfl, hclosed⟩
      | recv =>
        unfold Connection.next Client.recv
        dsimp only
        rw [hclosed, Bool.not_false, if_pos rfl]
        exact ⟨rfl, hclosed⟩
      | close =>
        unfold Connection.next Client.close
        dsimp only
        rw [hclosed, if_neg Bool.false_ne_true]
        exact ⟨rfl, rfl⟩
    rw [runFrom_cons]
    obtain ⟨hwrites, hstill⟩ := ih hcall.2
    exact ⟨hwrites.trans hcall.1, hstill⟩

/-- From a `close` on, its frame is all that is written. -/
theorem did_after (link : Link) (s : Connection) (after : List Call) (hafter : ∀ call ∈ after.head?, call.goes = false) :
    ∃ told, Did link s.client (runFrom (Connection.next link) s after).client (after.flatMap Call.asks) [] told := by
  cases after with
  | nil => exact ⟨[], .refl link s.client⟩
  | cons call after =>
    have hclose : call = .close := by
      cases call with
      | close => rfl
      | send opcode payload => cases hafter _ rfl
      | recv => cases hafter _ rfl
    subst hclose
    obtain ⟨told, hdid⟩ := did_close link s.client
    obtain ⟨hwrites, hstill⟩ := closed_run link after (s := s.next link .close) rfl
    have hrest := @Did.ignored link _ _ [] (after.flatMap Call.asks) hwrites hstill
    exact ⟨told ++ [], hdid.trans hrest⟩

section Connect

variable (link : Link) {sha1Raw : Bytes → Bytes} {host path err : Bytes} {extraHeaders : List (Bytes × Bytes)}
  {script script' : List ReadResult} {c : Client}
  (hconnect : Client.init.connect sha1Raw link host path extraHeaders err script = (.done, c, script'))

include hconnect

/-- The opening handshake writes the upgrade request and nothing else. -/
theorem connect_writes : c.writes = [upgradeRequest host path (base64Encode link.keyRaw) extraHeaders] := by
  unfold Client.connect Client.write at hconnect
  have hclosed : (Client.init.close link).writes = [] := rfl
  dsimp only at hconnect
  rw [hclosed] at hconnect
  cases hsocket : link.connectError with
  | some socketErr =>
    rw [hsocket] at hconnect
    cases hconnect
  | none =>
    rw [hsocket] at hconnect
    dsimp only at hconnect
    by_cases hkey : link.keyRaw.length ≠ 16
    · rw [if_pos hkey] at hconnect
      cases hconnect
    rw [if_neg hkey] at hconnect
    cases hwrite : link.writeError ([] : List Bytes).length with
    | some writeErr =>
      rw [hwrite] at hconnect
      cases hconnect
    | none =>
      rw [hwrite] at hconnect
      dsimp only at hconnect
      rcases hread : readHead err [] script with ⟨outcome, head, rest⟩
      rw [hread] at hconnect
      cases outcome with
      | failed readErr => cases hconnect
      | waiting => cases hconnect
      | done =>
        unfold Client.upgrade at hconnect
        dsimp only at hconnect
        cases hcheck : checkHead sha1Raw (base64Encode link.keyRaw) (head.take ((find head headEnd 0).getD 0)) with
        | some checkErr =>
          rw [hcheck] at hconnect
          cases hconnect
        | none =>
          rw [hcheck] at hconnect
          cases hconnect
          rfl

/-- Behind the response head the frames begin. -/
theorem connect_stream {head later : Bytes} {frames : List ServerFrame}
    (hhead : find (head ++ headEnd) headEnd 0 = some head.length)
    (hstream : bytesOf script ++ later = head ++ headEnd ++ frames.flatMap ServerFrame.encode) :
    c.readBuf ++ (bytesOf script' ++ later) = frames.flatMap ServerFrame.encode := by
  obtain ⟨read, i, hread, hfind, hbuf, -, -⟩ :=
    WebSocketReception.connect_done link sha1Raw Client.init c host path extraHeaders err script script' hconnect
  obtain ⟨hbytes, -, -⟩ := readHead_done err [] read script script' hread
  rw [List.nil_append] at hbytes
  rw [← hbytes, List.append_assoc] at hstream
  obtain ⟨hi, hfits⟩ := headEnd_found head read _ _ i hhead hstream hfind
  have hrest := congrArg (List.drop (i + 4)) hstream
  rw [List.drop_append_of_le_length hfits, hi, List.drop_left' (by simp [headEnd])] at hrest
  rw [hbuf, hi]
  exact hrest

/-- What the client has done of the calls, and the frames it has not taken when it is first closed. -/
theorem did_calls {head later : Bytes} {frames : List ServerFrame}
    (hhead : find (head ++ headEnd) headEnd 0 = some head.length)
    (hstream : bytesOf script ++ later = head ++ headEnd ++ frames.flatMap ServerFrame.encode) (calls : List Call)
    (hcalls : ∀ opcode payload, .send opcode payload ∈ calls → Tellable (opcode, payload) ∧ opcode ≠ kOpClose) :
    let s := runFrom (Connection.next link) ⟨c, script'⟩ calls
    let unclosed := runFrom (Connection.next link) ⟨c, script'⟩ (calls.takeWhile Call.goes)
    ∃ taken rest told, frames = taken ++ rest ∧
      unclosed.client.readBuf ++ (bytesOf unclosed.script ++ later) = rest.flatMap ServerFrame.encode ∧
      Did link c s.client (calls.flatMap Call.asks) taken told := by
  intro s unclosed
  have hsplit := List.takeWhile_append_dropWhile (p := Call.goes) (l := calls)
  have hrest := connect_stream link hconnect hhead hstream
  have hstart : SoFar link c ⟨c, script'⟩ later frames [] [] frames [] := ⟨.refl link c, rfl, hrest⟩
  obtain ⟨taken, rest, told, hsofar⟩ := soFar_run (calls.takeWhile Call.goes) (fun call hmem => List.mem_takeWhile_imp hmem)
    (fun opcode payload hmem => hcalls opcode payload ((List.takeWhile_prefix _).subset hmem)) hstart
  obtain ⟨more, hafter⟩ := did_after link unclosed (calls.dropWhile Call.goes) fun call hcall => by
    have hhead := List.head?_dropWhile_not Call.goes calls
    rw [Option.mem_def.mp hcall] at hhead
    simpa using hhead
  have hdid := hsofar.did.trans hafter
  have hs : runFrom (Connection.next link) unclosed (calls.dropWhile Call.goes) = s := by
    unfold s unclosed
    rw [← runFrom_append, hsplit]
  rw [hs, List.nil_append, ← List.flatMap_append, hsplit, List.append_nil] at hdid
  exact ⟨taken, rest, told ++ more, hsofar.frames_eq, hsofar.stream, hdid⟩

/-- **What is written.** From the upgrade on, whatever is called and wherever the stream breaks off or a
write fails, the client writes frames: an initial part of what it was asked for, and of the answers to
the frames that it has taken off the stream, in order; all of both as long as it is open. The frames that
it has not taken when it is first closed are in its buffer then or still to come. Nothing follows a close
frame or a write that failed.
SRC: websocket.cpp:24-46, 93-253 -/
theorem written_frames {head later : Bytes} {frames : List ServerFrame}
    (hhead : find (head ++ headEnd) headEnd 0 = some head.length)
    (hstream : bytesOf script ++ later = head ++ headEnd ++ frames.flatMap ServerFrame.encode) (calls : List Call)
    (hcalls : ∀ opcode payload, .send opcode payload ∈ calls → Tellable (opcode, payload) ∧ opcode ≠ kOpClose) :
    let s := runFrom (Connection.next link) ⟨c, script'⟩ calls
    let unclosed := runFrom (Connection.next link) ⟨c, script'⟩ (calls.takeWhile Call.goes)
    ∃ taken rest told, frames = taken ++ rest ∧
      unclosed.client.readBuf ++ (bytesOf unclosed.script ++ later) = rest.flatMap ServerFrame.encode ∧
      s.client.writes = upgradeRequest host path (base64Encode link.keyRaw) extraHeaders ::
        told.map (fun t => t.frame.encode) ∧
      told.filterMap Told.whatAsked <+: calls.flatMap Call.asks ∧
      told.filterMap Told.whatAnswered <+: taken.flatMap answers ∧
      (s.client.isOpen = true → told.filterMap Told.whatAsked = calls.flatMap Call.asks ∧
        told.filterMap Told.whatAnswered = taken.flatMap answers) ∧
      ∀ l t r, told = l ++ t :: r → r ≠ [] → t.frame.opcode ≠ kOpClose ∧ link.writeError (1 + l.length) = none := by
  intro s unclosed
  obtain ⟨taken, rest, told, hframes, hrest, hdid⟩ := did_calls link hconnect hhead hstream calls hcalls
  have hwrites := hdid.writes
  have hlast := hdid.last
  rw [connect_writes link hconnect] at hwrites hlast
  refine ⟨taken, rest, told, hframes, hrest, hwrites, hdid.asked, hdid.answered, ?_, ?_⟩
  · intro hopen
    exact (hdid.whole hopen).2
  · intro l t r hsplit hmore
    exact hlast l t r hsplit (.inl hmore)

end Connect

/-! ## A ping that is answered -/

def exampleCalls : List Call := [.send kOpText (lit "open"), .recv, .recv, .recv, .close]

/-- The theorem at the example's calls. -/
theorem exampleCalls_written :
    let s := runFrom (Connection.next exampleLink) ⟨exampleConnect.2.1, exampleConnect.2.2⟩ exampleCalls
    let unclosed := runFrom (Connection.next exampleLink) ⟨exampleConnect.2.1, exampleConnect.2.2⟩
      (exampleCalls.takeWhile Call.goes)
    ∃ taken rest told, exampleTransmission.frames = taken ++ rest ∧
      unclosed.client.readBuf ++ (bytesOf unclosed.script ++ []) = rest.flatMap ServerFrame.encode ∧
      s.client.writes = upgradeRequest (lit "host") (lit "/") (base64Encode exampleLink.keyRaw) [] ::
        told.map (fun t => t.frame.encode) ∧
      told.filterMap Told.whatAsked <+: [(kOpText, lit "open"), (kOpClose, [0x03, 0xE8])] ∧
      told.filterMap Told.whatAnswered <+: taken.flatMap answers ∧
      (s.client.isOpen = true → told.filterMap Told.whatAsked = [(kOpText, lit "open"), (kOpClose, [0x03, 0xE8])] ∧
        told.filterMap Told.whatAnswered = taken.flatMap answers) ∧
      ∀ l t r, told = l ++ t :: r → r ≠ [] → t.frame.opcode ≠ kOpClose ∧ exampleLink.writeError (1 + l.length) = none := by
  have hcalls : ∀ opcode payload, Call.send opcode payload ∈ exampleCalls →
      Tellable (opcode, payload) ∧ opcode ≠ kOpClose := by
    intro opcode payload hmem
    simp only [exampleCalls, List.mem_cons, Call.send.injEq, reduceCtorEq, List.not_mem_nil, or_false] at hmem
    obtain ⟨rfl, rfl⟩ := hmem
    exact ⟨⟨by decide, by decide⟩, by decide⟩
  have hstream : bytesOf exampleScript ++ [] =
      exampleHead ++ headEnd ++ exampleTransmission.frames.flatMap ServerFrame.encode := by decide +kernel
  exact written_frames exampleLink (Prod.ext exampleConnect_done rfl) (by decide +kernel) hstream exampleCalls hcalls

end HaikuAgent.Analysis.WrittenFrames
