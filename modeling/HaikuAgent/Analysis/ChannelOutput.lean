import HaikuAgent.Analysis.ChannelInput
import HaikuAgent.Analysis.OutputDelivery

/-!
# From the shell to the channel

What a session sends is what its client is asked for (`Speaks`), so what the client writes are frames
with the messages of the session, in order. A client at the other end that puts the messages together
has a first part of what the shell printed (`output_over_channel`).
-/

set_option autoImplicit false

namespace HaikuAgent.Analysis.ChannelOutput

open HaikuAgent.Foundation
open HaikuAgent.Model
open HaikuAgent.Model.Mgs
open HaikuAgent.Model.Sessions
open HaikuAgent.Model.SessionChannel
open HaikuAgent.Model.WebSocket
open HaikuAgent.Interface.ServerFrames
open HaikuAgent.Analysis.AckedInput (exampleRequest)
open HaikuAgent.Analysis.ChannelInput
open HaikuAgent.Analysis.OutputDelivery
open HaikuAgent.Analysis.SessionMoves
open HaikuAgent.Analysis.WebSocketReception (bytesOf exampleHead exampleLink)
open HaikuAgent.Analysis.WrittenFrames

/-! ## What is added to the log -/

section Log

variable {env : Env} {P : Act → Prop} {s t u : Session} {output : List Bytes}

/-- Acts write on at the end of the log. -/
theorem log_perform (s : Session) (act : Act) : s.log <+: (perform env s act).log := by
  cases act with
  | stream payloadType data => exact List.prefix_append _ _
  | control messageType payload => exact List.prefix_append _ _
  | pump nowMs =>
    unfold perform Session.pumpOutbox
    dsimp only
    split_ifs
    · exact List.prefix_rfl
    · cases (s.outbox.dueResend nowMs).1 with
      | none => exact List.prefix_rfl
      | some frame => exact List.prefix_append _ _
  | release seq => exact List.prefix_rfl
  | note a => exact List.prefix_append _ _
  | locals phase handshakeSeq nextExpected lastClientActivity => exact List.prefix_rfl

/-- Whatever a session does, its log only grows. -/
theorem log_does (h : Does env P s output t) : s.log <+: t.log :=
  h.invariant (I := fun u => s.log <+: u.log) (fun u act _ hu => hu.trans (log_perform u act)) List.prefix_rfl

/-- The frames of a session are those of before and those added since. -/
theorem frames_since (env : Env) (h : s.log <+: t.log) : frames env t = frames env s ++ framesSince env s t := by
  obtain ⟨more, hmore⟩ := h
  unfold frames framesSince
  rw [← hmore, List.drop_left, List.filterMap_append]

/-- What is added in two parts is added together. -/
theorem framesSince_trans (h : s.log <+: t.log) (h' : t.log <+: u.log) :
    framesSince env s t ++ framesSince env t u = framesSince env s u := by
  have hall := frames_since env (h.trans h')
  rw [frames_since env h', frames_since env h, List.append_assoc] at hall
  exact List.append_cancel_left hall

end Log

variable (env : Env) (sr : StartRequest)

/-- Handling a message in the handshake is made of acts. -/
theorem handleHandshake_does (s : Session) (p : Pass) (m : AgentMessage) :
    Does env Works s [] (s.handleHandshake env sr p m) := by
  obtain ⟨t, hdoes, hgoes | hends | ⟨-, -, -, hstarts⟩⟩ := handleHandshake_moves env sr s p m
  · rw [hgoes]
    exact hdoes.mono works_of_listens
  · rw [hends]
    exact (hdoes.mono works_of_listens).trans (setPhase_does env t .ended)
  · rw [hstarts]
    have htaken := (hdoes.mono works_of_listens).step (a := .note (.accept m)) (.inr (.inl ⟨m, rfl⟩)) rfl
    have hresponded := htaken.step (a := .locals t.phase m.sequence.toInt t.nextExpected t.lastClientActivity) trivial rfl
    exact hresponded.trans (startShell_does env sr _ p)

/-- So is handling one in the main loop. -/
theorem handleMain_does (s : Session) (p : Pass) (m : AgentMessage) (hmain : s.phase = .main) :
    Does env Works s [] (s.handleMain env sr p m) := by
  obtain ⟨t, hdoes, hgoes | hends | ⟨phase, -, -, -, hleaves⟩⟩ := handleMain_moves env sr s p m hmain
  · rw [hgoes]
    exact hdoes.mono works_of_bridges
  · rw [hends]
    exact (hdoes.mono works_of_bridges).trans (teardown_does env sr t p)
  · rw [hleaves]
    exact (hdoes.mono works_of_bridges).trans (setPhase_does env t phase)

/-- What a pass does with what it is given comes after the rest. -/
theorem rest_does {s : Session} {p : Pass} (hgoes : Goes s.phase)
    (hstays : (s.step env sr (given p .nothing)).phase = s.phase) (recv : Recv) :
    Does env Works (s.step env sr (given p .nothing)) [] (s.step env sr (given p recv)) := by
  obtain ⟨-, ⟨-, hrest⟩ | ⟨hstart, hrest⟩⟩ := comes sr hgoes hstays recv
  · rw [hrest]
    cases inbound recv with
    | closed => exact setPhase_does env _ .ended
    | nothing => exact Does.refl _
    | thrown => exact setPhase_does env _ .thrown
    | message m => exact handleHandshake_does env sr _ _ m
  · rw [hrest]
    cases inbound recv with
    | closed => exact teardown_does env sr _ _
    | nothing => exact Does.refl _
    | thrown => exact setPhase_does env _ .thrown
    | message m => exact handleMain_does env sr _ _ m (hstays.trans hstart)

/-! ## What the client is asked for -/

def connectionOf (w : DataChannel) : Connection := ⟨w.client, w.script⟩

/-- A frame as it is asked for. -/
def ask (frame : Bytes) : UInt8 × Bytes := (kOpBinary, frame)

/-- The client goes from one state to the other by calls that ask for these frames. -/
def Calls (link : Link) (s t : Connection) (asked : List Bytes) : Prop :=
  ∃ calls, t = runFrom (Connection.next link) s calls ∧ (∀ call ∈ calls, call = .recv ∨ ∃ frame, call = .send kOpBinary frame) ∧
    calls.flatMap Call.asks = asked.map ask

namespace Calls

variable {link : Link} {s t u : Connection} {asked asked' : List Bytes}

/-- No calls add nothing. -/
theorem refl (s : Connection) : Calls link s s [] := ⟨[], rfl, fun _ h => absurd h List.not_mem_nil, rfl⟩

/-- Calls after calls add what both do. -/
theorem trans (h : Calls link s t asked) (h' : Calls link t u asked') : Calls link s u (asked ++ asked') := by
  obtain ⟨calls, rfl, hkinds, hasks⟩ := h
  obtain ⟨more, rfl, hkinds', hasks'⟩ := h'
  refine ⟨calls ++ more, (runFrom_append _ _ _ _).symm, ?_, ?_⟩
  · intro call hcall
    obtain hcall | hcall := List.mem_append.mp hcall
    · exact hkinds call hcall
    · exact hkinds' call hcall
  · rw [List.flatMap_append, hasks, hasks', List.map_append]

/-- The frames of a session are sent in order. -/
theorem sends (link : Link) (frames : List Bytes) (c : Client) (script : List ReadResult) :
    Calls link ⟨c, script⟩ ⟨sendEach link c frames, script⟩ frames := by
  refine ⟨frames.map (.send kOpBinary), ?_, ?_, ?_⟩
  · induction frames generalizing c with
    | nil => rfl
    | cons frame frames ih => exact ih (c.send link kOpBinary frame).2
  · intro call hcall
    obtain ⟨frame, -, rfl⟩ := List.mem_map.mp hcall
    exact .inr ⟨frame, rfl⟩
  · rw [List.flatMap_map]
    exact (List.map_eq_flatMap ..).symm

/-- A receive asks for nothing to be sent. -/
theorem recv (link : Link) (c : Client) (script : List ReadResult) :
    Calls link ⟨c, script⟩ ⟨(c.recv link script).2.1, (c.recv link script).2.2⟩ [] :=
  ⟨[.recv], rfl, fun _ h => .inl (List.mem_singleton.mp h), rfl⟩

end Calls

/-- A session and its client from one state to another. -/
structure Speaks (link : Link) (env : Env) (w w' : DataChannel) (output : List Bytes) : Prop where
  does : Does env Works w.session output w'.session
  calls : Calls link (connectionOf w) (connectionOf w') (framesSince env w.session w'.session)

/-- What is spoken in two parts is spoken together. -/
theorem Speaks.trans {link : Link} {u v w : DataChannel} {output output' : List Bytes} (h : Speaks link env u v output)
    (h' : Speaks link env v w output') : Speaks link env u w (output ++ output') := by
  refine ⟨h.does.trans h'.does, ?_⟩
  rw [← framesSince_trans (log_does h.does) (log_does h'.does)]
  exact h.calls.trans h'.calls

/-- **The step**: a pass asks for the frames of what it adds to the log. -/
theorem step_speaks (link : Link) (w : DataChannel) (p : Pass) :
    Speaks link env w (w.step link env sr p) (shellOutput w.session p) := by
  have hquiet : Does env Works w.session (shellOutput w.session p) (w.quiet env sr p) :=
    step_does env sr w.session (given p .nothing)
  have hsends : Calls link (connectionOf w) ⟨w.sending link env sr p, w.script⟩
      (framesSince env w.session (w.quiet env sr p)) := Calls.sends link _ w.client w.script
  unfold DataChannel.step
  dsimp only
  split_ifs with hcomes
  · have hrecv := hsends.trans (Calls.recv link (w.sending link env sr p) w.script)
    rw [List.append_nil] at hrecv
    generalize (w.sending link env sr p).recv link w.script = result at hrecv ⊢
    obtain ⟨received, c, script⟩ := result
    have hgets (recv : Recv) : Speaks link env w
        ⟨w.session.step env sr (given p recv), sendEach link c (framesSince env (w.quiet env sr p)
          (w.session.step env sr (given p recv))), script⟩ (shellOutput w.session p) := by
      have hrest := rest_does env sr hcomes.1 hcomes.2 recv
      have hall := hrecv.trans (Calls.sends link (framesSince env (w.quiet env sr p)
        (w.session.step env sr (given p recv))) c script)
      rw [framesSince_trans (log_does hquiet) (log_does hrest)] at hall
      exact ⟨step_does env sr w.session (given p recv), hall⟩
    cases received with
    | message f => exact hgets (.frame f)
    | timeout => exact hgets .nothing
    | failed err => exact hgets .closed
    | waiting =>
      have hstuck := hquiet.trans (setPhase_does env _ .stuck)
      rw [List.append_nil] at hstuck
      exact ⟨hstuck, hrecv⟩
  · exact ⟨hquiet, hsends⟩

/-- What the passes of a run read from the pty. -/
def readOn (link : Link) : DataChannel → List Pass → List Bytes
  | _, [] => []
  | w, p :: passes => shellOutput w.session p ++ readOn link (w.step link env sr p) passes

/-- **The run**. -/
theorem run_speaks (link : Link) (passes : List Pass) (w : DataChannel) :
    Speaks link env w (runFrom (DataChannel.step link env sr) w passes) (readOn env sr link w passes) := by
  induction passes generalizing w with
  | nil =>
    refine ⟨Does.refl _, ?_⟩
    have hnone : framesSince env w.session w.session = [] := by
      unfold framesSince
      rw [List.drop_length]
      rfl
    rw [runFrom_nil, hnone]
    exact Calls.refl _
  | cons p passes ih => exact (step_speaks env sr link w p).trans env (ih (w.step link env sr p))

/-- A session begins with its OpenDataChannel message. -/
theorem start_speaks (link : Link) (o : Opening) (now : ℤ) (c : Client) (script : List ReadResult) :
    let w := DataChannel.start link env sr o now c script
    (∃ opened deadline, Does env Works { Session.init with hsDeadline := deadline } [] w.session ∧
      w.session = Session.start env sr opened now) ∧
    Calls link ((⟨c, script⟩ : Connection).next link (.send kOpText o.text)) (connectionOf w) (frames env w.session) := by
  intro w
  have hstart (opened : Bool) : ∃ opened' deadline, Does env Works { Session.init with hsDeadline := deadline } []
      (Session.start env sr opened now) ∧ Session.start env sr opened now = Session.start env sr opened' now := by
    obtain ⟨deadline, hdoes⟩ := start_does env sr opened now
    exact ⟨opened, deadline, hdoes, rfl⟩
  unfold Connection.next
  dsimp only [w]
  unfold DataChannel.start
  generalize c.send link kOpText o.text = result
  obtain ⟨err, c'⟩ := result
  cases err with
  | some err => exact ⟨hstart false, Calls.refl _⟩
  | none => exact ⟨hstart true, Calls.sends link _ c' script⟩

/-! ## What the service reads -/

/-- The payloads of the binary frames. -/
def binaries (written : List ServerFrame) : List Bytes :=
  written.filterMap fun f => if f.opcode = kOpBinary then some f.payload else none

/-- Frames in answer to others are not binary ones. -/
theorem answers_not_binary {taken : List ServerFrame} {a : UInt8 × Bytes} (h : a ∈ taken.flatMap answers) :
    a.1 ≠ kOpBinary := by
  obtain ⟨f, -, hf⟩ := List.mem_flatMap.mp h
  unfold answers at hf
  split_ifs at hf
  · rw [List.mem_singleton.mp hf]
    exact (by decide : kOpPong ≠ kOpBinary)
  · rw [List.mem_singleton.mp hf]
    exact (by decide : kOpClose ≠ kOpBinary)
  · cases hf

/-- The binary frames are among those that were asked for. -/
theorem binaries_told {told : List Told} {taken : List ServerFrame}
    (hanswered : told.filterMap Told.whatAnswered <+: taken.flatMap answers) :
    binaries (told.map Told.frame) =
      (told.filterMap Told.whatAsked).filterMap fun a => if a.1 = kOpBinary then some a.2 else none := by
  unfold binaries
  rw [List.filterMap_map, List.filterMap_filterMap]
  refine List.filterMap_congr ?_
  intro t ht
  cases t with
  | asked f => rfl
  | answered f =>
    have hmem : (f.opcode, f.payload) ∈ told.filterMap Told.whatAnswered := List.mem_filterMap.mpr ⟨_, ht, rfl⟩
    exact if_neg (answers_not_binary (hanswered.subset hmem))

/-- Of what is asked for, the binary frames are those of the session. -/
theorem filterMap_asked (o : Opening) (asked : List Bytes) :
    (((kOpText, o.text) :: asked.map ask).filterMap fun a => if a.1 = kOpBinary then some a.2 else none) = asked := by
  rw [List.filterMap_cons_none rfl, List.filterMap_map]
  exact List.filterMap_some

/-- The frame of a stream message is among the frames of its session. -/
theorem frame_of_stream {env : Env} {s : Session} {m : AgentMessage} (h : m ∈ streams s) :
    serialize env.sha256Raw m ∈ frames env s := by
  obtain ⟨a, ha, hstreamed⟩ := List.mem_filterMap.mp h
  cases a with
  | stream m' =>
    cases hstreamed
    exact List.mem_filterMap.mpr ⟨_, ha, rfl⟩
  | control => cases hstreamed
  | acknowledge => cases hstreamed
  | resend => cases hstreamed
  | accept => cases hstreamed
  | spawn => cases hstreamed
  | resize => cases hstreamed
  | write => cases hstreamed

/-- **What the shell prints arrives.** Whatever the service sends on the data channel, wherever its stream
breaks off and whichever writes fail: what the client writes after the upgrade are frames of RFC 6455,
of which the binary ones are a first part of what the session sends; a client that is given any of
them, repeated or in another order, puts together a first part of what the passes read from the pty,
and all of it if the channel is still open and every stream message is delivered.
SRC: websocket.cpp:24-46, 93-242, session.cpp:49-104, 231-467 -/
theorem output_over_channel (env : Env) (sr : StartRequest) {sha1Raw : Bytes → Bytes} {link : Link} {c : Client}
    {host path err : Bytes} {extraHeaders : List (Bytes × Bytes)} {script script' : List ReadResult}
    (hconnect : Client.init.connect sha1Raw link host path extraHeaders err script = (.done, c, script'))
    {head lost : Bytes} (hhead : find (head ++ headEnd) headEnd 0 = some head.length) {stream : List ServerFrame}
    (hstream : bytesOf script ++ lost = head ++ headEnd ++ stream.flatMap ServerFrame.encode)
    {urandom : ℕ → Option (Vector UInt8 16)} {clock : ℕ → ℤ} (hids : ∀ n, env.uuid n = uuid4 (urandom n) (clock n))
    (o : Opening) (hopening : o.text.length ≤ 1024 * 1024) (now : ℤ) (passes : List Pass) :
    let start := DataChannel.start link env sr o now c script'
    let w := runFrom (DataChannel.step link env sr) start passes
    (∀ f ∈ frames env w.session, f.length ≤ 1024 * 1024) → (streams w.session).length ≤ 2 ^ 63 →
    ∃ written : List ServerFrame,
      w.client.writes = upgradeRequest host path (base64Encode link.keyRaw) extraHeaders ::
        written.map ServerFrame.encode ∧
      binaries written <+: frames env w.session ∧
      ∀ delivered, (∀ f ∈ delivered, f ∈ binaries written) →
        printed (client delivered) <+: readOn env sr link start passes ∧
        (w.client.isOpen = true → (∀ m ∈ streams w.session, serialize env.sha256Raw m ∈ binaries written) ∧
          ((∀ m ∈ streams w.session, serialize env.sha256Raw m ∈ delivered) →
            printed (client delivered) = readOn env sr link start passes)) := by
  intro start w hsizes hcount
  obtain ⟨⟨opened, deadline, hdoes, -⟩, hopens⟩ := start_speaks env sr link o now c script'
  have hrun := run_speaks env sr link passes start
  have hsession : Does env Works { Session.init with hsDeadline := deadline } (readOn env sr link start passes) w.session :=
    hdoes.trans hrun.does
  have hall := hopens.trans hrun.calls
  rw [← frames_since env (log_does hrun.does)] at hall
  obtain ⟨calls, hclient, hkinds, hasks⟩ := hall
  -- every frame that is asked for can be written
  have hcalls : ∀ opcode payload, .send opcode payload ∈ Call.send kOpText o.text :: calls →
      Tellable (opcode, payload) ∧ opcode ≠ kOpClose := by
    intro opcode payload hmem
    obtain heq | hmem := List.mem_cons.mp hmem
    · cases heq
      exact ⟨⟨(by decide : kOpText < 16), hopening⟩, by decide⟩
    · obtain heq | ⟨frame, heq⟩ := hkinds _ hmem
      · cases heq
      · cases heq
        have hasked : ask payload ∈ (frames env w.session).map ask := by
          rw [← hasks]
          exact List.mem_flatMap.mpr ⟨_, hmem, List.mem_singleton_self _⟩
        obtain ⟨frame, hframe, hsame⟩ := List.mem_map.mp hasked
        cases hsame
        exact ⟨⟨(by decide : kOpBinary < 16), hsizes _ hframe⟩, by decide⟩
  obtain ⟨taken, rest, told, -, -, hdid⟩ := did_calls link hconnect hhead hstream _ hcalls
  rw [runFrom_cons, ← hclient, List.flatMap_cons, hasks] at hdid
  have hwrites := hdid.writes
  have hwhole := fun hopen => (hdid.whole hopen).2
  rw [connect_writes link hconnect] at hwrites
  have hbinaries := binaries_told hdid.answered
  have hinitial : binaries (told.map Told.frame) <+: frames env w.session := by
    rw [hbinaries, ← filterMap_asked o (frames env w.session)]
    exact hdid.asked.filterMap _
  have hnumbered : Numbered env w.session := numbered_does hsession
  refine ⟨told.map Told.frame, ?_, hinitial, ?_⟩
  · rw [List.map_map]
    exact hwrites
  · intro delivered hdelivered
    obtain ⟨-, hfirst, hcomplete⟩ := client_of_numbered hnumbered hids hcount fun f hf => hinitial.subset (hdelivered f hf)
    have hprinted : printed (streams w.session) = readOn env sr link start passes := printed_does hsession
    rw [hprinted] at hfirst
    refine ⟨hfirst, fun hopen => ⟨?_, ?_⟩⟩
    · intro m hm
      rw [hbinaries, (hwhole hopen).1]
      exact (filterMap_asked o (frames env w.session)).symm ▸ frame_of_stream hm
    · intro hevery
      rw [hcomplete hevery]
      exact hprinted

/-! ## A shell that prints -/

def exampleStart : DataChannel :=
  DataChannel.start exampleLink countingEnv exampleRequest exampleOpening 0 exampleConnect.2.1 exampleConnect.2.2

/-- The handshake response comes in, and then the shell prints twice. -/
def examplePasses : List Pass :=
  [typing, typing, { typing with reads := [.data 104 (lit "i "), .data 121 (lit "ou"), .again] }]

def exampleRun : DataChannel := runFrom (DataChannel.step exampleLink countingEnv exampleRequest) exampleStart examplePasses

/-- A client that is given what was written has all that was printed. -/
theorem exampleRun_written : ∃ written : List ServerFrame,
    exampleRun.client.writes = upgradeRequest (lit "host") (lit "/") (base64Encode exampleLink.keyRaw) [] ::
      written.map ServerFrame.encode ∧
    (streams exampleRun.session).length = 4 ∧
    printed (client (binaries written).reverse) = [lit "hi ", lit "you"] := by
  have hstream : bytesOf exampleScript ++ exampleStream.drop 400 =
      exampleHead ++ headEnd ++ exampleTransmission.frames.flatMap ServerFrame.encode := by decide +kernel
  have hsizes : ∀ f ∈ frames countingEnv exampleRun.session, f.length ≤ 1024 * 1024 := by decide +kernel
  have hcount : (streams exampleRun.session).length = 4 := by decide +kernel
  have hisOpen : exampleRun.client.isOpen = true := by decide +kernel
  have hbound : (streams exampleRun.session).length ≤ 2 ^ 63 := by
    rw [hcount]
    decide
  have hread : readOn countingEnv exampleRequest exampleLink exampleStart examplePasses = [lit "hi ", lit "you"] := by
    decide +kernel
  unfold exampleRun exampleStart at hsizes hcount hisOpen hbound ⊢
  obtain ⟨written, hwrites, -, hdelivers⟩ := output_over_channel countingEnv exampleRequest exampleConnect_done
    (by decide +kernel) hstream (fun n => rfl) exampleOpening (by decide +kernel) 0 examplePasses hsizes hbound
  obtain ⟨-, hopen⟩ := hdelivers (binaries written).reverse fun f hf => List.mem_reverse.mp hf
  obtain ⟨hevery, hall⟩ := hopen hisOpen
  exact ⟨written, hwrites, hcount, (hall fun m hm => List.mem_reverse.mpr (hevery m hm)).trans hread⟩

end HaikuAgent.Analysis.ChannelOutput
