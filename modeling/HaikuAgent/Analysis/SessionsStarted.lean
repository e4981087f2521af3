import HaikuAgent.Analysis.ChannelInput
import HaikuAgent.Analysis.JsonRoundTrip
import HaikuAgent.Analysis.ShellPerSession
import HaikuAgent.Model.ControlConnection

/-!
# From the service to the session

A `Request` is a session as the service asks for it. It reaches `run` as JSON in a string of a JSON
text in a message in frames, whatever else these texts hold (`Asks`). `place` is what it means, without
any text: a call of `run` starts what `place` says of a first part of the messages on its channel,
whatever the network does, and the calls after one another start what the parts say together
(`sessions_started`).
-/

set_option autoImplicit false

namespace HaikuAgent.Analysis.SessionsStarted

open HaikuAgent.Foundation
open HaikuAgent.Model
open HaikuAgent.Model.Json
open HaikuAgent.Model.Mgs
open HaikuAgent.Model.ControlChannel
open HaikuAgent.Model.ControlConnection
open HaikuAgent.Model.Sessions (StartRequest Recv Inbound inbound)
open HaikuAgent.Model.WebSocket
open HaikuAgent.Interface.JsonText
open HaikuAgent.Interface.ServerFrames
open HaikuAgent.Analysis.ChannelInput
open HaikuAgent.Analysis.JsonGrammar (parse_of_means)
open HaikuAgent.Analysis.JsonRoundTrip
open HaikuAgent.Analysis.ShellPerSession (Startable handleShell_cases startSession startSha256 meeting)
open HaikuAgent.Analysis.WebSocketReception (bytesOf readOf exampleHead exampleLink exampleSha1)

/-! ## Requests and their text -/

/-- A session that is asked for. -/
structure Request where
  sessionId : Bytes
  sessionType : Bytes
  kmsKeyId : Bytes
  runAsEnabled : Bool
  runAsUser : Bytes
  shellCommands : Bytes
  named : sessionId ≠ []

namespace Request

/-- What the session is to be. -/
def start (r : Request) : StartRequest :=
  { sessionId := r.sessionId
    sessionType := r.sessionType
    runAsEnabled := r.runAsEnabled
    runAsUser := r.runAsUser
    shellCommands := r.shellCommands }

/-- A shell without encryption. -/
def Accepted (r : Request) : Prop := (r.sessionType = [] ∨ r.sessionType = lit "Standard_Stream") ∧ r.kmsKeyId = []

instance decidableAccepted (r : Request) : Decidable r.Accepted := inferInstanceAs (Decidable (_ ∧ _))

end Request

/-- The field is a truth value; without the field it is false. -/
def BoolField (v : Value) (key : Bytes) (b : Bool) : Prop := v.find key = some (.bool b) ∨ v.find key = none ∧ b = false

/-- The inputs of the session's document, among other fields. -/
structure Inputs (inputs : Value) (r : Request) : Prop where
  kmsKeyId : TextField inputs (lit "kmsKeyId") r.kmsKeyId
  runAsEnabled : BoolField inputs (lit "runAsEnabled") r.runAsEnabled
  runAsUser : TextField inputs (lit "runAsDefaultUser") r.runAsUser
  shellCommands : ObjectField inputs (lit "shellProfile") fun profile => TextField profile (lit "linux") r.shellCommands

/-- The session's document, among other fields. -/
structure Content (content : Value) (r : Request) : Prop where
  sessionType : TextField content (lit "sessionType") r.sessionType
  inputs : ObjectField content (lit "inputs") fun inputs => Inputs inputs r

/-- The task asks for the session, among other fields. -/
structure Describes (task : Value) (r : Request) : Prop where
  sessionId : task.find (lit "SessionId") = some (.string r.sessionId)
  content : ObjectField task (lit "DocumentContent") fun content => Content content r

/-- The envelope has the text in its field, which may be spelled in two ways. -/
def Encloses (envelope : Value) (inner : Bytes) : Prop :=
  envelope.find (lit "content") = some (.string inner) ∨
    envelope.find (lit "content") = none ∧ envelope.find (lit "Content") = some (.string inner)

/-- The payload asks for the session: JSON in a string of a JSON text. -/
def Asks (strtod : Bytes → Double × ℕ) (payload : Bytes) (r : Request) : Prop :=
  ∃ envelope inner task, Means strtod payload envelope ∧ Encloses envelope inner ∧ Means strtod inner task ∧
    Describes task r

section Reading

variable {strtod : Bytes → Double × ℕ} {payload : Bytes} {r : Request}

/-- Only objects have keys. -/
theorem isObj_of_find {v w : Value} {key : Bytes} (h : v.find key = some w) : v.isObj = true := by
  cases v with
  | obj entries => rfl
  | null => cases h
  | bool b => cases h
  | number n integral => cases h
  | string s => cases h
  | arr elems => cases h

/-- A JSON text is not empty. -/
theorem means_ne_nil {text : Bytes} {v : Value} (h : Means strtod text v) : text ≠ [] := by
  rintro rfl
  have hparse := parse_of_means strtod h
  have herr : (parse strtod []).2 ≠ [] := by
    unfold parse
    rw [List.length_nil, Nat.mul_zero, Nat.zero_add]
    unfold value
    simp only [skipBlanks, failAt]
    exact List.append_ne_nil_of_left_ne_nil (by decide) _
  exact herr (congrArg Prod.snd hparse)

/-- The envelope is opened, however its field is spelled. -/
theorem startTask_asks {envelope task : Value} {inner : Bytes} (henvelope : Means strtod payload envelope)
    (hencloses : Encloses envelope inner) (htask : Means strtod inner task) (hdescribes : Describes task r) :
    startTask strtod payload = .ok task := by
  have hinner : (if envelope.strAt (lit "content") [] = [] then envelope.strAt (lit "Content") []
      else envelope.strAt (lit "content") []) = inner := by
    unfold Value.strAt
    obtain h | ⟨hnone, h⟩ := hencloses
    · rw [h]
      exact if_neg (means_ne_nil htask)
    · rw [hnone, h]
      rfl
  have hobj : envelope.isObj = true := by
    obtain h | ⟨-, h⟩ := hencloses
    · exact isObj_of_find h
    · exact isObj_of_find h
  unfold startTask
  rw [parse_of_means strtod henvelope]
  dsimp only
  rw [if_neg (by simp [hobj]), hinner, parse_of_means strtod htask]
  dsimp only
  rw [if_neg (by simp [isObj_of_find hdescribes.sessionId])]

/-- Inputs that are missing are those of a request without any. -/
theorem Inputs.empty (h : Inputs (.obj []) r) :
    r.kmsKeyId = [] ∧ r.runAsEnabled = false ∧ r.runAsUser = [] ∧ r.shellCommands = [] := by
  refine ⟨h.kmsKeyId.empty, ?_, h.runAsUser.empty, h.shellCommands.empty.empty⟩
  obtain h | ⟨-, h⟩ := h.runAsEnabled
  · cases h
  · exact h

/-- A boolean key reads as its value. -/
theorem BoolField.read {v : Value} {key : Bytes} {b : Bool} (h : BoolField v key b) :
    ((v.find key).map (Value.bl false)).getD false = b := by
  obtain h | ⟨h, rfl⟩ := h
  · rw [h]
    rfl
  · rw [h]
    rfl

/-- The request is read as it was made. -/
theorem parseStartRequest_asks (h : Asks strtod payload r) :
    parseStartRequest strtod payload = .ok (r.start, r.kmsKeyId) := by
  obtain ⟨envelope, inner, task, henvelope, hencloses, htask, hdescribes⟩ := h
  have hid : task.strAt (lit "SessionId") [] = r.sessionId := TextField.strAt (.inl hdescribes.sessionId)
  unfold parseStartRequest Request.start
  rw [startTask_asks henvelope hencloses htask hdescribes]
  obtain ⟨content, hcontent, hfield | ⟨hfield, rfl⟩⟩ := hdescribes.content
  · obtain ⟨inputs, hinputs, hfield' | ⟨hfield', rfl⟩⟩ := hcontent.inputs
    · simp only [hid, hfield, hcontent.sessionType.strAt, hfield', hinputs.runAsEnabled.read, hinputs.runAsUser.strAt,
        hinputs.kmsKeyId.strAt]
      obtain ⟨profile, hcommands, hprofile | ⟨hprofile, rfl⟩⟩ := hinputs.shellCommands
      · simp only [hprofile, hcommands.strAt]
        exact if_neg r.named
      · simp only [hprofile, hcommands.empty]
        exact if_neg r.named
    · obtain ⟨hkms, henabled, huser, hcommands⟩ := hinputs.empty
      simp only [hid, hfield, hcontent.sessionType.strAt, hfield', hkms, henabled, huser, hcommands]
      exact if_neg r.named
  · obtain ⟨hkms, henabled, huser, hcommands⟩ := hcontent.inputs.empty.empty
    simp only [hid, hfield, hkms, henabled, huser, hcommands, hcontent.sessionType.empty]
    exact if_neg r.named

end Reading

/-! ## What the messages mean -/

/-- A message of a control channel. -/
inductive Notice (strtod : Bytes → Double × ℕ) where
  | session (m : AgentMessage) (r : Request) (htype : m.messageType = kMsgInteractiveShell)
      (hasks : Asks strtod m.payload r)
  | closing (m : AgentMessage) (htype : m.messageType = kMsgChannelClosed)
  | other (m : AgentMessage) (hshell : m.messageType ≠ kMsgInteractiveShell) (hclosed : m.messageType ≠ kMsgChannelClosed)

variable {strtod : Bytes → Double × ℕ}

def Notice.message : Notice strtod → AgentMessage
  | session m _ _ _ => m
  | closing m _ => m
  | other m _ _ => m

/-- What a message means to a call of `run` that has started these sessions. -/
def place (started : List StartRequest) : Notice strtod → List StartRequest
  | .session _ r _ _ =>
    if r.Accepted ∧ r.sessionId ∉ started.map StartRequest.sessionId then started ++ [r.start] else started
  | _ => started

/-- The sessions that the messages start. -/
def placed (heard : List (Notice strtod)) : List StartRequest := runFrom place [] heard

/-- One more notice is placed after those before it. -/
theorem placed_concat (heard : List (Notice strtod)) (n : Notice strtod) : placed (heard ++ [n]) = place (placed heard) n :=
  runFrom_append place [] heard [n]

/-! ## One pass of the thread -/

def startOf : Action → Option (ℕ × StartRequest)
  | .start call sr => some (call, sr)
  | _ => none

/-- The sessions that were started, with the calls of `run` that started them. -/
def starts (s : SessionThread) : List (ℕ × StartRequest) := s.log.filterMap startOf

/-- An action that starts no session leaves the starts alone. -/
theorem starts_record {s : SessionThread} {a : Action} (h : startOf a = none) : starts (s.record a) = starts s := by
  unfold starts SessionThread.record
  rw [List.filterMap_append, List.filterMap_cons_none h]
  exact List.append_nil _

/-- The thread is in the same call of `run`, which has started the same. -/
structure Unmoved (s s' : SessionThread) : Prop where
  starts_eq : starts s' = starts s
  calls : s'.calls = s.calls
  seen : s'.seen = s.seen

/-- A keepalive starts nothing. -/
theorem keepAlive_unmoved (s : SessionThread) (p : Pass) : Unmoved s (s.keepAlive p) := by
  unfold SessionThread.keepAlive
  split_ifs
  · exact ⟨starts_record rfl, rfl, rfl⟩
  · exact ⟨rfl, rfl, rfl⟩

/-- The return of a run starts nothing. -/
theorem runReturned_unmoved (s : SessionThread) (ok : Bool) : Unmoved s (s.runReturned ok) :=
  ⟨starts_record rfl, rfl, rfl⟩

/-- Two steps that start nothing start nothing together. -/
theorem Unmoved.trans {s t u : SessionThread} (h : Unmoved s t) (h' : Unmoved t u) : Unmoved s u :=
  ⟨h'.starts_eq.trans h.starts_eq, h'.calls.trans h.calls, h'.seen.trans h.seen⟩

section Serve

variable {s : SessionThread} {p : Pass}

/-- A pass that is given no message. -/
theorem serve_quiet (strtod : Bytes → Double × ℕ) (s : SessionThread) {p : Pass}
    (hnone : ∀ m, inbound p.recv ≠ .message m) :
    Unmoved s (s.serve strtod p) ∧ (inbound p.recv = .closed → (s.serve strtod p).phase ≠ .serving) := by
  have hkept := keepAlive_unmoved s p
  unfold SessionThread.serve
  split_ifs with hstop
  · exact ⟨⟨rfl, rfl, rfl⟩, fun _ => (by decide : Phase.ended ≠ .serving)⟩
  · dsimp only
    cases hrecv : inbound p.recv with
    | closed => exact ⟨hkept.trans (runReturned_unmoved _ false), fun _ => (by decide : Phase.between ≠ .serving)⟩
    | nothing => exact ⟨hkept, nofun⟩
    | thrown => exact ⟨⟨hkept.starts_eq, hkept.calls, hkept.seen⟩, nofun⟩
    | message m => exact absurd hrecv (hnone m)

/-- The payload of a request starts the session it asks for, if that can be accepted. -/
theorem startable_asks {payload : Bytes} {r : Request} (h : Asks strtod payload r) (sr : StartRequest) :
    Startable strtod payload sr ↔ sr = r.start ∧ r.Accepted := by
  unfold Startable Request.Accepted
  rw [parseStartRequest_asks h]
  constructor
  · rintro ⟨hread, htype⟩
    obtain ⟨rfl, hkms⟩ := Prod.mk.inj (Except.ok.inj hread)
    exact ⟨rfl, htype, hkms⟩
  · rintro ⟨rfl, htype, hkms⟩
    exact ⟨by rw [hkms], htype⟩

/-- A pass that is given a message starts what the message means. -/
theorem serve_message (hstop : p.stop = false) (n : Notice strtod)
    (hn : inbound p.recv = .message n.message) {before : List (ℕ × StartRequest)} {started : List StartRequest}
    (hstarts : starts s = before ++ started.map (s.calls, ·))
    (hseen : ∀ id, id ∈ s.seen ↔ id ∈ started.map StartRequest.sessionId) :
    starts (s.serve strtod p) = before ++ (place started n).map (s.calls, ·) ∧
      (s.serve strtod p).calls = s.calls ∧
      ∀ id, id ∈ (s.serve strtod p).seen ↔ id ∈ (place started n).map StartRequest.sessionId := by
  obtain ⟨hkeptStarts, hkeptCalls, hkeptSeen⟩ := keepAlive_unmoved s p
  have hsame {s' : SessionThread} (h : Unmoved s s') : starts s' = before ++ started.map (s.calls, ·) ∧
      s'.calls = s.calls ∧ ∀ id, id ∈ s'.seen ↔ id ∈ started.map StartRequest.sessionId :=
    ⟨h.starts_eq.trans hstarts, h.calls, by rw [h.seen]; exact hseen⟩
  have hkept := hsame (keepAlive_unmoved s p)
  unfold SessionThread.serve
  rw [if_neg (by simp [hstop])]
  dsimp only
  rw [hn]
  dsimp only
  cases n with
  | session m r htype hasks =>
    change m.messageType = kMsgInteractiveShell at htype
    rw [Notice.message, if_pos htype]
    obtain ⟨hnothing, hknown⟩ | ⟨sr, hstartable, hnew, hstarted⟩ := handleShell_cases strtod (s.keepAlive p) m.payload
    · have hold : ¬(r.Accepted ∧ r.sessionId ∉ started.map StartRequest.sessionId) := by
        rintro ⟨haccepted, hnew⟩
        have hmem := hknown r.start ((startable_asks hasks _).mpr ⟨rfl, haccepted⟩)
        rw [hkeptSeen, hseen] at hmem
        exact hnew hmem
      rw [hnothing, place, if_neg hold]
      exact hkept
    · obtain ⟨rfl, haccepted⟩ := (startable_asks hasks sr).mp hstartable
      have hfresh : r.sessionId ∉ started.map StartRequest.sessionId := by
        rw [hkeptSeen, hseen] at hnew
        exact hnew
      rw [hstarted, place, if_pos ⟨haccepted, hfresh⟩, List.map_append, List.map_append]
      refine ⟨?_, hkeptCalls, ?_⟩
      · have hlog : starts { s.keepAlive p with
            seen := insert r.start.sessionId (s.keepAlive p).seen
            log := (s.keepAlive p).log ++ [.start (s.keepAlive p).calls r.start] } =
              starts (s.keepAlive p) ++ [((s.keepAlive p).calls, r.start)] := by
          unfold starts
          rw [List.filterMap_append]
          rfl
        rw [hlog, hkeptStarts, hstarts, hkeptCalls, List.append_assoc]
        rfl
      · intro id
        rw [Finset.mem_insert, hkeptSeen, hseen, List.mem_append, List.map_singleton, List.mem_singleton, or_comm]
  | closing m htype =>
    have hshell : m.messageType ≠ kMsgInteractiveShell := by
      rw [htype]
      decide
    rw [Notice.message, if_neg hshell, if_pos htype]
    exact hsame ((keepAlive_unmoved s p).trans (runReturned_unmoved _ true))
  | other m hshell hclosed =>
    rw [Notice.message, if_neg hshell, if_neg hclosed]
    exact hkept

end Serve

/-! ## A channel -/

/-- The messages are still to come on the channel, of whose stream `lost` does not come. -/
def Delivers (sha256Raw : Bytes → Vector UInt8 32) (ch : Channel) (lost : Bytes) (later : List (Notice strtod)) : Prop :=
  ∃ stream, Coming ch.client ch.script lost stream ∧
    (toCome ch.client stream).map Frame.payload = later.map fun n => serialize sha256Raw n.message

/-- The client of the channel has connected to a service that sends these messages, as frames up to a close
frame, and the stream breaks off before `lost`. -/
def Reaches (sha256Raw : Bytes → Vector UInt8 32) (ch : Channel) (lost : Bytes) (sent : List (Notice strtod)) : Prop :=
  ∃ sha1Raw host path extraHeaders err script head,
    Client.init.connect sha1Raw ch.link host path extraHeaders err script = (.done, ch.client, ch.script) ∧
    find (head ++ headEnd) headEnd 0 = some head.length ∧
    ∃ (t : Transmission) (closing : List ServerFrame), (∀ f ∈ closing.head?, f.opcode = kOpClose) ∧
      bytesOf script ++ lost = head ++ headEnd ++ (t.frames ++ closing).flatMap ServerFrame.encode ∧
      (t.messages.map fun m => m.2.payload) = sent.map fun n => serialize sha256Raw n.message

variable {sha256Raw : Bytes → Vector UInt8 32} {lost : Bytes}

/-- A channel that reaches the notices delivers them. -/
theorem Reaches.delivers {ch : Channel} {sent : List (Notice strtod)} (h : Reaches sha256Raw ch lost sent) :
    Delivers sha256Raw ch lost sent := by
  obtain ⟨sha1Raw, host, path, extraHeaders, err, script, head, hconnect, hhead, t, closing, hclosing, hstream,
    hsent⟩ := h
  obtain ⟨-, -, -, -, -, hfrag, -⟩ := WebSocketReception.connect_done ch.link sha1Raw Client.init ch.client host path
    extraHeaders err script ch.script hconnect
  exact ⟨t.frames ++ closing, WrittenFrames.connect_stream ch.link hconnect hhead hstream,
    (toCome_transmission hfrag t hclosing).trans hsent⟩

/-- Sending on a channel changes nothing of what it will deliver. -/
theorem Delivers.send {ch : Channel} {later : List (Notice strtod)} (h : Delivers sha256Raw ch lost later) (opcode : UInt8)
    (payload : Bytes) : Delivers sha256Raw (ch.send opcode payload).2 lost later := by
  obtain ⟨stream, hcoming, hmeans⟩ := h
  refine ⟨stream, ?_, ?_⟩
  · change (ch.client.send ch.link opcode payload).2.readBuf ++ _ = _
    rw [(send_keeps ch.link ch.client opcode payload).1]
    exact hcoming
  · change (toCome (ch.client.send ch.link opcode payload).2 stream).map Frame.payload = _
    rw [toCome_send]
    exact hmeans

/-- **A call of `recv`** gives the next message, or none. -/
theorem Delivers.recv {ch : Channel} {later : List (Notice strtod)} (hcarried : ∀ n ∈ later, Carried n.message)
    (h : Delivers sha256Raw ch lost later) :
    (∃ n rest, later = n :: rest ∧ inbound ch.recv.1 = .message n.message ∧ Delivers sha256Raw ch.recv.2 lost rest) ∨
      (∀ m, inbound ch.recv.1 ≠ .message m) ∧
        (Delivers sha256Raw ch.recv.2 lost later ∨ inbound ch.recv.1 = .closed) := by
  obtain ⟨stream, hcoming, hmeans⟩ := h
  unfold Channel.recv
  obtain ⟨f, c, script, rest, hrecv, hcoming', hnext⟩ | ⟨c, script, rest, hrecv, hcoming', hsame⟩ |
    ⟨err, c, script, hrecv⟩ := recv_cases ch.link lost ch.script stream ch.client hcoming
  · rw [hrecv]
    rw [hnext, List.map_cons] at hmeans
    cases later with
    | nil => cases hmeans
    | cons n later =>
      obtain ⟨hpayload, hrest⟩ := List.cons.inj hmeans
      exact .inl ⟨n, later, rfl, inbound_carried (hcarried n List.mem_cons_self) hpayload, rest, hcoming', hrest⟩
  · rw [hsame] at hmeans
    obtain hrecv | hrecv := hrecv
    · rw [hrecv]
      exact .inr ⟨nofun, .inl ⟨rest, hcoming', hmeans⟩⟩
    · rw [hrecv]
      exact .inr ⟨nofun, .inl ⟨rest, hcoming', hmeans⟩⟩
  · rw [hrecv]
    exact .inr ⟨nofun, .inr rfl⟩

/-! ## The calls of `run` -/

/-- A turn, with what the service sends on the channel that it may open. -/
structure Visit (strtod : Bytes → Double × ℕ) (sha256Raw : Bytes → Vector UInt8 32) where
  turn : Turn
  sent : List (Notice strtod)
  lost : Bytes
  carried : ∀ n ∈ sent, Carried n.message
  reaches : turn.pass.opened = true → Reaches sha256Raw turn.channel lost sent

/-- A call of `run` that has opened its channel. -/
structure Served (strtod : Bytes → Double × ℕ) where
  number : ℕ
  sent : List (Notice strtod)
  lost : Bytes
  heard : List (Notice strtod)

/-- The sessions that it has started. -/
def Served.starts (c : Served strtod) : List (ℕ × StartRequest) := (placed c.heard).map fun sr => (c.number, sr)

/-- What the thread has done in the calls so far, on channels of which each was one of those that `P` allows. -/
structure Story (sha256Raw : Bytes → Vector UInt8 32) (P : List (Notice strtod) → Bytes → Prop)
    (w : OnChannel) (past : List (Served strtod)) : Prop where
  starts_eq : starts w.thread = past.flatMap Served.starts
  increasing : (past.map Served.number).Pairwise (· < ·)
  bounded : ∀ c ∈ past, c.number ≤ w.thread.calls
  heard : ∀ c ∈ past, c.heard <+: c.sent ∧ P c.sent c.lost
  current : w.thread.phase = .serving → ∃ before c later, past = before ++ [c] ∧ c.number = w.thread.calls ∧
    (∀ id, id ∈ w.thread.seen ↔ id ∈ (placed c.heard).map StartRequest.sessionId) ∧ c.sent = c.heard ++ later ∧
    (∀ n ∈ later, Carried n.message) ∧ Delivers sha256Raw w.channel c.lost later

variable {P : List (Notice strtod) → Bytes → Prop} {w : OnChannel} {past : List (Served strtod)}

/-- A pass that starts nothing, after which the thread is not serving. -/
theorem Story.leave (h : Story sha256Raw P w past) {s : SessionThread} {ch : Channel} (hstarts : starts s = starts w.thread)
    (hcalls : w.thread.calls ≤ s.calls) (hphase : s.phase ≠ .serving) : Story sha256Raw P ⟨s, ch⟩ past :=
  ⟨hstarts.trans h.starts_eq, h.increasing, fun c hc => (h.bounded c hc).trans hcalls, h.heard,
    fun hserving => absurd hserving hphase⟩

/-- A call of `run` that cannot open its channel starts nothing. -/
theorem callRun_fails {s : SessionThread} {p : Pass} (h : p.stop = true ∨ p.opened = false) :
    starts (s.callRun p) = starts s ∧ s.calls ≤ (s.callRun p).calls ∧ (s.callRun p).phase ≠ .serving := by
  unfold SessionThread.callRun
  by_cases hstop : p.stop = true
  · rw [if_pos hstop]
    exact ⟨rfl, le_rfl, (by decide : Phase.ended ≠ .serving)⟩
  · have hopened : (!p.opened) = true := by
      rw [h.resolve_left hstop]
      rfl
    rw [if_neg hstop]
    dsimp only
    rw [if_pos hopened]
    exact ⟨starts_record rfl, Nat.le_succ _, (by decide : Phase.between ≠ .serving)⟩

section Pass

/-- A pass between two calls opens the channel of the next, or does not. -/
theorem story_between (hphase : w.thread.phase = .between) (h : Story sha256Raw P w past) (v : Visit strtod sha256Raw)
    (hv : P v.sent v.lost) : ∃ past', Story sha256Raw P (w.step strtod v.turn) past' := by
  have hfails {p : Pass} {ch : Channel} (hp : p.stop = true ∨ p.opened = false) :
      ∃ past', Story sha256Raw P ⟨w.thread.callRun p, ch⟩ past' := by
    obtain ⟨hstarts, hcalls, hleft⟩ := callRun_fails (s := w.thread) hp
    exact ⟨past, h.leave hstarts hcalls hleft⟩
  have hcall (p : Pass) : w.thread.step strtod p = w.thread.callRun p := by rw [SessionThread.step, hphase]
  unfold OnChannel.step
  rw [hphase]
  dsimp only
  split_ifs with hnone
  · rw [hcall]
    exact hfails (hnone.imp_right fun hclosed => by simpa using hclosed)
  · obtain ⟨hstop, hopened⟩ := not_or.mp hnone
    have hdelivers := (v.reaches (by simpa using hopened)).delivers.send kOpText v.turn.opening.text
    generalize v.turn.channel.send kOpText v.turn.opening.text = result at hdelivers ⊢
    obtain ⟨err, ch⟩ := result
    rw [hcall]
    cases err with
    | some err => exact hfails (.inr rfl)
    | none =>
      have hopens : w.thread.callRun { v.turn.pass with opened := true } =
          { w.thread with
            calls := w.thread.calls + 1
            phase := .serving
            seen := ∅
            nextPing := v.turn.pass.now + kPingIntervalSeconds } := by
        unfold SessionThread.callRun
        rw [if_neg hstop]
        rfl
      let c : Served strtod := ⟨w.thread.calls + 1, v.sent, v.lost, []⟩
      refine ⟨past ++ [c], ?_⟩
      change Story sha256Raw P ⟨w.thread.callRun { v.turn.pass with opened := true }, ch⟩ _
      rw [hopens]
      refine ⟨?_, ?_, ?_, ?_, fun _ => ⟨past, c, v.sent, rfl, rfl, ?_, rfl, v.carried, hdelivers⟩⟩
      · rw [List.flatMap_append, ← h.starts_eq]
        exact (List.append_nil _).symm
      · rw [List.map_append, List.pairwise_append]
        refine ⟨h.increasing, List.pairwise_singleton _ _, ?_⟩
        intro n hn n' hn'
        obtain ⟨c', hc', rfl⟩ := List.mem_map.mp hn
        rw [List.mem_singleton.mp hn']
        exact Nat.lt_succ_of_le (h.bounded c' hc')
      · intro c' hc'
        obtain hc' | hc' := List.mem_append.mp hc'
        · exact Nat.le_succ_of_le (h.bounded c' hc')
        · rw [List.mem_singleton.mp hc']
      · intro c' hc'
        obtain hc' | hc' := List.mem_append.mp hc'
        · exact h.heard c' hc'
        · rw [List.mem_singleton.mp hc']
          exact ⟨List.nil_prefix, hv⟩
      · exact fun id => iff_of_false (Finset.notMem_empty id) List.not_mem_nil

/-- A pass of a call that is serving hears the next message, or none. -/
theorem story_serving (hphase : w.thread.phase = .serving)
    (h : Story sha256Raw P w past) (t : Turn) : ∃ past', Story sha256Raw P (w.step strtod t) past' := by
  obtain ⟨before, c, later, rfl, hnumber, hseen, hsent, hcarried, hdelivers⟩ := h.current hphase
  have hserve (p : Pass) : w.thread.step strtod p = w.thread.serve strtod p := by rw [SessionThread.step, hphase]
  unfold OnChannel.step
  rw [hphase]
  dsimp only
  by_cases hstop : t.pass.stop = true
  · have hends : w.thread.serve strtod t.pass = { w.thread with phase := .ended } := if_pos hstop
    rw [if_pos hstop, hserve, hends]
    exact ⟨before ++ [c], h.leave rfl le_rfl (by decide : Phase.ended ≠ .serving)⟩
  rw [if_neg hstop]
  have hpinged : Delivers sha256Raw (if w.thread.nextPing ≤ t.pass.now then (w.channel.send kOpPing []).2 else w.channel)
      c.lost later := by
    split_ifs
    · exact hdelivers.send kOpPing []
    · exact hdelivers
  generalize (if w.thread.nextPing ≤ t.pass.now then (w.channel.send kOpPing []).2 else w.channel) = ch at hpinged ⊢
  have hrecv := hpinged.recv hcarried
  generalize ch.recv = result at hrecv ⊢
  obtain ⟨recv, ch'⟩ := result
  rw [hserve]
  obtain ⟨n, rest, rfl, hn, hrest⟩ | ⟨hnone, hstill⟩ := hrecv
  · have hstarts := h.starts_eq
    rw [List.flatMap_append, List.flatMap_singleton, Served.starts, hnumber] at hstarts
    obtain ⟨hstarts', hcalls, hseen'⟩ := serve_message (p := { t.pass with recv })
      (Bool.eq_false_iff.mpr hstop) n hn hstarts hseen
    rw [← placed_concat] at hstarts' hseen'
    let c' : Served strtod := { c with heard := c.heard ++ [n] }
    have hsent' : c'.sent = c'.heard ++ rest := by
      change c.sent = c.heard ++ [n] ++ rest
      rw [hsent, List.append_assoc]
      rfl
    refine ⟨before ++ [c'], ?_, ?_, ?_, ?_, fun _ => ⟨before, c', rest, rfl, ?_, hseen', hsent', ?_, hrest⟩⟩
    · rw [hstarts', List.flatMap_append, List.flatMap_singleton, Served.starts, ← hnumber]
    · have hincreasing := h.increasing
      rw [List.map_append] at hincreasing ⊢
      exact hincreasing
    · intro c'' hc''
      change c''.number ≤ (w.thread.serve strtod { t.pass with recv }).calls
      rw [hcalls]
      obtain hc'' | hc'' := List.mem_append.mp hc''
      · exact h.bounded c'' (List.mem_append_left _ hc'')
      · rw [List.mem_singleton.mp hc'']
        exact hnumber.le
    · intro c'' hc''
      obtain hc'' | hc'' := List.mem_append.mp hc''
      · exact h.heard c'' (List.mem_append_left _ hc'')
      · rw [List.mem_singleton.mp hc'']
        exact ⟨⟨rest, hsent'.symm⟩, (h.heard c (List.mem_append_right _ (List.mem_singleton_self c))).2⟩
    · exact hnumber.trans hcalls.symm
    · exact fun n' hn' => hcarried n' (List.mem_cons_of_mem n hn')
  · obtain ⟨⟨hstarts, hcalls, hseen'⟩, hclosed⟩ := serve_quiet strtod w.thread (p := { t.pass with recv }) hnone
    refine ⟨before ++ [c], hstarts.trans h.starts_eq, h.increasing, ?_, h.heard, ?_⟩
    · intro c' hc'
      exact (h.bounded c' hc').trans hcalls.ge
    · intro hserving
      obtain hstill | hends := hstill
      · exact ⟨before, c, later, rfl, hnumber.trans hcalls.symm, by rw [hseen']; exact hseen, hsent, hcarried, hstill⟩
      · exact absurd hserving (hclosed hends)

/-- **The step**. -/
theorem story_step (h : Story sha256Raw P w past) (v : Visit strtod sha256Raw)
    (hv : P v.sent v.lost) : ∃ past', Story sha256Raw P (w.step strtod v.turn) past' := by
  cases hphase : w.thread.phase with
  | between => exact story_between hphase h v hv
  | serving => exact story_serving hphase h v.turn
  | ended =>
    unfold OnChannel.step
    rw [hphase]
    exact ⟨past, h⟩
  | thrown =>
    unfold OnChannel.step
    rw [hphase]
    exact ⟨past, h⟩

/-- A pass of the thread in a turn. -/
def Visit.next (w : OnChannel) (v : Visit strtod sha256Raw) : OnChannel := w.step strtod v.turn

/-- **The run**. -/
theorem story_run (visits : List (Visit strtod sha256Raw)) {w : OnChannel} {past : List (Served strtod)}
    (hvisits : ∀ v ∈ visits, P v.sent v.lost) (h : Story sha256Raw P w past) :
    ∃ past', Story sha256Raw P (runFrom Visit.next w visits) past' := by
  induction visits generalizing w past with
  | nil => exact ⟨past, h⟩
  | cons v visits ih =>
    obtain ⟨past', hstep⟩ := story_step h v (hvisits v List.mem_cons_self)
    exact ih (fun v' hv' => hvisits v' (List.mem_cons_of_mem v hv')) hstep

/-- **Sessions are started as they were asked for.** The session thread calls `run` any number of times,
each time on a channel whose stream of frames is cut in any way and may break off anywhere, with writes
that may fail. Each call that opens its channel hears a first part of the messages on it and starts what
they ask for: every session once, in order, just as it was asked for. A call that is serving has heard
every message when its stream is read up.
SRC: session.cpp:495-533, 580-692, mgs.cpp:128-164, websocket.cpp:48-91, 178-242, main.cpp:779-801 -/
theorem sessions_started (visits : List (Visit strtod sha256Raw)) (ch : Channel) :
    let w := runFrom Visit.next ⟨.init, ch⟩ visits
    ∃ calls : List (Served strtod),
      starts w.thread = calls.flatMap Served.starts ∧
      (calls.map Served.number).Pairwise (· < ·) ∧
      (∀ c ∈ calls, c.heard <+: c.sent ∧ ∃ v ∈ visits, v.sent = c.sent ∧ v.lost = c.lost) ∧
      (w.thread.phase = .serving → ∃ before c, calls = before ++ [c] ∧
        (w.channel.client.readBuf ++ (bytesOf w.channel.script ++ c.lost) = [] → c.heard = c.sent)) := by
  intro w
  have hstart : Story sha256Raw (fun sent lost => ∃ v ∈ visits, v.sent = sent ∧ v.lost = lost) ⟨.init, ch⟩ [] :=
    ⟨rfl, List.Pairwise.nil, fun c hc => absurd hc List.not_mem_nil, fun c hc => absurd hc List.not_mem_nil, nofun⟩
  obtain ⟨calls, hstory⟩ := story_run visits (fun v hv => ⟨v, hv, rfl, rfl⟩) hstart
  refine ⟨calls, hstory.starts_eq, hstory.increasing, hstory.heard, ?_⟩
  intro hserving
  obtain ⟨before, c, later, hcalls, -, -, hsent, -, stream, hcoming, hmeans⟩ := hstory.current hserving
  refine ⟨before, c, hcalls, ?_⟩
  intro hread
  rw [hcoming.nil hread] at hmeans
  rw [hsent, List.map_eq_nil_iff.mp hmeans.symm, List.append_nil]

end Pass

/-! ## A session that runs as a user -/

def exampleAsked : Request :=
  { sessionId := lit "s-1"
    sessionType := lit "Standard_Stream"
    kmsKeyId := []
    runAsEnabled := true
    runAsUser := lit "ops"
    shellCommands := lit "echo \"it's me\""
    named := by decide }

/-- A member of an object that is written without blanks. -/
def exampleMember (key : String) (v : Json) (rest : Members) : Members := .more [] (stringOf (lit key)) [] [] v [] rest

def exampleLast (key : String) (v : Json) : Members := .last [] (stringOf (lit key)) [] [.space] v [.lineFeed]

def exampleString (s : String) : Json := .string (stringOf (lit s))

/-- The task as the service writes it, with the id first and without a KMS key. -/
def exampleTask : Document :=
  { before := []
    value := .object (exampleMember "SessionId" (exampleString "s-1")
      (exampleMember "DocumentName" (exampleString "SSM-SessionManagerRunShell")
        (exampleLast "DocumentContent" (.object (exampleMember "schemaVersion" (exampleString "1.0")
          (exampleMember "sessionType" (exampleString "Standard_Stream")
            (exampleLast "inputs" (.object (exampleMember "runAsEnabled" (.bool true)
              (exampleMember "runAsDefaultUser" (exampleString "ops")
                (exampleLast "shellProfile" (.object (exampleLast "linux" (exampleString "echo \"it's me\""))))))))))))))
    after := [.lineFeed] }

/-- The envelope, with fields that `run` does not read. -/
def exampleEnvelope : Document :=
  { before := [.space]
    value := .object (exampleMember "schemaVersion" (.number ⟨false, .positive 1 [] (by decide), none, none⟩)
      (exampleMember "taskId" (exampleString "t-1")
        (exampleLast "content" (.string (stringOf exampleTask.text)))))
    after := [] }

/-- The example envelope asks for the example session. -/
theorem exampleEnvelope_asks : Asks decimalStrtod exampleEnvelope.text exampleAsked := by
  have hstring (s : Bytes) : StringText.denote (stringOf s) = s := (stringOf_spec s).2
  refine ⟨_, exampleTask.text, _, ⟨exampleEnvelope, rfl, rfl⟩, .inl ?_, ⟨exampleTask, rfl, rfl⟩, ?_⟩
  · simp only [exampleEnvelope, exampleMember, exampleLast, exampleString, Json.denote, Members.denote, hstring, find_objOf]
    rfl
  · simp only [exampleTask, exampleMember, exampleLast, exampleString, Json.denote, Members.denote, hstring]
    refine ⟨rfl, ?_⟩
    refine ⟨_, ⟨.inl rfl, ?_⟩, .inl rfl⟩
    refine ⟨_, ⟨.inr ⟨rfl, rfl⟩, .inl rfl, .inl rfl, ?_⟩, .inl rfl⟩
    exact ⟨_, .inl rfl, .inl rfl⟩

def exampleMessage : AgentMessage := { startSession with payload := exampleEnvelope.text }

/-- The message is delivered twice. -/
def exampleNotices : List (Notice decimalStrtod) :=
  let n := Notice.session exampleMessage exampleAsked rfl exampleEnvelope_asks
  [n, n]

def exampleFrame : Bytes := serialize (fun _ => startSha256) exampleMessage

def exampleMessages : Transmission :=
  let m : List ControlFrame × Message :=
    ([], { type := .binary
           start := ⟨none, exampleFrame, by decide +kernel⟩
           fragments := [] })
  { messages := [m, m]
    trailing := [] }

def exampleBytes : Bytes := exampleHead ++ headEnd ++ exampleMessages.wire

/-- The stream breaks off near its end. -/
def exampleReads : List ReadResult := [readOf (exampleBytes.take 200), .timeout, readOf ((exampleBytes.drop 200).take 400)]

def exampleClient : Connected × Client × List ReadResult :=
  Client.init.connect exampleSha1 exampleLink (lit "host") (lit "/") [] [] exampleReads

/-- The example channel's opening handshake is done. -/
theorem exampleClient_done : exampleClient = (.done, exampleClient.2.1, exampleClient.2.2) := by
  have hdone : exampleClient.1 = .done := by decide +kernel
  generalize exampleClient = connected at hdone ⊢
  obtain ⟨outcome, c, script⟩ := connected
  cases hdone
  rfl

def exampleChannel : Channel := ⟨exampleLink, exampleClient.2.1, exampleClient.2.2⟩

/-- The example channel reaches its notices. -/
theorem exampleChannel_reaches : Reaches (fun _ => startSha256) exampleChannel (exampleBytes.drop 600) exampleNotices := by
  have hconnect := exampleClient_done
  unfold exampleClient at hconnect
  unfold Reaches exampleChannel exampleClient
  dsimp only
  exact ⟨exampleSha1, lit "host", lit "/", [], [], exampleReads, exampleHead, hconnect, by decide +kernel,
    exampleMessages, [], nofun, by decide +kernel, by decide +kernel⟩

/-- The channel is opened; then there are three more passes. -/
def exampleVisit (opened : Bool) : Visit decimalStrtod fun _ => startSha256 :=
  { turn := ⟨{ meeting .nothing with opened }, ⟨lit "r", lit "token", lit "3.0"⟩, exampleChannel⟩
    sent := exampleNotices
    lost := exampleBytes.drop 600
    carried := by
      have hcarried : Carried exampleMessage := ⟨by decide +kernel, by decide +kernel, by decide +kernel⟩
      intro n hn
      obtain rfl | rfl := List.mem_pair.mp hn
      · exact hcarried
      · exact hcarried
    reaches := fun _ => exampleChannel_reaches }

def exampleVisits : List (Visit decimalStrtod fun _ => startSha256) :=
  [exampleVisit true, exampleVisit false, exampleVisit false, exampleVisit false]

/-- The session is started once, though its message comes twice before the stream breaks off. -/
theorem exampleVisits_started :
    let w := runFrom Visit.next ⟨.init, exampleChannel⟩ exampleVisits
    (starts w.thread).map (fun s => (s.1, s.2.sessionId, s.2.shellCommands)) =
        [(1, lit "s-1", lit "echo \"it's me\"")] ∧
      ∃ calls : List (Served decimalStrtod), starts w.thread = calls.flatMap Served.starts ∧
        ∀ c ∈ calls, placed c.heard = [] ∨ placed c.heard = [exampleAsked.start] := by
  obtain ⟨calls, hstarts, -, hheard, -⟩ := sessions_started exampleVisits exampleChannel
  refine ⟨by decide +kernel, calls, hstarts, ?_⟩
  intro c hc
  obtain ⟨hinitial, v, hv, hsent, -⟩ := hheard c hc
  have hnotices : v.sent = exampleNotices := by
    simp only [exampleVisits, List.mem_cons, List.not_mem_nil, or_false] at hv
    obtain rfl | rfl | rfl | rfl := hv <;> rfl
  rw [← hsent, hnotices] at hinitial
  obtain ⟨later, hsplit⟩ := hinitial
  generalize c.heard = heard at hsplit ⊢
  rcases heard with - | ⟨first, - | ⟨second, more⟩⟩
  · exact .inl rfl
  · obtain ⟨rfl, -⟩ := List.cons.inj hsplit
    exact .inr rfl
  · obtain ⟨rfl, htail⟩ := List.cons.inj hsplit
    obtain ⟨rfl, hnil⟩ := List.cons.inj htail
    obtain ⟨rfl, -⟩ := List.append_eq_nil_iff.mp hnil
    exact .inr rfl

end HaikuAgent.Analysis.SessionsStarted
