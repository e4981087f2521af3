import HaikuAgent.Analysis.HttpDecoding

/-!
# Damaged responses

Whether a response without an error is one that was received whole. The reader trusts
`strtoul` with the size lines and with the `Content-Length`, and passes over the two bytes
behind a chunk without looking at them. `Trustworthy` says of the bytes a server sent that
it is not deceived by these; `damageReported_iff` that this is exactly when a missing error
can be relied on.
-/

set_option autoImplicit false

namespace HaikuAgent.Analysis.HttpDamage

open HaikuAgent.Foundation
open HaikuAgent.Model
open HaikuAgent.Model.Http
open HaikuAgent.Model.Http.Exchange
open HaikuAgent.Model.Json (findEntry)
open HaikuAgent.Model.WebSocket (crlf headEnd)
open HaikuAgent.Interface.HttpMessage
open HaikuAgent.Analysis.HttpReading
open HaikuAgent.Analysis.HttpBodies
open HaikuAgent.Analysis.HttpDecoding

/-- What was received behind the header block begins with a body of exactly `delivered`: a
chunked coding up to its last chunk, or as many bytes as are declared. -/
def Whole (headers : List (Bytes × Bytes)) (received delivered : Bytes) : Prop :=
  if isChunked headers then ∃ c : Coding, c.text <+: received ∧ c.body = delivered
  else
    ∀ length, findEntry headers (lit "content-length") = some length →
      ∃ digits, digits ≠ [] ∧ length = digits.map decimalByte ∧
        decimalValue digits = delivered.length ∧ delivered <+: received

/-- Of the bytes a server sends, a response that is not whole has an error, however they are cut
and wherever the body goes. -/
def DamageReported (bytes : Bytes) : Prop :=
  ∀ (cuts : ℕ → ℕ) (ending : Ending) (path : Bytes) (files : Files),
    let x := perform path files none ⟨bytes, cuts, 0, ending⟩
    x.resp.error = [] → ∃ stop, find bytes headEnd 0 = some stop ∧
      Whole x.resp.headers (bytes.drop (stop + 4)) (stored x)

/-- Every line of the rounds is a size line, and a CRLF follows every chunk. -/
def WellFormed : Rounds → Prop
  | .last line _ _ => ∃ l : SizeLine, l.text = line
  | .piece p more => (∃ l : SizeLine, l.text = p.line) ∧ p.ending = crlf ∧ WellFormed more

/-- The value of a `Content-Length`: digits, and a number of 64 bits. -/
def IsLength (length : Bytes) : Prop :=
  ∃ digits, digits ≠ [] ∧ length = digits.map decimalByte ∧ decimalValue digits < 2 ^ 64

/-- Where the header block can be read and the announced body is all there, the lines that
announce it are well formed. -/
def Trustworthy (bytes : Bytes) : Prop :=
  ∀ stop status headers, find bytes headEnd 0 = some stop → stop + 4 ≤ 256 * 1024 →
    parseHead (bytes.take stop) = .ok (status, headers) →
    if isChunked headers then ∀ r : Rounds, r.text <+: bytes.drop (stop + 4) → WellFormed r
    else
      ∀ length, findEntry headers (lit "content-length") = some length →
        strtoul 10 length ≤ (bytes.drop (stop + 4)).length → IsLength length

/-! ## Codings and rounds -/

/-- The chunks of a message are well formed. -/
theorem wellFormed_roundsOf (chunks : List Chunk) (last : SizeLine) (h : last.size = 0) :
    WellFormed (roundsOf chunks last h) := by
  induction chunks with
  | nil => exact ⟨last, rfl⟩
  | cons c chunks ih => exact ⟨⟨c.line, rfl⟩, rfl, ih⟩

/-- Well-formed rounds are a coding. -/
theorem coding_of_wellFormed (r : Rounds) (h : WellFormed r) :
    ∃ c : Coding, c.text = r.text ∧ c.body = r.data := by
  induction r with
  | last line line_ends size =>
    obtain ⟨l, rfl⟩ := h
    exact ⟨⟨[], l, (strtoul_sizeLine l).symm.trans size⟩, rfl, rfl⟩
  | piece p more ih =>
    obtain ⟨⟨l, hl⟩, hending, hmore⟩ := h
    obtain ⟨c, htext, hbody⟩ := ih hmore
    have hsize : l.size = p.data.length := by rw [← strtoul_sizeLine, hl, p.size]
    refine ⟨⟨⟨l, p.data, hsize, p.data_ne_nil⟩ :: c.chunks, c.last, c.last_size⟩, ?_, ?_⟩
    · unfold Coding.text at htext ⊢
      rw [List.flatMap_cons, List.append_assoc, htext]
      simp only [Chunk.text, Rounds.text, List.append_assoc, hl, hending]
      rfl
    · show p.data ++ c.body = p.data ++ more.data
      rw [hbody]

/-- A coding at the front of a stream is the only way to read it. -/
theorem wellFormed_of_coding (c : Coding) (r : Rounds) (s : Bytes) (hc : c.text <+: s)
    (hr : r.text <+: s) : WellFormed r := by
  have htext := text_roundsOf c.chunks c.last c.last_size
  rw [r.unique (roundsOf c.chunks c.last c.last_size) s hr (htext ▸ hc)]
  exact wellFormed_roundsOf _ _ _

/-- A number that is read fits into 64 bits. -/
theorem strtoul_lt (base : ℕ) (s : Bytes) : strtoul base s < 2 ^ 64 := by
  unfold strtoul
  dsimp only
  split_ifs <;> omega

/-! ## Reading a stream to its end -/

/-- The sink is open and empty, or there is an error. -/
theorem openSink_spec (files : Files) (path : Bytes) (x : Exchange) :
    (∃ sink : BodySink, x.openSink files path = { x with sink := sink } ∧ sink.failed = false ∧
      (sink.file = none ∨ sink.file = some [])) ∨
    ((x.openSink files path).sink.failed = true ∧ (x.openSink files path).resp.error ≠ []) := by
  unfold openSink
  split_ifs with hpath
  · exact Or.inl ⟨_, rfl, rfl, Or.inl rfl⟩
  · cases files.openError with
    | none => exact Or.inl ⟨_, rfl, rfl, Or.inr rfl⟩
    | some err => exact Or.inr ⟨rfl, List.append_ne_nil_of_left_ne_nil (by
        exact List.append_ne_nil_of_left_ne_nil (List.append_ne_nil_of_left_ne_nil (by decide) _) _) _⟩

/-- `perform` once the header block has been read. -/
theorem perform_eq (path : Bytes) (files : Files) (t : Transport) (x : Exchange)
    (h : (start t).readHeaders = (true, x)) :
    perform path files none t =
      ((x.openSink files (if 200 ≤ x.resp.status ∧ x.resp.status < 300 then path else [])).readBody
        files).2 := by
  unfold perform
  rw [h]

/-- What is ahead behind the head is what came in behind it. -/
theorem rest_of_head (t : Transport) (y : Exchange) (stop : ℕ)
    (hfind : find (ahead (start t)) headEnd 0 = some stop)
    (h : Progress (start t) ((ahead (start t)).take (stop + 4)) [] y) :
    ahead y = t.incoming.drop (stop + 4) := by
  have hpat := (find_eq_some _ _ _ _).mp hfind
  have hlength := hpat.2.2.1.length_le
  rw [List.length_drop, show headEnd.length = 4 from rfl] at hlength
  rw [h.rest, List.length_take_of_le (by omega)]
  rfl

/-- A response without an error is one whose announced body was taken and delivered. -/
theorem taken_of_perform (t : Transport) (path : Bytes) (files : Files)
    (h : (perform path files none t).resp.error = []) :
    ∃ stop status headers used, find t.incoming headEnd 0 = some stop ∧ stop + 4 ≤ 256 * 1024 ∧
      parseHead (t.incoming.take stop) = .ok (status, headers) ∧
      (perform path files none t).resp.headers = headers ∧
      Taken headers (t.incoming.drop (stop + 4)) used (stored (perform path files none t)) := by
  rcases readHeaders_spec 4096 (start t) (fun call => min_le_left _ _) (Nat.zero_le _) with
    ⟨y, stop, status, headers, hread, hstop, hsize, hparse, hprogress⟩ | ⟨y, hread, herror, -⟩
  · rw [perform_eq path files t _ hread] at h ⊢
    have hrest := rest_of_head t y stop hstop hprogress
    have hempty : y.resp.body = [] := (stored_of_none y hprogress.file).symm.trans hprogress.stored
    rcases openSink_spec files (if 200 ≤ status ∧ status < 300 then path else [])
        (withHead y status headers) with ⟨sink, hsink, hopen, hfile⟩ | ⟨hfailed, herror⟩
    · rw [show (withHead y status headers).resp.status = status from rfl, hsink] at h ⊢
      rcases readBody_spec files { withHead y status headers with sink := sink } hopen with
        ⟨z, hz, used, data, htaken, hdone⟩ | ⟨z, hz, herror, -⟩
      · rw [hz]
        have hstored : stored z = data := by
          rw [hdone.stored, stored]
          rcases hfile with hnone | hnew
          · rw [hnone]
            exact congrArg (· ++ data) hempty
          · rw [hnew]
            rfl
        rw [hstored]
        rw [show ahead { withHead y status headers with sink := sink } = ahead y from rfl, hrest] at htaken
        exact ⟨stop, status, headers, used, hstop, hsize, hparse, hdone.headers, htaken⟩
      · rw [hz] at h
        exact absurd h herror
    · refine absurd ?_ herror
      unfold readBody at h
      rw [show (withHead y status headers).resp.status = status from rfl, hfailed, if_pos rfl] at h
      exact h
  · unfold perform at h
    rw [hread] at h
    exact absurd h herror

/-- A body that is announced and all there is delivered, when the bytes come one by one. -/
theorem perform_of_taken (bytes : Bytes) (stop : ℕ) (status : ℤ) (headers : List (Bytes × Bytes))
    (used data : Bytes) (hstop : find bytes headEnd 0 = some stop) (hsize : stop + 4 ≤ 256 * 1024)
    (hparse : parseHead (bytes.take stop) = .ok (status, headers))
    (htaken : Taken headers (bytes.drop (stop + 4)) used data) :
    let x := perform [] ⟨none, fun _ => none, none⟩ none ⟨bytes, fun _ => 0, 0, .closed⟩
    x.resp.error = [] ∧ x.resp.headers = headers ∧ stored x = data := by
  intro x
  have hsound : Sound ⟨none, fun _ => none, none⟩ := ⟨rfl, fun _ => rfl, rfl⟩
  rcases readHeaders_spec 1 (start ⟨bytes, fun _ => 0, 0, .closed⟩) (fun call => min_le_right 4096 1)
      (Nat.zero_le _) with
    ⟨y, stop', status', headers', hread, hstop', -, hparse', hprogress⟩ | ⟨y, -, -, hreason⟩
  · cases hstop.symm.trans hstop'
    cases hparse.symm.trans hparse'
    have hrest : ahead y = bytes.drop (stop + 4) := rest_of_head _ y stop hstop' hprogress
    have hempty : y.resp.body = [] := (stored_of_none y hprogress.file).symm.trans hprogress.stored
    have hx : x = (((withHead y status headers).openSink ⟨none, fun _ => none, none⟩ []).readBody
        ⟨none, fun _ => none, none⟩).2 := by
      show perform _ _ _ _ = _
      rw [perform_eq _ _ _ _ hread, ite_self]
    rw [← hrest] at htaken
    rcases readBody_spec ⟨none, fun _ => none, none⟩
        { withHead y status headers with sink := BodySink.init } rfl with
      ⟨z, hz, used', data', htaken', hdone⟩ | ⟨z, -, -, hreason⟩
    · have hxz : x = z := by
        rw [hx]
        exact congrArg Prod.snd hz
      rw [hxz, htaken.unique htaken']
      refine ⟨hdone.error.trans hprogress.error, hdone.headers, ?_⟩
      rw [hdone.stored]
      exact congrArg (· ++ data') hempty
    · rcases hreason hsound with hnone | ⟨-, -, hending⟩
      · exact absurd ⟨used, data, htaken⟩ hnone
      · exact absurd hprogress.ending hending
  · obtain ⟨err, herr⟩ := hreason stop hstop (by omega)
    cases hparse.symm.trans herr

/-- Where damage is reported, a body that is taken is whole. -/
theorem whole_of_taken (bytes : Bytes) (h : DamageReported bytes) (stop : ℕ) (status : ℤ)
    (headers : List (Bytes × Bytes)) (used data : Bytes) (hstop : find bytes headEnd 0 = some stop)
    (hsize : stop + 4 ≤ 256 * 1024) (hparse : parseHead (bytes.take stop) = .ok (status, headers))
    (htaken : Taken headers (bytes.drop (stop + 4)) used data) :
    Whole headers (bytes.drop (stop + 4)) data := by
  obtain ⟨herror, hheaders, hstored⟩ :=
    perform_of_taken bytes stop status headers used data hstop hsize hparse htaken
  obtain ⟨stop', hstop', hwhole⟩ := h _ _ _ _ herror
  cases hstop.symm.trans hstop'
  rwa [hheaders, hstored] at hwhole

/-- A missing error can be relied on exactly for trustworthy bytes. -/
theorem damageReported_iff (bytes : Bytes) : DamageReported bytes ↔ Trustworthy bytes := by
  constructor
  · intro h stop status headers hstop hsize hparse
    split_ifs with hchunked
    · intro r hr
      have hwhole := whole_of_taken bytes h stop status headers _ _ hstop hsize hparse
        (.chunked hchunked r hr)
      rw [Whole, if_pos hchunked] at hwhole
      obtain ⟨c, hc, -⟩ := hwhole
      exact wellFormed_of_coding c r _ hc hr
    · intro length hlength henough
      have hplain : isChunked headers = false := Bool.eq_false_iff.mpr hchunked
      have hwhole := whole_of_taken bytes h stop status headers _ _ hstop hsize hparse
        (.sized hplain length hlength henough)
      rw [Whole, if_neg hchunked] at hwhole
      obtain ⟨digits, hne, hdigits, hvalue, -⟩ := hwhole length hlength
      rw [List.length_take_of_le henough] at hvalue
      exact ⟨digits, hne, hdigits, hvalue ▸ strtoul_lt 10 length⟩
  · intro h cuts ending path files x herror
    obtain ⟨stop, status, headers, used, hstop, hsize, hparse, hheaders, htaken⟩ :=
      taken_of_perform ⟨bytes, cuts, 0, ending⟩ path files herror
    refine ⟨stop, hstop, ?_⟩
    have htrust := h stop status headers hstop hsize hparse
    rw [hheaders, Whole]
    generalize stored x = delivered at htaken ⊢
    cases htaken with
    | chunked hchunked r hr =>
      rw [if_pos hchunked] at htrust ⊢
      obtain ⟨c, htext, hbody⟩ := coding_of_wellFormed r (htrust r hr)
      exact ⟨c, htext ▸ hr, hbody⟩
    | sized hplain length hlength henough =>
      rw [hplain, if_neg Bool.false_ne_true] at htrust ⊢
      intro length' hlength'
      rw [hlength] at hlength'
      cases hlength'
      obtain ⟨digits, hne, rfl, hvalue⟩ := htrust length hlength henough
      refine ⟨digits, hne, rfl, ?_, List.take_prefix _ _⟩
      rw [List.length_take_of_le henough, strtoul_decimal digits hne hvalue]
    | toEnd hplain hnone =>
      rw [hplain, if_neg Bool.false_ne_true]
      intro length hlength
      cases hnone.symm.trans hlength

/-- A chunked response whose first size line is no number. -/
def garbledResponse : Bytes :=
  lit "HTTP/1.1 200 OK" ++ crlf ++ lit "Transfer-Encoding: chunked" ++ headEnd ++ lit "zz" ++ crlf

/-- The first byte of a coding is a digit. -/
theorem digit_of_coding (c : Coding) (first : UInt8) (rest : Bytes) (h : c.text <+: first :: rest) :
    (digitValue 16 first).isSome := by
  have hline : ∀ (l : SizeLine) (more : Bytes), l.text ++ more <+: first :: rest →
      (digitValue 16 first).isSome := by
    intro l more hl
    obtain ⟨d, ds, hds⟩ := List.exists_cons_of_ne_nil l.ne_nil
    rw [SizeLine.text, hds] at hl
    rw [← (List.cons_prefix_cons.mp hl).1, digitValue_hexByte]
    rfl
  unfold Coding.text at h
  cases hchunks : c.chunks with
  | nil =>
    rw [hchunks] at h
    exact hline _ _ h
  | cons chunk chunks =>
    rw [hchunks, List.flatMap_cons, Chunk.text, List.append_assoc, List.append_assoc] at h
    exact hline _ _ h

/-- The reader takes the line for the last one. -/
def garbledRounds : Rounds := .last (lit "zz") (by decide) (by decide)

def garbledHeaders : List (Bytes × Bytes) := [(lit "transfer-encoding", lit "chunked")]

/-- The garbled response says that it comes in chunks. -/
theorem garbled_chunked : isChunked garbledHeaders = true := by decide +kernel

/-- Its head ends at byte 43. -/
theorem garbled_find : find garbledResponse headEnd 0 = some 43 := by decide +kernel

/-- Its head is accepted. -/
theorem garbled_head : parseHead (garbledResponse.take 43) = .ok (200, garbledHeaders) := by
  decide +kernel

/-- What is behind the head is no chunk. -/
theorem garbled_received : garbledResponse.drop (43 + 4) = 122 :: [122, 13, 10] := by decide +kernel

/-- Still no damage is reported. -/
theorem garbled_not_reported : ¬DamageReported garbledResponse := by
  intro h
  have htaken : Taken garbledHeaders (garbledResponse.drop (43 + 4)) _ _ :=
    Taken.chunked garbled_chunked garbledRounds ⟨[], by decide +kernel⟩
  have hwhole := whole_of_taken garbledResponse h 43 200 garbledHeaders _ _ garbled_find (by omega)
    garbled_head htaken
  rw [Whole, if_pos garbled_chunked, garbled_received] at hwhole
  obtain ⟨c, hc, -⟩ := hwhole
  exact absurd (digit_of_coding c 122 _ hc) (by decide)

end HaikuAgent.Analysis.HttpDamage
