import HaikuAgent.Analysis.HttpReading

/-!
# The body of a response, as the reader takes it

`Taken headers s used data` says which bytes `read_body` takes off a stream `s` for which
body: the rounds of its chunk loop, the number of bytes `strtoul` makes of the
`Content-Length`, or everything. `readBody_spec` is what is known of a
response's body: whatever the cuts, the body taken is delivered, or there is an error.
-/

set_option autoImplicit false

namespace HaikuAgent.Analysis.HttpBodies

open HaikuAgent.Foundation
open HaikuAgent.Model
open HaikuAgent.Model.Http
open HaikuAgent.Model.Http.Exchange
open HaikuAgent.Model.Json (findEntry)
open HaikuAgent.Model.WebSocket (crlf headEnd)
open HaikuAgent.Analysis.HttpReading

/-! ## Rounds of the chunk loop -/

/-- What one round of the chunk loop takes off the stream: a line, the bytes it announces
and two more. -/
structure Piece where
  line : Bytes
  data : Bytes
  ending : Bytes
  line_ends : find line crlf 0 = none
  size : strtoul 16 line = data.length
  data_ne_nil : data ≠ []
  length_ending : ending.length = 2

/-- The rounds up to the line that is taken for the last. -/
inductive Rounds where
  | last (line : Bytes) (line_ends : find line crlf 0 = none) (size : strtoul 16 line = 0)
  | piece (p : Piece) (more : Rounds)

namespace Rounds

def text : Rounds → Bytes
  | last line _ _ => line ++ (crlf ++ [])
  | piece p more => p.line ++ (crlf ++ (p.data ++ (p.ending ++ more.text)))

def data : Rounds → Bytes
  | last _ _ _ => []
  | piece p more => p.data ++ more.data

/-- The first line. -/
def line : Rounds → Bytes
  | last line _ _ => line
  | piece p _ => p.line

/-- The first line of the rounds at the front of a stream is the one the reader finds. -/
theorem front (r : Rounds) (s : Bytes) (h : r.text <+: s) :
    find s crlf 0 = some r.line.length ∧ s.take r.line.length = r.line := by
  obtain ⟨rest, rfl⟩ := h
  cases r with
  | last line line_ends _ =>
    simp only [text, Rounds.line, List.append_assoc]
    exact ⟨find_crlf _ _ line_ends, List.take_left⟩
  | piece p more =>
    simp only [text, Rounds.line, List.append_assoc]
    exact ⟨find_crlf _ _ p.line_ends, List.take_left⟩

/-- Rounds whose first line announces data are a piece and the rounds behind it. -/
theorem behind (r : Rounds) (s : Bytes) (nl : ℕ) (h : r.text <+: s)
    (hfind : find s crlf 0 = some nl) (hsize : strtoul 16 (s.take nl) ≠ 0) :
    strtoul 16 (s.take nl) + 2 ≤ (s.drop (nl + 2)).length ∧
      ∃ more : Rounds, more.text <+: ((s.drop (nl + 2)).drop (strtoul 16 (s.take nl))).drop 2 := by
  obtain ⟨hfront, htake⟩ := r.front s h
  have hnl : nl = r.line.length := by
    rw [hfind] at hfront
    exact Option.some.inj hfront
  subst hnl
  rw [htake] at hsize ⊢
  obtain ⟨rest, rfl⟩ := h
  cases r with
  | last line line_ends size => exact absurd size hsize
  | piece p more =>
    have hdrop : (text (.piece p more) ++ rest).drop (p.line.length + 2) =
        p.data ++ (p.ending ++ (more.text ++ rest)) := by
      simp only [text, List.append_assoc]
      rw [← List.drop_drop, List.drop_left]
      rfl
    show strtoul 16 p.line + 2 ≤ _ ∧ _
    rw [show (Rounds.piece p more).line = p.line from rfl, hdrop, p.size, List.drop_left]
    refine ⟨?_, more, ?_⟩
    · rw [List.length_append, List.length_append, p.length_ending]
      omega
    · rw [← p.length_ending, List.drop_left]
      exact List.prefix_append _ _

/-- Two readings of a text end with the same line. -/
theorem line_unique (r r' : Rounds) (s : Bytes) (h : r.text <+: s) (h' : r'.text <+: s) :
    r.line = r'.line := by
  obtain ⟨hfind, htake⟩ := r.front s h
  obtain ⟨hfind', htake'⟩ := r'.front s h'
  rw [hfind] at hfind'
  rw [← htake, ← htake', Option.some.inj hfind']

/-- A stream begins with one sequence of rounds at most. -/
theorem unique (r r' : Rounds) (s : Bytes) (h : r.text <+: s) (h' : r'.text <+: s) : r = r' := by
  induction r generalizing r' s with
  | last line line_ends size =>
    have hline := line_unique _ _ s h h'
    cases r' with
    | last line' line_ends' size' =>
      cases hline
      rfl
    | piece p' more' =>
      have hsize := p'.size
      rw [← show line = p'.line from hline, size] at hsize
      exact absurd (List.length_eq_zero_iff.mp hsize.symm) p'.data_ne_nil
  | piece p more ih =>
    have hline := line_unique _ _ s h h'
    cases r' with
    | last line' line_ends' size' =>
      have hsize := p.size
      rw [show p.line = line' from hline, size'] at hsize
      exact absurd (List.length_eq_zero_iff.mp hsize.symm) p.data_ne_nil
    | piece p' more' =>
      have hline : p.line = p'.line := hline
      have hsize : p.data.length = p'.data.length := by rw [← p.size, hline, p'.size]
      obtain ⟨rest, hrest⟩ := h
      obtain ⟨rest', hrest'⟩ := h'
      have htail : p.data ++ (p.ending ++ (more.text ++ rest)) =
          p'.data ++ (p'.ending ++ (more'.text ++ rest')) := by
        rw [← hrest'] at hrest
        simp only [text, List.append_assoc, hline] at hrest
        exact List.append_cancel_left (List.append_cancel_left hrest)
      obtain ⟨hdata, htail⟩ := List.append_inj htail hsize
      obtain ⟨hending, htail⟩ := List.append_inj htail (p.length_ending.trans p'.length_ending.symm)
      have hmore := ih more' _ (List.prefix_append more.text rest)
        (htail ▸ List.prefix_append more'.text rest')
      cases p
      cases p'
      subst hline hdata hending hmore
      rfl

end Rounds

/-- What is ahead after the first line, once the line has been consumed. -/
theorem progress_line (x : Exchange) (nl : ℕ) (h : find x.pending crlf 0 = some nl) :
    Progress x (x.pending.take nl ++ (crlf ++ [])) [] { x with pending := x.pending.drop (nl + 2) } := by
  obtain ⟨hfits, -, hsplit⟩ := line_of_find _ _ h
  have hdrop := progress_drop x (nl + 2) hfits
  have htake : (ahead x).take (nl + 2) = x.pending.take nl ++ (crlf ++ []) := by
    rw [ahead, List.take_append_of_le_length hfits, List.append_nil]
    nth_rewrite 1 [hsplit]
    rw [← List.append_assoc, List.take_left' ?_]
    rw [List.length_append, List.length_take, show crlf.length = 2 from rfl]
    omega
  rwa [htake] at hdrop

/-- The data of a chunk and the two bytes behind it. -/
theorem chunk_spec (files : Files) (size : ℕ) (z : Exchange) (hopen : z.sink.failed = false) :
    (∃ w v, streamLoop files (lit "truncated chunk") (z.left + 1) size z = (true, w) ∧
      w.fill 2 = (true, v) ∧ size + 2 ≤ (ahead z).length ∧
      Progress z ((ahead z).take size ++ ((ahead z).drop size).take 2) ((ahead z).take size)
        { v with pending := v.pending.drop 2 }) ∨
    (∃ w v, streamLoop files (lit "truncated chunk") (z.left + 1) size z = (true, w) ∧
      w.fill 2 = (false, v) ∧ (ahead z).length < size + 2) ∨
    ∃ w, streamLoop files (lit "truncated chunk") (z.left + 1) size z = (false, w) ∧
      w.resp.error ≠ [] ∧ (Sound files → (ahead z).length < size + 2) := by
  rcases streamLoop_spec files (lit "truncated chunk") (by decide) (z.left + 1) size z
      (Nat.lt_succ_self _) hopen with ⟨w, hw, henough, hstreamed⟩ | ⟨w, hw, herror, hreason⟩
  · have hrest : ahead w = (ahead z).drop size := by
      rw [hstreamed.rest, List.length_take_of_le henough]
    by_cases htwo : 2 ≤ (ahead w).length
    · obtain ⟨v, hv, hfilled, hpending⟩ := fill_enough w 2 htwo
      have hended := (hstreamed.trans hfilled).trans (progress_drop v 2 hpending)
      rw [List.append_nil, List.append_nil, show ahead v = ahead w from hfilled.ahead, hrest] at hended
      rw [hrest, List.length_drop] at htwo
      exact Or.inl ⟨w, v, hw, hv, by omega, hended⟩
    · have hshort := fill_short w 2 (by omega)
      rw [hrest, List.length_drop] at htwo
      exact Or.inr (Or.inl ⟨w, _, hw, Prod.ext hshort rfl, by omega⟩)
  · refine Or.inr (Or.inr ⟨w, hw, herror, ?_⟩)
    intro hsound
    have hshort := hreason hsound
    omega

/-- The chunk loop delivers the data of the rounds at the front of the stream. -/
theorem chunkLoop_spec (files : Files) (fuel : ℕ) (x : Exchange) (hfuel : (ahead x).length < fuel)
    (hopen : x.sink.failed = false) :
    Ends files (chunkLoop files fuel x) (fun x' => ∃ r : Rounds, Progress x r.text r.data x')
      (¬∃ r : Rounds, r.text <+: ahead x) := by
  induction fuel generalizing x with
  | zero => omega
  | succ fuel ih =>
    unfold chunkLoop
    rcases lineLoop_spec (x.left + 1) x (by rw [left]; omega) with
      ⟨nl, y, hy, hread, hnl, hahead⟩ | ⟨y, hy, herror, hnone⟩
    · rw [hy]
      dsimp only
      obtain ⟨hfits, hends, -⟩ := line_of_find _ _ hnl
      obtain ⟨hlong, -, -⟩ := line_of_find _ _ hahead
      have hsame : ahead y = ahead x := hread.ahead
      have hline : y.pending.take nl = (ahead x).take nl := by
        rw [← hsame, ahead, List.take_append_of_le_length (by omega)]
      have hconsumed := hread.trans (progress_line y nl hnl)
      set z : Exchange := { y with pending := y.pending.drop (nl + 2) }
      have hrest : ahead z = (ahead x).drop (nl + 2) := by
        rw [← hsame, ahead, ahead, List.drop_append_of_le_length hfits]
      set size := strtoul 16 (y.pending.take nl) with hsize
      by_cases hzero : size = 0
      · rw [if_pos hzero]
        rcases finish_spec files z (hconsumed.failed.trans hopen) with
          ⟨_, hz, rfl⟩ | ⟨w, hw, herror, hreason⟩
        · exact Or.inl ⟨z, hz, .last _ hends hzero, hconsumed⟩
        · exact Or.inr ⟨w, hw, herror, fun hsound => (hreason hsound).elim⟩
      rw [if_neg hzero]
      -- a stream of rounds would continue behind this piece
      have hbehind := fun (r : Rounds) hr => r.behind (ahead x) nl hr hahead (hline ▸ hzero)
      rw [← hline, ← hrest, ← hsize] at hbehind
      rcases chunk_spec files size z (hconsumed.failed.trans hopen) with
        ⟨w, v, hw, hv, henough, hchunk⟩ | ⟨w, v, hw, hv, hshort⟩ | ⟨w, hw, herror, hreason⟩
      · rw [hw]
        dsimp only
        rw [hv]
        dsimp only
        have hround := hconsumed.trans hchunk
        set u : Exchange := { v with pending := v.pending.drop 2 }
        have hdata : ((ahead z).take size).length = size := List.length_take_of_le (by omega)
        have htwo : (((ahead z).drop size).take 2).length = 2 :=
          List.length_take_of_le (by rw [List.length_drop]; omega)
        have hu : ahead u = ((ahead z).drop size).drop 2 := by
          rw [hchunk.rest, List.length_append, hdata, htwo, List.drop_drop]
        have hlength : (ahead u).length < fuel := by
          rw [hu, hrest, List.length_drop, List.length_drop, List.length_drop]
          omega
        rcases ih u hlength (hround.failed.trans hopen) with
          ⟨x', hrun, more, hmore⟩ | ⟨x', hrun, herror, hreason⟩
        · have hne : (ahead z).take size ≠ [] := by
            intro hnil
            rw [hnil] at hdata
            exact hzero hdata.symm
          refine Or.inl ⟨x', hrun, .piece ⟨y.pending.take nl, _, _, hends, hdata.symm, hne, htwo⟩ more, ?_⟩
          have hall := hround.trans hmore
          simp only [List.nil_append, List.append_nil, List.append_assoc] at hall
          exact hall
        · refine Or.inr ⟨x', hrun, herror, ?_⟩
          rintro hsound ⟨r, hr⟩
          obtain ⟨-, more, hmore⟩ := hbehind r hr
          rw [← hu] at hmore
          exact hreason hsound ⟨more, hmore⟩
      · rw [hw]
        dsimp only
        rw [hv]
        refine Or.inr ⟨_, rfl, error_failUnless _ _ (by decide), ?_⟩
        rintro - ⟨r, hr⟩
        obtain ⟨hlong, -⟩ := hbehind r hr
        omega
      · rw [hw]
        refine Or.inr ⟨w, rfl, herror, ?_⟩
        rintro hsound ⟨r, hr⟩
        obtain ⟨hlong, -⟩ := hbehind r hr
        have hshort := hreason hsound
        omega
    · rw [hy]
      refine Or.inr ⟨y, rfl, herror, ?_⟩
      rintro - ⟨r, hr⟩
      rw [(r.front _ hr).1] at hnone
      cases hnone

/-- To the end of the connection everything is delivered. -/
theorem endLoop_spec (files : Files) (fuel : ℕ) (x : Exchange) (hfuel : x.transport.incoming.length < fuel)
    (hpending : x.pending = []) (hopen : x.sink.failed = false) :
    Ends files (endLoop files fuel x) (fun x' => Progress x (ahead x) (ahead x) x')
      (x.transport.ending ≠ .closed) := by
  induction fuel generalizing x with
  | zero => omega
  | succ fuel ih =>
    unfold endLoop
    by_cases hin : x.transport.incoming = []
    · rw [read_nil _ _ hin]
      have hnone : ahead x = [] := by rw [ahead, hpending, hin]; rfl
      cases hending : x.transport.ending with
      | closed =>
        dsimp only
        set y : Exchange := { x with
          transport := ⟨x.transport.incoming, x.transport.cuts, x.transport.reads + 1, .closed⟩ }
        have hread : Progress x [] [] y :=
          { Progress.refl x with
            ahead := rfl
            ending := hending.symm }
        rw [hnone]
        rcases finish_spec files y hopen with ⟨_, hy, rfl⟩ | ⟨z, hz, herror, hreason⟩
        · exact Or.inl ⟨y, hy, hread⟩
        · exact Or.inr ⟨z, hz, herror, fun hsound => (hreason hsound).elim⟩
      | failed err => exact Or.inr ⟨_, rfl, readError_ne_nil err, fun _ h => by cases h⟩
    · obtain ⟨bytes, rest, hne, hsplit, -, hread⟩ := read_data x.transport (64 * 1024) (by omega) hin
      rw [hread]
      dsimp only
      set y : Exchange := { x with
        transport := { x.transport with
          incoming := rest
          reads := x.transport.reads + 1 } }
      have hlength := congrArg List.length hsplit
      have hpos := List.length_pos_iff.mpr hne
      rw [List.length_append] at hlength
      rcases append_spec files y bytes hopen with
        ⟨z, hz, hp, ht, happend⟩ | ⟨z, hz, herror, hreason⟩
      · rw [hz]
        dsimp only
        have hround : Progress x bytes bytes z :=
          { happend with
            ahead := by
              rw [ahead, hp, ht]
              show bytes ++ (x.pending ++ rest) = x.pending ++ x.transport.incoming
              rw [hpending, List.nil_append, List.nil_append, hsplit] }
        have hz_incoming : z.transport.incoming = rest := by rw [ht]
        rcases ih z (by rw [hz_incoming]; omega) (hp.trans hpending) (hround.failed.trans hopen) with
          ⟨w, hrun, hmore⟩ | ⟨w, hrun, herror, hreason⟩
        · refine Or.inl ⟨w, hrun, ?_⟩
          have hall := hround.trans hmore
          rwa [hround.ahead] at hall
        · rw [hround.ending] at hreason
          exact Or.inr ⟨w, hrun, herror, hreason⟩
      · rw [hz]
        exact Or.inr ⟨z, rfl, herror, fun hsound => (hreason hsound).elim⟩

/-- The body that the headers announce at the front of a stream: the bytes it takes up and the
data it stands for. -/
inductive Taken (headers : List (Bytes × Bytes)) (s : Bytes) : Bytes → Bytes → Prop where
  | chunked (h : isChunked headers = true) (r : Rounds) (hr : r.text <+: s) :
      Taken headers s r.text r.data
  | sized (h : isChunked headers = false) (length : Bytes)
      (hlength : findEntry headers (lit "content-length") = some length)
      (hsize : strtoul 10 length ≤ s.length) :
      Taken headers s (s.take (strtoul 10 length)) (s.take (strtoul 10 length))
  | toEnd (h : isChunked headers = false)
      (hlength : findEntry headers (lit "content-length") = none) : Taken headers s s s

/-- A body is taken in one way. -/
theorem Taken.unique {headers : List (Bytes × Bytes)} {s used data used' data' : Bytes}
    (h : Taken headers s used data) (h' : Taken headers s used' data') : data = data' := by
  cases h with
  | chunked hchunked r hr =>
    cases h' with
    | chunked _ r' hr' => rw [r.unique r' s hr hr']
    | sized hplain => cases hchunked.symm.trans hplain
    | toEnd hplain => cases hchunked.symm.trans hplain
  | sized hplain length hlength =>
    cases h' with
    | chunked hchunked => cases hchunked.symm.trans hplain
    | sized _ length' hlength' =>
      rw [hlength] at hlength'
      cases hlength'
      rfl
    | toEnd _ hnone => cases hlength.symm.trans hnone
  | toEnd hplain hnone =>
    cases h' with
    | chunked hchunked => cases hchunked.symm.trans hplain
    | sized _ length hlength => cases hlength.symm.trans hnone
    | toEnd => rfl

/-- What was read ahead goes to the sink first. -/
theorem flushPending_spec (files : Files) (x : Exchange) (hopen : x.sink.failed = false) :
    Ends files (if x.pending = [] then (true, x) else x.append files x.pending)
      (fun y => y.transport = x.transport ∧
        Progress x x.pending x.pending { y with pending := [] }) False := by
  split_ifs with hpending
  · refine Or.inl ⟨x, rfl, rfl, ?_⟩
    have hsame : ({ x with pending := [] } : Exchange) = x := by
      rw [← hpending]
    rw [hsame, hpending]
    exact Progress.refl x
  · rcases append_spec files x x.pending hopen with ⟨y, hy, hp, ht, happend⟩ | hfailed
    · refine Or.inl ⟨y, hy, ht, ?_⟩
      exact { happend with
        ahead := by
          show x.pending ++ ([] ++ _) = _
          rw [ht]
          rfl }
    · exact Or.inr hfailed

/-- `read_body` takes the announced body off the stream, or leaves an error. -/
theorem readBody_spec (files : Files) (x : Exchange) (hopen : x.sink.failed = false) :
    Ends files (x.readBody files)
      (fun x' => ∃ used data, Taken x.resp.headers (ahead x) used data ∧ Progress x used data x')
      ((¬∃ used data, Taken x.resp.headers (ahead x) used data) ∨
        (isChunked x.resp.headers = false ∧
          findEntry x.resp.headers (lit "content-length") = none ∧ x.transport.ending ≠ .closed)) := by
  unfold readBody
  rw [hopen, if_neg Bool.false_ne_true]
  cases hchunked : isChunked x.resp.headers with
  | true =>
    rw [if_pos rfl]
    rcases chunkLoop_spec files (x.left + 1) x (by rw [← left_eq]; omega) hopen with
      ⟨y, hy, r, hr⟩ | ⟨y, hy, herror, hreason⟩
    · exact Or.inl ⟨y, hy, _, _, .chunked hchunked r ⟨_, hr.ahead⟩, hr⟩
    · refine Or.inr ⟨y, hy, herror, fun hsound => Or.inl ?_⟩
      rintro ⟨used, data, htaken⟩
      cases htaken with
      | chunked _ r hr => exact hreason hsound ⟨r, hr⟩
      | sized hplain => cases hchunked.symm.trans hplain
      | toEnd hplain => cases hchunked.symm.trans hplain
  | false =>
    rw [if_neg Bool.false_ne_true]
    cases hlength : findEntry x.resp.headers (lit "content-length") with
    | some length =>
      dsimp only
      rcases streamLoop_spec files (lit "truncated body") (by decide) (x.left + 1)
          (strtoul 10 length) x (Nat.lt_succ_self _) hopen with
        ⟨y, hy, henough, hstreamed⟩ | ⟨y, hy, herror, hreason⟩
      · rw [hy]
        rcases finish_spec files y (hstreamed.failed.trans hopen) with
          ⟨_, hz, rfl⟩ | ⟨z, hz, herror, hreason⟩
        · exact Or.inl ⟨_, hz, _, _, .sized hchunked length hlength henough, hstreamed⟩
        · exact Or.inr ⟨z, hz, herror, fun hsound => (hreason hsound).elim⟩
      · rw [hy]
        refine Or.inr ⟨y, rfl, herror, fun hsound => Or.inl ?_⟩
        have hshort := hreason hsound
        rintro ⟨used, data, htaken⟩
        cases htaken with
        | chunked h => cases h.symm.trans hchunked
        | sized _ length' hlength' hsize =>
          rw [hlength] at hlength'
          cases hlength'
          omega
        | toEnd _ hnone => cases hlength.symm.trans hnone
    | none =>
      dsimp only
      rcases flushPending_spec files x hopen with
        ⟨y, hy, ht, hflushed⟩ | ⟨y, hy, herror, hreason⟩
      · rw [hy]
        dsimp only
        rcases endLoop_spec files _ { y with pending := [] }
            (show y.transport.incoming.length < 0 + y.transport.incoming.length + 1 by omega) rfl
            (hflushed.failed.trans hopen) with
          ⟨z, hz, hended⟩ | ⟨z, hz, herror, hreason⟩
        · have hall := hflushed.trans hended
          rw [hflushed.ahead] at hall
          exact Or.inl ⟨z, hz, _, _, .toEnd hchunked hlength, hall⟩
        · refine Or.inr ⟨z, hz, herror, fun hsound => Or.inr ⟨rfl, rfl, ?_⟩⟩
          rw [← hflushed.ending]
          exact hreason hsound
      · rw [hy]
        exact Or.inr ⟨y, rfl, herror, fun hsound => (hreason hsound).elim⟩

end HaikuAgent.Analysis.HttpBodies
