import HaikuAgent.Model.Http
import HaikuAgent.Model.Json
import HaikuAgent.Model.WebSocket

/-!
# Receiving an HTTP response (`http.cpp`)

The transport holds what the peer sends before the connection ends, how much of it is
there to be read at each call, and how the connection ends. The state of a request is an
`Exchange`: the transport, the bytes read ahead (`pending`), the response and the sink of
its body. A loop that reads takes as fuel one more than the bytes that are left.
-/

set_option autoImplicit false

namespace HaikuAgent.Model.Http

open HaikuAgent.Foundation
open HaikuAgent.Model.Json (setEntry findEntry)
open HaikuAgent.Model.WebSocket (crlf headEnd)

/-- SRC: http.h:35-43 -/
structure FullResponse extends Response where
  /-- lower-cased keys -/
  headers : List (Bytes × Bytes)
  sinkBytes : ℕ
  deriving DecidableEq

def FullResponse.init : FullResponse := ⟨Response.init, [], 0⟩

/-! ## The transport -/

/-- What `read` returns when nothing is left: `0`, or a negative number with the error, which
is empty at a timeout. -/
inductive Ending where
  | closed
  | failed (err : Bytes)
  deriving DecidableEq

structure Transport where
  incoming : Bytes
  /-- how many bytes, less one, are there to be read at the call of a given number -/
  cuts : ℕ → ℕ
  reads : ℕ
  ending : Ending

inductive ReadResult where
  | data (bytes : Bytes)
  | ended (how : Ending)
  deriving DecidableEq

/-- SRC: http.cpp:178-186 -/
def Transport.read (t : Transport) (len : ℕ) : ReadResult × Transport :=
  match t.incoming with
  | [] => (.ended t.ending, { t with reads := t.reads + 1 })
  | first :: rest =>
    let n := min len (t.cuts t.reads + 1)
    (.data ((first :: rest).take n),
      { t with
        incoming := (first :: rest).drop n
        reads := t.reads + 1 })

/-! ## The sink -/

/-- What the file system answers when a response body is stored. -/
structure Files where
  /-- the error of `fopen`, if it fails -/
  openError : Option Bytes
  /-- the number of bytes and the error of a `fwrite` of a given number that falls short -/
  shortWrite : ℕ → Option (ℕ × Bytes)
  /-- the error of `fflush` or `fsync`, if one fails -/
  flushError : Option Bytes

/-- The members of `BodySink`, its file as the bytes in it, and the number of `fwrite` calls.
SRC: http.cpp:369-414 -/
structure BodySink where
  file : Option Bytes
  failed : Bool
  writes : ℕ
  deriving DecidableEq

/-- A sink that goes to `resp.body`. -/
def BodySink.init : BodySink := ⟨none, false, 0⟩

structure Exchange where
  transport : Transport
  pending : Bytes
  resp : FullResponse
  sink : BodySink

namespace Exchange

/-- `resp.error = err`. -/
def fail (x : Exchange) (err : Bytes) : Exchange :=
  { x with resp := { x.resp with error := err } }

/-- `resp.error = resp.error.empty() ? text : resp.error`. -/
def failUnless (x : Exchange) (text : Bytes) : Exchange :=
  if x.resp.error = [] then x.fail text else x

/-- `err.empty() ? "read timeout" : err`. -/
def readError (err : Bytes) : Bytes := if err = [] then lit "read timeout" else err

/-- The bytes that have not been decoded. -/
def left (x : Exchange) : ℕ := x.pending.length + x.transport.incoming.length

/-- The constructor of `BodySink`.
SRC: http.cpp:371-379 -/
def openSink (files : Files) (path : Bytes) (x : Exchange) : Exchange :=
  if path = [] then { x with sink := BodySink.init }
  else
    match files.openError with
    | some err =>
      { x with sink := { BodySink.init with failed := true } }.fail
        (lit "open(" ++ path ++ lit "): " ++ err)
    | none => { x with sink := { BodySink.init with file := some [] } }

/-- How many of `len` bytes a `fwrite` writes, and its error. -/
def fwrite (files : Files) (call len : ℕ) : ℕ × Bytes :=
  match files.shortWrite call with
  | some (n, err) => (min n len, err)
  | none => (len, [])

/-- `BodySink::append`.
SRC: http.cpp:384-397 -/
def append (files : Files) (x : Exchange) (data : Bytes) : Bool × Exchange :=
  if x.sink.failed then (false, x)
  else
    match x.sink.file with
    | some bytes =>
      let (n, err) := fwrite files x.sink.writes data.length
      let x := { x with
        sink := { x.sink with
          file := some (bytes ++ data.take n)
          writes := x.sink.writes + 1 } }
      if n ≠ data.length then
        (false, { x with sink := { x.sink with failed := true } }.fail
          (lit "short write to body file: " ++ err))
      else (true, { x with resp := { x.resp with sinkBytes := x.resp.sinkBytes + data.length } })
    | none =>
      (true, { x with
        resp := { x.resp with
          body := x.resp.body ++ data
          sinkBytes := x.resp.sinkBytes + data.length } })

/-- `BodySink::finish`.
SRC: http.cpp:398-408 -/
def finish (files : Files) (x : Exchange) : Bool × Exchange :=
  if x.sink.failed then (false, x)
  else
    match x.sink.file, files.flushError with
    | some _, some err =>
      (false, { x with sink := { x.sink with failed := true } }.fail
        (lit "flush body file: " ++ err))
    | _, _ => (true, x)

/-! ## The header block -/

/-- SRC: http.cpp:318-335 -/
def headLoop : ℕ → Exchange → Bool × Exchange
  | fuel, x =>
    match find x.pending headEnd 0 with
    | some _ => (true, x)
    | none =>
      match fuel with
      | 0 => (false, x)
      | fuel + 1 =>
        match x.transport.read 4096 with
        | (.ended (.failed err), t) => (false, { x with transport := t }.fail (readError err))
        | (.ended .closed, t) =>
          (false, { x with transport := t }.fail (lit "connection closed before headers completed"))
        | (.data bytes, t) =>
          let x := { x with
            transport := t
            pending := x.pending ++ bytes }
          if 256 * 1024 < x.pending.length then (false, x.fail (lit "header block too large"))
          else headLoop fuel x

/-- One header line; a line without a colon is passed over.
SRC: http.cpp:357-362 -/
def addHeader (headers : List (Bytes × Bytes)) (line : Bytes) : List (Bytes × Bytes) :=
  let line := if line.getLast? = some 13 then line.dropLast else line
  if line = [] then headers
  else
    match find line [58] 0 with
    | none => headers
    | some colon =>
      setEntry headers (lower (trim (line.take colon))) (trim (line.drop (colon + 1)))

/-- The status and the headers, or the error.
SRC: http.cpp:341-363 -/
def parseHead (head : Bytes) : Except Bytes (ℤ × List (Bytes × Bytes)) :=
  match split head 10 with
  | [] => .error (lit "empty response")
  | s :: lines =>
    match find s [32] 0 with
    | none => .error (lit "malformed status line")
    | some sp => .ok (atoi (s.drop (sp + 1)), lines.foldl addHeader [])

/-- `read_headers`.
SRC: http.cpp:316-365 -/
def readHeaders (x : Exchange) : Bool × Exchange :=
  match headLoop (x.left + 1) x with
  | (false, x) => (false, x)
  | (true, x) =>
    let stop := (find x.pending headEnd 0).getD 0
    let head := x.pending.take stop
    let x := { x with pending := x.pending.drop (stop + 4) }
    match parseHead head with
    | .error err => (false, x.fail err)
    | .ok (status, headers) =>
      (true, { x with
        resp := { x.resp with
          status := status
          headers := headers } })

/-! ## The body -/

/-- SRC: http.cpp:417-418 -/
def isChunked (headers : List (Bytes × Bytes)) : Bool :=
  match findEntry headers (lit "transfer-encoding") with
  | none => false
  | some te => (find (lower te) (lit "chunked") 0).isSome

/-- The loop of `fill`.
SRC: http.cpp:424-437 -/
def fillLoop (want : ℕ) : ℕ → Exchange → Bool × Exchange
  | fuel, x =>
    if want ≤ x.pending.length then (true, x)
    else
      match fuel with
      | 0 => (false, x)
      | fuel + 1 =>
        match x.transport.read (64 * 1024) with
        | (.ended (.failed err), t) => (false, { x with transport := t }.fail (readError err))
        | (.ended .closed, t) => (false, { x with transport := t })
        | (.data bytes, t) =>
          fillLoop want fuel { x with
            transport := t
            pending := x.pending ++ bytes }

/-- SRC: http.cpp:424-437 -/
def fill (x : Exchange) (want : ℕ) : Bool × Exchange := fillLoop want (x.left + 1) x

/-- The loop that looks for the end of a size line.
SRC: http.cpp:441-448 -/
def lineLoop : ℕ → Exchange → Option ℕ × Exchange
  | fuel, x =>
    match find x.pending crlf 0 with
    | some nl => (some nl, x)
    | none =>
      match fuel with
      | 0 => (none, x)
      | fuel + 1 =>
        match x.fill (x.pending.length + 1) with
        | (false, x) => (none, x.failUnless (lit "truncated chunked body"))
        | (true, x) => lineLoop fuel x

/-- The loop that passes `remaining` bytes on to the sink; `text` is its error.
SRC: http.cpp:454-463, 478-487 -/
def streamLoop (files : Files) (text : Bytes) : ℕ → ℕ → Exchange → Bool × Exchange
  | fuel, remaining, x =>
    if remaining = 0 then (true, x)
    else
      match fuel with
      | 0 => (false, x)
      | fuel + 1 =>
        match if x.pending = [] then x.fill 1 else (true, x) with
        | (false, x) => (false, x.failUnless text)
        | (true, x) =>
          let take := min remaining x.pending.length
          match x.append files (x.pending.take take) with
          | (false, x) => (false, x)
          | (true, x) =>
            streamLoop files text fuel (remaining - take)
              { x with pending := x.pending.drop take }

/-- The loop over the chunks.
SRC: http.cpp:440-470 -/
def chunkLoop (files : Files) : ℕ → Exchange → Bool × Exchange
  | 0, x => (false, x)
  | fuel + 1, x =>
    match lineLoop (x.left + 1) x with
    | (none, x) => (false, x)
    | (some nl, x) =>
      let size := strtoul 16 (x.pending.take nl)
      let x := { x with pending := x.pending.drop (nl + 2) }
      if size = 0 then x.finish files
      else
        match streamLoop files (lit "truncated chunk") (x.left + 1) size x with
        | (false, x) => (false, x)
        | (true, x) =>
          match x.fill 2 with
          | (false, x) => (false, x.failUnless (lit "truncated chunk"))
          | (true, x) => chunkLoop files fuel { x with pending := x.pending.drop 2 }

/-- The loop that reads to the end of the connection.
SRC: http.cpp:496-505 -/
def endLoop (files : Files) : ℕ → Exchange → Bool × Exchange
  | 0, x => (false, x)
  | fuel + 1, x =>
    match x.transport.read (64 * 1024) with
    | (.ended (.failed err), t) => (false, { x with transport := t }.fail (readError err))
    | (.ended .closed, t) => { x with transport := t }.finish files
    | (.data bytes, t) =>
      match { x with transport := t }.append files bytes with
      | (false, x) => (false, x)
      | (true, x) => endLoop files fuel x

/-- `read_body`.
SRC: http.cpp:416-506 -/
def readBody (files : Files) (x : Exchange) : Bool × Exchange :=
  if x.sink.failed then (false, x)
  else if isChunked x.resp.headers then chunkLoop files (x.left + 1) x
  else
    match findEntry x.resp.headers (lit "content-length") with
    | some length =>
      match streamLoop files (lit "truncated body") (x.left + 1) (strtoul 10 length) x with
      | (false, x) => (false, x)
      | (true, x) => x.finish files
    | none =>
      match if x.pending = [] then (true, x) else x.append files x.pending with
      | (false, x) => (false, x)
      | (true, x) =>
        let x := { x with pending := [] }
        endLoop files (x.left + 1) x

/-- The exchange before the first read. -/
def start (t : Transport) : Exchange := ⟨t, [], FullResponse.init, BodySink.init⟩

end Exchange

/-- `perform`, from the point where the request is written; `sendError` is what went wrong up
to there, if anything did.
SRC: http.cpp:515-590 -/
def perform (sinkPath : Bytes) (files : Files) (sendError : Option Bytes) (t : Transport) :
    Exchange :=
  match sendError with
  | some err => (Exchange.start t).fail err
  | none =>
    match (Exchange.start t).readHeaders with
    | (false, x) => x
    | (true, x) =>
      let streamOk := 200 ≤ x.resp.status ∧ x.resp.status < 300
      let x := x.openSink files (if streamOk then sinkPath else [])
      -- the result is not looked at: body errors are in `resp.error`
      (x.readBody files).2

end HaikuAgent.Model.Http
