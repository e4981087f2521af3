import HaikuAgent.Model.HttpTransfer
import HaikuAgent.Model.S3

/-!
# Sending an HTTP request (`http.cpp`)

The first half of `perform`: the connection, the file that a body is streamed from, and the writes.
What is on the wire is kept byte by byte, so that a write that fails leaves a part of the request
there.
-/

set_option autoImplicit false

namespace HaikuAgent.Model.HttpSend

open HaikuAgent.Foundation
open HaikuAgent.Model.S3 (Outgoing)

/-- What the connection and the file system do while a request is sent. -/
structure Sending where
  /-- the error of `connect` or of the TLS handshake -/
  connectError : Option Bytes
  /-- `st_size` of a regular file, or what is said of the path instead -/
  stat : Bytes → Except Bytes ℕ
  /-- what `fread` gives of the file up to its end and what `ferror` says then, or the error of `fopen` -/
  fopen : Bytes → Except Bytes (Bytes × Option Bytes)
  /-- how many bytes of a `write` of a given number get out, and its error, if it fails -/
  writeError : ℕ → Option (ℕ × Bytes)

/-- The bytes on the wire, the number of `write` calls, and the error, if there is one. -/
structure Sent where
  wire : Bytes
  writes : ℕ
  error : Option Bytes

def Sent.init : Sent := ⟨[], 0, none⟩

/-- `t->write`.
SRC: http.cpp:102-116, 191-193, 285-299 -/
def Sending.write (s : Sending) (sent : Sent) (bytes : Bytes) : Sent :=
  match s.writeError sent.writes with
  | some (n, err) => ⟨sent.wire ++ bytes.take n, sent.writes + 1, some err⟩
  | none => ⟨sent.wire ++ bytes, sent.writes + 1, none⟩

/-- SRC: http.cpp:567 -/
def kChunk : ℕ := 64 * 1024

/-- The loop that streams the file; every round takes a byte at least.
SRC: http.cpp:569-574 -/
def streamFile (s : Sending) : ℕ → Sent → Bytes → Sent
  | 0, sent, _ => sent
  | rounds + 1, sent, content =>
    if content = [] then sent
    else
      let sent := s.write sent (content.take kChunk)
      if sent.error.isSome then sent else streamFile s rounds sent (content.drop kChunk)

/-- The request with its body, or what goes wrong before it is all written.
SRC: http.cpp:515-582 -/
def sendRequest (s : Sending) (out : Outgoing) : Sent :=
  match s.connectError with
  | some err => { Sent.init with error := some err }
  | none =>
    if out.bodyPath = [] then s.write Sent.init (Signing.wireHead out.request out.request.body.length ++ out.request.body)
    else
      match s.stat out.bodyPath, s.fopen out.bodyPath with
      | .error err, _ => { Sent.init with error := some (lit "body file " ++ out.bodyPath ++ lit ": " ++ err) }
      | .ok _, .error err => { Sent.init with error := some (lit "open(" ++ out.bodyPath ++ lit "): " ++ err) }
      | .ok size, .ok (content, readError) =>
        let sent := s.write Sent.init (Signing.wireHead out.request size)
        let sent := if sent.error.isSome then sent else streamFile s content.length sent content
        match sent.error, readError with
        | none, some err => { sent with error := some (lit "read(" ++ out.bodyPath ++ lit "): " ++ err) }
        | _, _ => sent

/-- `perform`; the transport holds what the peer answers to what was sent.
SRC: http.cpp:515-590 -/
def perform (s : Sending) (files : Http.Files) (t : Http.Transport) (out : Outgoing) : Http.Exchange :=
  Http.perform out.sinkPath files (sendRequest s out).error t

end HaikuAgent.Model.HttpSend
