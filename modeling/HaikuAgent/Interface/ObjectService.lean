import Mathlib.Logic.Function.Basic
import HaikuAgent.Foundation.PercentEncoding
import HaikuAgent.Interface.HttpMessage
import HaikuAgent.Interface.HttpRequest

/-!
# A service that keeps objects

An object has an address: a host, and the name that the path of a request stands for. The service
acts on the bytes that have come in, where they are a whole request; it may refuse one for any
reason, and it may fail after it has stored an object.

What has come in is read the same when more comes after it (`read_more`).
-/

set_option autoImplicit false

namespace HaikuAgent.Interface.ObjectService

open HaikuAgent.Foundation
open HaikuAgent.Interface.HttpRequest
open HaikuAgent.Interface.HttpMessage (Message)

/-! ## Requests that go on -/

/-- A line that has been read does not change with what comes in later. -/
theorem readLine_more {s line rest : Bytes} (h : readLine s = some (line, rest)) (more : Bytes) :
    readLine (s ++ more) = some (line, rest ++ more) := by
  have hrest : s.dropWhile (· ≠ 13) = 13 :: 10 :: rest ∧ s.takeWhile (· ≠ 13) = line := by
    unfold readLine at h
    split at h
    · rename_i tail heq
      cases h
      exact ⟨heq, rfl⟩
    · cases h
  have hdrop : (s ++ more).dropWhile (· ≠ 13) = 13 :: 10 :: (rest ++ more) := by
    rw [List.dropWhile_append, hrest.1]
    rfl
  have htake : (s ++ more).takeWhile (· ≠ 13) = line := by
    rw [List.takeWhile_append, if_neg, hrest.2]
    intro hlength
    have hwhole := congrArg List.length (List.takeWhile_append_dropWhile (p := fun b => decide (b ≠ 13)) (l := s))
    rw [List.length_append, hlength, hrest.1, List.length_cons] at hwhole
    omega
  unfold readLine
  rw [hdrop, htake]
  rfl

/-- Nor do the fields. -/
theorem readFields_more {lines lines' : ℕ} (hlines : lines ≤ lines') {s body : Bytes} {fields : List (Bytes × Bytes)}
    (h : readFields lines s = some (fields, body)) (more : Bytes) :
    readFields lines' (s ++ more) = some (fields, body ++ more) := by
  induction lines generalizing lines' s fields with
  | zero => cases h
  | succ lines ih =>
    obtain ⟨lines', rfl⟩ := Nat.exists_eq_add_one_of_ne_zero (Nat.ne_zero_of_lt hlines)
    unfold readFields at h ⊢
    cases hline : readLine s with
    | none =>
      rw [hline] at h
      cases h
    | some read =>
      obtain ⟨line, rest⟩ := read
      rw [hline] at h
      rw [readLine_more hline more]
      cases line with
      | nil =>
        cases h
        rfl
      | cons c line =>
        dsimp only at h ⊢
        cases hfield : readField (c :: line) with
        | none =>
          rw [hfield] at h
          cases h
        | some field =>
          cases hrest : readFields lines rest with
          | none =>
            rw [hfield, hrest] at h
            cases h
          | some read =>
            obtain ⟨tail, body'⟩ := read
            rw [hfield, hrest] at h
            cases h
            rw [ih (Nat.le_of_succ_le_succ hlines) hrest]

/-- A whole request is read so whatever follows it; what follows goes to the body. -/
theorem read_more {s : Bytes} {r : Request} (h : read s = some r) (more : Bytes) :
    read (s ++ more) = some { r with body := r.body ++ more } := by
  unfold HttpRequest.read at h ⊢
  cases hline : readLine s with
  | none =>
    rw [hline] at h
    cases h
  | some first =>
    obtain ⟨line, rest⟩ := first
    rw [hline] at h
    rw [readLine_more hline more]
    dsimp only at h ⊢
    cases hrequest : readRequestLine line with
    | none =>
      rw [hrequest] at h
      cases h
    | some words =>
      cases hfields : readFields rest.length rest with
      | none =>
        rw [hrequest, hfields] at h
        cases h
      | some read =>
        obtain ⟨fields, body⟩ := read
        rw [hrequest, hfields] at h
        cases h
        have hlength : rest.length ≤ (rest ++ more).length := by
          rw [List.length_append]
          exact Nat.le_add_right _ _
        rw [readFields_more hlength hfields more]

/-! ## Objects -/

/-- A host and a name. -/
abbrev Address := Bytes × Bytes

abbrev Objects := Address → Option Bytes

/-- The address that a request names. -/
def addressOf (r : Request) : Option Address :=
  match valuesOf r.fields (lit "host") with
  | [host] => some (host, PercentEncoding.decode r.target)
  | _ => none

/-- The response says that it was done. -/
def Succeeds (m : Message) : Prop := 200 ≤ m.status ∧ m.status < 300

/-- The body of the response has an end of its own. -/
def Delimited (m : Message) : Prop := ∀ body, m.payload ≠ .toEnd body

/-- What the service may make of what has come in, and may answer to it. -/
inductive Serves (objects : Objects) (wire : Bytes) (m : Message) : Objects → Prop
  | store (r : Request) (address : Address) (body : Bytes) (hread : HttpRequest.read wire = some r)
      (hmethod : r.method = lit "PUT") (haddress : addressOf r = some address) (hcontent : content r = some body) :
      Serves objects wire m (Function.update objects address (some body))
  | fetch (r : Request) (address : Address) (hread : HttpRequest.read wire = some r) (hmethod : r.method = lit "GET")
      (haddress : addressOf r = some address) (hfound : objects address = some m.payload.body) :
      Serves objects wire m objects
  | refuse (hrefused : ¬Succeeds m) : Serves objects wire m objects

/-- Nor does the content: it ends where its length says. -/
theorem content_more {r : Request} {body : Bytes} (h : content r = some body) (more : Bytes) :
    content { r with body := r.body ++ more } = some body := by
  unfold content at h ⊢
  dsimp only at h ⊢
  split at h
  · exact h
  · split at h
    · split_ifs at h with hlength
      have hlonger : _ ≤ (r.body ++ more).length := hlength.trans (by rw [List.length_append]; exact Nat.le_add_right _ _)
      rw [if_pos hlonger, List.take_append_of_le_length hlength]
      exact h
    · cases h
  · cases h

/-- What the service makes of a part of a request it may make of the whole. -/
theorem Serves.more {objects objects' : Objects} {wire : Bytes} {m : Message} (h : Serves objects wire m objects')
    (more : Bytes) : Serves objects (wire ++ more) m objects' := by
  cases h with
  | store r address body hread hmethod haddress hcontent =>
    exact .store _ address body (read_more hread more) hmethod haddress (content_more hcontent more)
  | fetch r address hread hmethod haddress hfound =>
    exact .fetch _ address (read_more hread more) hmethod haddress hfound
  | refuse hrefused => exact .refuse hrefused

/-- What it makes of a request that it reads as `r`. -/
inductive Served (objects : Objects) (r : Request) (m : Message) : Objects → Prop
  | stored (address : Address) (body : Bytes) (hmethod : r.method = lit "PUT") (haddress : addressOf r = some address)
      (hcontent : content r = some body) : Served objects r m (Function.update objects address (some body))
  | fetched (address : Address) (hmethod : r.method = lit "GET") (haddress : addressOf r = some address)
      (hfound : objects address = some m.payload.body) : Served objects r m objects
  | refused (hrefused : ¬Succeeds m) : Served objects r m objects

/-- A service that acts on a part of a request does what the whole request says, or refuses it. -/
theorem Serves.served {objects objects' : Objects} {text wire : Bytes} {r : Request} {m : Message}
    (h : Serves objects wire m objects') (hwire : wire <+: text) (hread : HttpRequest.read text = some r) :
    Served objects r m objects' := by
  obtain ⟨more, rfl⟩ := hwire
  cases h.more more with
  | store r' address body hread' hmethod haddress hcontent =>
    cases hread.symm.trans hread'
    exact .stored address body hmethod haddress hcontent
  | fetch r' address hread' hmethod haddress hfound =>
    cases hread.symm.trans hread'
    exact .fetched address hmethod haddress hfound
  | refuse hrefused => exact .refused hrefused

end HaikuAgent.Interface.ObjectService
