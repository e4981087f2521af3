import Mathlib.Data.List.DropRight
import HaikuAgent.Foundation.Bytes

/-!
# HTTP/1.1 requests on the wire

What a server reads of a request: a request line of three words, field lines up to an empty
one, and the rest, which is the body. A request whose parts have no bytes that delimit them is
read back from its text (`read_render`).
-/

set_option autoImplicit false

namespace HaikuAgent.Interface.HttpRequest

open HaikuAgent.Foundation

structure Request where
  method : Bytes
  target : Bytes
  fields : List (Bytes × Bytes)
  body : Bytes
  deriving DecidableEq

/-- The bytes that are called whitespace. -/
def whitespace : Bytes := [9, 10, 11, 12, 13, 32]

/-- A line end is CRLF, and no carriage return stands elsewhere. -/
def readLine (s : Bytes) : Option (Bytes × Bytes) :=
  match s.dropWhile (· ≠ 13) with
  | 13 :: 10 :: rest => some (s.takeWhile (· ≠ 13), rest)
  | _ => none

/-- `OWS`: blanks around a value do not count. -/
def trimBlanks (s : Bytes) : Bytes :=
  (s.dropWhile fun b => b == 32 || b == 9).rdropWhile fun b => b == 32 || b == 9

/-- `field-name ":" OWS field-value OWS` -/
def readField (line : Bytes) : Option (Bytes × Bytes) :=
  match line.dropWhile (· ≠ 58) with
  | _ :: value => some (line.takeWhile (· ≠ 58), trimBlanks value)
  | [] => none

/-- The fields up to the empty line, and what follows it, in at most `lines` lines. -/
def readFields : ℕ → Bytes → Option (List (Bytes × Bytes) × Bytes)
  | 0, _ => none
  | lines + 1, s =>
    match readLine s with
    | none => none
    | some ([], rest) => some ([], rest)
    | some (line, rest) =>
      match readField line, readFields lines rest with
      | some field, some (fields, body) => some (field :: fields, body)
      | _, _ => none

/-- A request line has two spaces. -/
def readRequestLine (line : Bytes) : Option (Bytes × Bytes) :=
  match line.splitOn 32 with
  | [method, target, version] =>
    if version = lit "HTTP/1.1" then some (method, target) else none
  | _ => none

def read (s : Bytes) : Option Request :=
  match readLine s with
  | none => none
  | some (line, rest) =>
    match readRequestLine line, readFields rest.length rest with
    | some (method, target), some (fields, body) => some ⟨method, target, fields, body⟩
    | _, _ => none

/-- Names of fields are compared in lower case. -/
def lowerName (name : Bytes) : Bytes := name.map fun b => if 65 ≤ b && b ≤ 90 then b + 32 else b

/-- The values of the fields of a name. -/
def valuesOf (fields : List (Bytes × Bytes)) (name : Bytes) : List Bytes :=
  (fields.filter fun field => lowerName field.1 == name).map Prod.snd

/-- Decimal digits, one at least. -/
def readNumber (s : Bytes) : Option ℕ :=
  if s ≠ [] ∧ s.all (fun b => 48 ≤ b && b ≤ 57) then some (s.foldl (fun n b => 10 * n + (b.toNat - 48)) 0) else none

/-- The content of a request is as long as its `Content-Length` says, and empty without one. -/
def content (r : Request) : Option Bytes :=
  match valuesOf r.fields (lit "content-length") with
  | [] => some []
  | [value] =>
    match readNumber value with
    | some n => if n ≤ r.body.length then some (r.body.take n) else none
    | none => none
  | _ => none

/-! ## Writing -/

def crlf : Bytes := [13, 10]

def renderField (field : Bytes × Bytes) : Bytes := field.1 ++ lit ": " ++ field.2 ++ crlf

def render (r : Request) : Bytes :=
  r.method ++ lit " " ++ r.target ++ lit " HTTP/1.1" ++ crlf ++ (r.fields.flatMap renderField ++ (crlf ++ r.body))

/-- No byte of whitespace. -/
def Solid (s : Bytes) : Prop := ∀ b ∈ s, b ∉ whitespace

instance decidableSolid (s : Bytes) : Decidable (Solid s) := List.decidableBAll (fun b => b ∉ whitespace) s

/-- A name without a colon; a value of whole words. -/
structure PlainField (field : Bytes × Bytes) : Prop where
  name : Solid field.1
  ne_nil : field.1 ≠ []
  colon : (58 : UInt8) ∉ field.1
  line : (13 : UInt8) ∉ field.2
  trimmed : trimBlanks field.2 = field.2

structure Plain (r : Request) : Prop where
  method : Solid r.method
  target : Solid r.target
  fields : ∀ field ∈ r.fields, PlainField field

/-- A text without whitespace has none of its bytes. -/
theorem Solid.notMem {s : Bytes} (h : Solid s) (b : UInt8) (hb : b ∈ whitespace) : b ∉ s := fun hs => h b hs hb

/-- Two texts without whitespace have none together. -/
theorem Solid.append {s t : Bytes} (hs : Solid s) (ht : Solid t) : Solid (s ++ t) := by
  intro b hb
  exact (List.mem_append.mp hb).elim (hs b) (ht b)

/-- A byte that is no whitespace is no blank. -/
theorem not_blank {b : UInt8} (h : b ∉ whitespace) : (b == 32 || b == 9) = false := by
  have hspace : b ≠ 32 := fun heq => h (heq ▸ by decide)
  have htab : b ≠ 9 := fun heq => h (heq ▸ by decide)
  simp [hspace, htab]

/-- There is nothing to trim off a text without whitespace. -/
theorem Solid.trimmed {s : Bytes} (h : Solid s) : trimBlanks s = s := by
  unfold trimBlanks
  rw [List.dropWhile_eq_self_iff.mpr, List.rdropWhile_eq_self_iff.mpr]
  · intro hne
    simp [not_blank (h _ (List.getLast_mem hne))]
  · intro hlength
    simp [not_blank (h _ (List.getElem_mem hlength))]

/-- A value that ends in a word. -/
theorem trimBlanks_append (s word : Bytes) (hne : word ≠ []) (hword : Solid word)
    (hhead : ∀ b, s.head? = some b → b ∉ whitespace) : trimBlanks (s ++ word) = s ++ word := by
  have hdrop : (s ++ word).dropWhile (fun b => b == 32 || b == 9) = s ++ word := by
    cases s with
    | nil =>
      cases word with
      | nil => exact absurd rfl hne
      | cons b bs =>
        rw [List.nil_append, List.dropWhile_cons_of_neg]
        simp [not_blank (hword b List.mem_cons_self)]
    | cons b bs =>
      rw [List.cons_append, List.dropWhile_cons_of_neg]
      simp [not_blank (hhead b rfl)]
  unfold trimBlanks
  rw [hdrop, List.rdropWhile_eq_self_iff]
  intro happend
  rw [List.getLast_append_of_ne_nil _ hne]
  simp [not_blank (hword _ (List.getLast_mem hne))]

/-- Where no name comes twice, a field that is there is the one value of its name. -/
theorem valuesOf_of_mem (fields : List (Bytes × Bytes)) (hnodup : (fields.map fun f => lowerName f.1).Nodup)
    (field : Bytes × Bytes) (h : field ∈ fields) : valuesOf fields (lowerName field.1) = [field.2] := by
  induction fields with
  | nil => exact absurd h List.not_mem_nil
  | cons f fields ih =>
    rw [List.map_cons, List.nodup_cons] at hnodup
    unfold valuesOf
    cases h with
    | head =>
      have hrest : fields.filter (fun f => lowerName f.1 == lowerName field.1) = [] := by
        apply List.filter_eq_nil_iff.mpr
        intro f hf heq
        exact hnodup.1 (List.mem_map.mpr ⟨f, hf, eq_of_beq heq⟩)
      rw [List.filter_cons, if_pos (beq_self_eq_true _), hrest]
      rfl
    | tail _ h =>
      have hne : ¬(lowerName f.1 == lowerName field.1) = true := by
        intro heq
        exact hnodup.1 (List.mem_map.mpr ⟨field, h, (eq_of_beq heq).symm⟩)
      rw [List.filter_cons, if_neg hne]
      exact ih hnodup.2 h

/-- A name that is not there has no values. -/
theorem valuesOf_of_notMem (fields : List (Bytes × Bytes)) (name : Bytes)
    (h : name ∉ fields.map fun f => lowerName f.1) : valuesOf fields name = [] := by
  unfold valuesOf
  rw [List.filter_eq_nil_iff.mpr, List.map_nil]
  intro f hf heq
  exact h (List.mem_map.mpr ⟨f, hf, eq_of_beq heq⟩)

/-- A line is read up to its end. -/
theorem readLine_append (line rest : Bytes) (h : (13 : UInt8) ∉ line) :
    readLine (line ++ (crlf ++ rest)) = some (line, rest) := by
  have hall : ∀ b ∈ line, decide (b ≠ 13) = true := fun b hb => decide_eq_true fun heq => h (heq ▸ hb)
  unfold readLine
  rw [List.dropWhile_append_of_pos hall, List.takeWhile_append_of_pos hall]
  show (some (line ++ [], rest)) = _
  rw [List.append_nil]

/-- A plain field is read from its line as it was written. -/
theorem readField_line (field : Bytes × Bytes) (h : PlainField field) :
    readField (field.1 ++ lit ": " ++ field.2) = some field := by
  have hall : ∀ b ∈ field.1, decide (b ≠ 58) = true := fun b hb => decide_eq_true fun heq => h.colon (heq ▸ hb)
  unfold readField
  rw [List.append_assoc, List.dropWhile_append_of_pos hall, List.takeWhile_append_of_pos hall]
  show (some (field.1 ++ [], trimBlanks field.2)) = _
  rw [List.append_nil, h.trimmed]

/-- Plain fields are read as they were written, up to the empty line. -/
theorem readFields_render (body : Bytes) (fields : List (Bytes × Bytes)) (h : ∀ field ∈ fields, PlainField field)
    (lines : ℕ) (hlines : fields.length < lines) :
    readFields lines (fields.flatMap renderField ++ (crlf ++ body)) = some (fields, body) := by
  induction fields generalizing lines with
  | nil =>
    obtain ⟨lines, rfl⟩ := Nat.exists_eq_add_one_of_ne_zero (Nat.ne_zero_of_lt hlines)
    have hline : readLine (crlf ++ body) = some ([], body) := readLine_append [] body List.not_mem_nil
    unfold readFields
    rw [List.flatMap_nil, List.nil_append, hline]
  | cons field fields ih =>
    obtain ⟨lines, rfl⟩ := Nat.exists_eq_add_one_of_ne_zero (Nat.ne_zero_of_lt hlines)
    obtain ⟨hfield, hfields⟩ := List.forall_mem_cons.mp h
    have hcr : (13 : UInt8) ∉ field.1 ++ lit ": " ++ field.2 := by
      have hname := hfield.name.notMem 13 (by decide)
      have hsep : (13 : UInt8) ∉ lit ": " := by decide
      simp only [List.mem_append, not_or]
      exact ⟨⟨hname, hsep⟩, hfield.line⟩
    have hline : readLine ((field :: fields).flatMap renderField ++ (crlf ++ body)) =
        some (field.1 ++ lit ": " ++ field.2, fields.flatMap renderField ++ (crlf ++ body)) := by
      rw [List.flatMap_cons, renderField, List.append_assoc, List.append_assoc (field.1 ++ lit ": " ++ field.2)]
      exact readLine_append _ _ hcr
    have hne : field.1 ++ lit ": " ++ field.2 ≠ [] := by
      rw [List.append_assoc]
      exact List.append_ne_nil_of_left_ne_nil hfield.ne_nil _
    unfold readFields
    rw [hline]
    cases hcons : field.1 ++ lit ": " ++ field.2 with
    | nil => exact absurd hcons hne
    | cons b bs =>
      dsimp only
      rw [← hcons, readField_line field hfield, ih hfields lines (by simpa using hlines)]

/-- The request line gives the method and the target. -/
theorem readRequestLine_line (r : Request) (h : Plain r) :
    readRequestLine (r.method ++ lit " " ++ r.target ++ lit " HTTP/1.1") = some (r.method, r.target) := by
  have hsplit : (r.method ++ lit " " ++ r.target ++ lit " HTTP/1.1").splitOn 32 =
      [r.method, r.target, lit "HTTP/1.1"] := by
    have hwords : ∀ word ∈ [r.method, r.target, lit "HTTP/1.1"], (32 : UInt8) ∉ word := by
      have hversion : (32 : UInt8) ∉ lit "HTTP/1.1" := by decide
      intro word hword
      simp only [List.mem_cons, List.not_mem_nil, or_false] at hword
      rcases hword with rfl | rfl | rfl
      · exact h.method.notMem 32 (by decide)
      · exact h.target.notMem 32 (by decide)
      · exact hversion
    rw [← List.splitOn_intercalate 32 hwords (List.cons_ne_nil _ _)]
    simp [List.intercalate, lit]
  unfold readRequestLine
  rw [hsplit]
  exact if_pos rfl

/-- Every field takes up a byte of the text at least. -/
theorem length_le_render (fields : List (Bytes × Bytes)) :
    fields.length ≤ (fields.flatMap renderField).length := by
  induction fields with
  | nil => exact Nat.le_refl 0
  | cons field fields ih =>
    have hfield : 1 ≤ (renderField field).length := by
      unfold renderField
      rw [List.length_append]
      exact Nat.le_add_left 1 _ |>.trans (Nat.add_le_add_left (show 1 ≤ crlf.length by decide) _)
    rw [List.flatMap_cons, List.length_append, List.length_cons]
    omega

/-- A plain request is read back from its text. -/
theorem read_render (r : Request) (h : Plain r) : read (render r) = some r := by
  have hcr : (13 : UInt8) ∉ r.method ++ lit " " ++ r.target ++ lit " HTTP/1.1" := by
    have hmethod := h.method.notMem 13 (by decide)
    have htarget := h.target.notMem 13 (by decide)
    have hspace : (13 : UInt8) ∉ lit " " := by decide
    have hversion : (13 : UInt8) ∉ lit " HTTP/1.1" := by decide
    simp only [List.mem_append, not_or]
    exact ⟨⟨⟨hmethod, hspace⟩, htarget⟩, hversion⟩
  have hline : readLine (render r) = some (r.method ++ lit " " ++ r.target ++ lit " HTTP/1.1",
      r.fields.flatMap renderField ++ (crlf ++ r.body)) := by
    unfold render
    rw [List.append_assoc]
    exact readLine_append _ _ hcr
  have hlines : r.fields.length < (r.fields.flatMap renderField ++ (crlf ++ r.body)).length := by
    have hle := length_le_render r.fields
    rw [List.length_append, List.length_append]
    show _ < _ + (2 + _)
    omega
  unfold read
  rw [hline]
  dsimp only
  rw [readRequestLine_line r h, readFields_render r.body r.fields h.fields _ hlines]

end HaikuAgent.Interface.HttpRequest
