import HaikuAgent.Analysis.JsonGrammar
import HaikuAgent.Model.Aws

/-!
# Serialising and parsing

What `dump` writes for a value is a text of the grammar that denotes the value again
(`treeOf_spec`), so that `parse` gives the value back. The value's numbers are integers
that `dump` writes without an exponent, and its objects have their keys in order, as a
`std::map` has.
-/

set_option autoImplicit false

namespace HaikuAgent.Analysis.JsonRoundTrip

open HaikuAgent.Foundation
open HaikuAgent.Model
open HaikuAgent.Model.Json
open HaikuAgent.Interface.JsonText
open HaikuAgent.Analysis.JsonGrammar

/-! ## Strings -/

/-- The short escape that `escape` has for a byte. -/
def shortEscape (c : UInt8) : Option Escape :=
  if c = 34 then some .quote
  else if c = 92 then some .backslash
  else if c = 8 then some .backspace
  else if c = 12 then some .formFeed
  else if c = 10 then some .lineFeed
  else if c = 13 then some .carriageReturn
  else if c = 9 then some .tab
  else none

/-- A byte's character needs no surrogates. -/
theorem byteChar_lt (c : UInt8) : (Char.ofNat c.toNat).toNat < 0x10000 := by
  have hlt : c.toNat < 256 := c.toNat_lt
  have hvalid : c.toNat.isValidChar := Or.inl (by omega)
  unfold Char.ofNat
  rw [dif_pos hvalid]
  show (UInt32.ofNatLT c.toNat _).toNat < 0x10000
  rw [UInt32.toNat_ofNatLT]
  omega

/-- The item that `escape` writes for a byte. -/
def itemOf (c : UInt8) : StringItem :=
  match shortEscape c with
  | some e => .escape e
  | none => if h : Unescaped c then .byte c h else .unicode (Char.ofNat c.toNat) (byteChar_lt c) fun _ => false

/-- The item written for a byte has the printer's text and denotes that byte. -/
theorem itemOf_spec (c : UInt8) : (itemOf c).text = escapeChar c ∧ (itemOf c).denote = [c] := by
  have hall : ∀ n : Fin 256, (itemOf (UInt8.ofNat n)).text = escapeChar (UInt8.ofNat n) ∧
      (itemOf (UInt8.ofNat n)).denote = [UInt8.ofNat n] := by decide +kernel
  have hc := hall ⟨c.toNat, c.toNat_lt⟩
  rwa [UInt8.ofNat_toNat] at hc

/-- The text that `escape` writes for a string. -/
def stringOf (s : Bytes) : StringText := s.map itemOf

/-- The string written for some bytes has the printer's text and denotes those bytes. -/
theorem stringOf_spec (s : Bytes) :
    StringText.text (stringOf s) = escape s ∧ StringText.denote (stringOf s) = s := by
  have htext : StringText.body (stringOf s) = s.flatMap escapeChar := by
    unfold StringText.body stringOf
    rw [List.flatMap_map]
    exact List.flatMap_congr fun c _ => (itemOf_spec c).1
  refine ⟨?_, ?_⟩
  · unfold StringText.text escape
    rw [htext]
    rfl
  · unfold StringText.denote stringOf
    rw [List.flatMap_map]
    have hsame : (s.flatMap fun c => (itemOf c).denote) = s.flatMap fun c => [c] :=
      List.flatMap_congr fun c _ => (itemOf_spec c).2
    rw [hsame, List.flatMap_singleton']

/-! ## Numbers -/

/-- The decimal notation of an integer. -/
def decimalText (k : ℤ) : Bytes := (if k < 0 then [45] else []) ++ toStringNat k.natAbs

def decimalDigits (n : ℕ) : List (Fin 10) :=
  (Nat.toDigits 10 n).map fun c => Fin.ofNat 10 (c.toNat - 48)

/-- The decimal digits of a number are digit characters. -/
theorem digit_range {n : ℕ} {c : Char} (hc : c ∈ Nat.toDigits 10 n) : 48 ≤ c.toNat ∧ c.toNat ≤ 57 := by
  have hdigit := Nat.isDigit_of_mem_toDigits (by omega) (by omega) hc
  simp only [Char.isDigit, Bool.and_eq_true, decide_eq_true_eq] at hdigit
  exact hdigit

/-- The digits of a natural number, written in the grammar's way, are its decimal text. -/
theorem digitsText_decimalDigits (n : ℕ) : digitsText (decimalDigits n) = toStringNat n := by
  unfold digitsText decimalDigits toStringNat lit
  rw [List.map_map, Nat.toString_eq_repr, Nat.toList_repr]
  refine List.map_congr_left ?_
  intro c hc
  obtain ⟨hlo, hhi⟩ := digit_range hc
  show UInt8.ofNat (48 + (c.toNat - 48) % 10) = UInt8.ofNat c.toNat
  congr 1
  omega

/-- The notation of a positive number begins with no zero. -/
theorem decimalDigits_head (n : ℕ) (hn : 0 < n) : ∃ d ds, decimalDigits n = d :: ds ∧ d ≠ 0 := by
  induction n using Nat.strong_induction_on with
  | _ n ih =>
    unfold decimalDigits at ih ⊢
    by_cases hlt : n < 10
    · rw [Nat.toDigits_of_lt_base hlt]
      refine ⟨_, [], rfl, ?_⟩
      intro hzero
      have hval := congrArg Fin.val hzero
      simp only [Nat.toNat_digitChar_sub_48_of_lt_ten hlt, Fin.ofNat] at hval
      simp at hval
      omega
    · rw [Nat.toDigits_of_base_le (by omega) (by omega), List.map_append]
      obtain ⟨d, ds, hds, hd⟩ := ih (n / 10) (by omega) (by omega)
      rw [hds]
      exact ⟨d, _, rfl, hd⟩

def intPartOf (n : ℕ) : IntPart :=
  match decimalDigits n with
  | [] => .zero
  | d :: ds => if h : d ≠ 0 then .positive d ds h else .zero

/-- The integer part made of a natural number is its decimal text. -/
theorem intPartOf_digits (n : ℕ) : digitsText (intPartOf n).digits = toStringNat n := by
  rcases Nat.eq_zero_or_pos n with rfl | hn
  · decide
  · obtain ⟨d, ds, hds, hd⟩ := decimalDigits_head n hn
    rw [← digitsText_decimalDigits, hds]
    unfold intPartOf
    simp only [hds, dif_pos hd]
    rfl

def numberOf (k : ℤ) : NumberText := ⟨k < 0, intPartOf k.natAbs, none, none⟩

/-- The number of the grammar made of an integer is its decimal text. -/
theorem numberOf_text (k : ℤ) : (numberOf k).text = decimalText k := by
  unfold NumberText.text numberOf decimalText
  simp [NumberText.fracText, NumberText.expText, intPartOf_digits]

/-- An integer below the printer's bound is printed in decimal. -/
theorem dumpNumber_int (k : ℤ) (hk : |k| < 10 ^ 15) :
    dumpNumber (.finite k) true = decimalText k := by
  have habs : |(k : ℚ)| < 10 ^ 15 := by exact_mod_cast hk
  have hminus : lit "-" = [45] := by decide
  unfold dumpNumber decimalText
  simp only
  rw [if_pos ⟨trivial, habs, by simp⟩, hminus]
  simp

/-! ## Values -/

mutual

/-- The values that the round trip is about: null, booleans, integers below 10^15, strings,
arrays, and objects with their keys in order. -/
def Lossless : Value → Prop
  | .null => True
  | .bool _ => True
  | .number n integral => integral = true ∧ ∃ k : ℤ, n = .finite k ∧ |k| < 10 ^ 15
  | .string _ => True
  | .obj entries => (entries.map Prod.fst).Pairwise (· < ·) ∧ LosslessEntries entries
  | .arr elems => LosslessElems elems

def LosslessEntries : List (Bytes × Value) → Prop
  | [] => True
  | (_, v) :: rest => Lossless v ∧ LosslessEntries rest

def LosslessElems : List Value → Prop
  | [] => True
  | v :: rest => Lossless v ∧ LosslessElems rest

end

/-- What the round trip needs of `strtod`: it reads the decimal notation of an integer. -/
def ReadsIntegers (strtod : Bytes → Double × ℕ) : Prop :=
  ∀ k : ℤ, |k| < 10 ^ 15 → (strtod (decimalText k)).1 = .finite k

mutual

/-- The derivation of the text that `dump` writes. -/
def treeOf : Value → Json
  | .null => .null
  | .bool b => .bool b
  | .number (.finite q) _ => .number (numberOf q.num)
  | .number _ _ => .number (numberOf 0)
  | .string s => .string (stringOf s)
  | .obj entries =>
    match membersOf entries with
    | none => .emptyObject []
    | some ms => .object ms
  | .arr elems =>
    match elementsOf elems with
    | none => .emptyArray []
    | some es => .array es

def membersOf : List (Bytes × Value) → Option Members
  | [] => none
  | (key, v) :: rest =>
    match membersOf rest with
    | none => some (.last [] (stringOf key) [] [] (treeOf v) [])
    | some ms => some (.more [] (stringOf key) [] [] (treeOf v) [] ms)

def elementsOf : List Value → Option Elements
  | [] => none
  | v :: rest =>
    match elementsOf rest with
    | none => some (.last [] (treeOf v) [])
    | some es => some (.more [] (treeOf v) [] es)

end

/-- A key above all those of a table is entered at its end. -/
theorem setEntry_last (table : List (Bytes × Value)) (key : Bytes) (v : Value)
    (h : ∀ k ∈ table.map Prod.fst, k < key) : setEntry table key v = table ++ [(key, v)] := by
  induction table with
  | nil => rfl
  | cons entry table ih =>
    obtain ⟨k, w⟩ := entry
    have hlt : k < key := h k List.mem_cons_self
    have hne : key ≠ k := by
      rintro rfl
      exact List.lt_irrefl _ hlt
    unfold setEntry
    rw [if_neg hne, if_neg (List.lt_asymm hlt), ih fun k' hk' => h k' (List.mem_cons_of_mem _ hk')]
    rfl

/-- An object whose keys come in order is the list of its members. -/
theorem objOf_sorted (entries : List (Bytes × Value)) (h : (entries.map Prod.fst).Pairwise (· < ·)) :
    objOf entries = .obj entries := by
  unfold objOf
  congr 1
  induction entries using List.reverseRecOn with
  | nil => rfl
  | append_singleton entries last ih =>
    rw [List.map_append, List.pairwise_append] at h
    rw [List.foldl_append, ih h.1, List.foldl_cons, List.foldl_nil, setEntry_last]
    intro k hk
    exact h.2.2 k hk last.1 (List.mem_singleton_self _)

variable (strtod : Bytes → Double × ℕ)

/-- The members of a non-empty object, or the empty object. -/
def MembersOf (entries : List (Bytes × Value)) : Prop :=
  match membersOf entries with
  | none => entries = []
  | some ms => ms.text = dumpEntries entries ∧ ms.denote strtod = entries

def ElementsOf (elems : List Value) : Prop :=
  match elementsOf elems with
  | none => elems = []
  | some es => es.text = dumpElems elems ∧ es.denote strtod = elems

mutual

/-- What `dump` writes for a value derives from a tree that denotes the value. -/
theorem treeOf_spec (hstrtod : ReadsIntegers strtod) (v : Value) (h : Lossless v) :
    (treeOf v).text = dump v ∧ (treeOf v).denote strtod = v := by
  cases v with
  | null =>
    unfold treeOf dump Json.text Json.denote
    exact ⟨lit_words.2.2.symm, rfl⟩
  | bool b =>
    cases b with
    | true =>
      unfold treeOf dump Json.text Json.denote
      exact ⟨lit_words.1.symm, rfl⟩
    | false =>
      unfold treeOf dump Json.text Json.denote
      exact ⟨lit_words.2.1.symm, rfl⟩
  | number n integral =>
    unfold Lossless at h
    obtain ⟨rfl, k, rfl, hk⟩ := h
    unfold treeOf dump Json.text Json.denote
    rw [Rat.num_intCast, numberOf_text, dumpNumber_int k hk, hstrtod k hk]
    exact ⟨rfl, rfl⟩
  | string s =>
    unfold treeOf dump Json.text Json.denote
    rw [(stringOf_spec s).1, (stringOf_spec s).2]
    exact ⟨rfl, rfl⟩
  | obj entries =>
    unfold Lossless at h
    have hmembers := membersOf_spec hstrtod entries h.2
    unfold MembersOf at hmembers
    unfold treeOf dump
    cases hms : membersOf entries with
    | none =>
      rw [hms] at hmembers
      simp only at hmembers
      subst hmembers
      exact ⟨rfl, rfl⟩
    | some ms =>
      rw [hms] at hmembers
      obtain ⟨htext, hdenote⟩ := hmembers
      simp only [Json.text, Json.denote]
      rw [htext, hdenote, objOf_sorted entries h.1]
      exact ⟨rfl, rfl⟩
  | arr elems =>
    unfold Lossless at h
    have helems := elementsOf_spec hstrtod elems h
    unfold ElementsOf at helems
    unfold treeOf dump
    cases hes : elementsOf elems with
    | none =>
      rw [hes] at helems
      simp only at helems
      subst helems
      exact ⟨rfl, rfl⟩
    | some es =>
      rw [hes] at helems
      obtain ⟨htext, hdenote⟩ := helems
      simp only [Json.text, Json.denote]
      rw [htext, hdenote]
      exact ⟨rfl, rfl⟩

/-- The members printed for a table are members of the grammar and denote the table. -/
theorem membersOf_spec (hstrtod : ReadsIntegers strtod) (entries : List (Bytes × Value))
    (h : LosslessEntries entries) : MembersOf strtod entries := by
  cases entries with
  | nil =>
    unfold MembersOf membersOf
    rfl
  | cons entry rest =>
    obtain ⟨key, v⟩ := entry
    unfold LosslessEntries at h
    obtain ⟨htext, hdenote⟩ := treeOf_spec hstrtod v h.1
    have hrest := membersOf_spec hstrtod rest h.2
    unfold MembersOf at hrest ⊢
    unfold membersOf dumpEntries
    cases hms : membersOf rest with
    | none =>
      rw [hms] at hrest
      simp only at hrest
      subst hrest
      simp [Members.text, Members.denote, wsText, stringOf_spec, htext, hdenote, dumpEntries]
    | some ms =>
      rw [hms] at hrest
      obtain ⟨hmore, hdenoted⟩ := hrest
      have hne : rest.isEmpty = false := by
        cases rest with
        | nil => cases hms
        | cons entry rest => rfl
      simp [Members.text, Members.denote, wsText, stringOf_spec, htext, hdenote, hmore, hdenoted, hne]

/-- The elements printed for a list are elements of the grammar and denote the list. -/
theorem elementsOf_spec (hstrtod : ReadsIntegers strtod) (elems : List Value)
    (h : LosslessElems elems) : ElementsOf strtod elems := by
  cases elems with
  | nil =>
    unfold ElementsOf elementsOf
    rfl
  | cons v rest =>
    unfold LosslessElems at h
    obtain ⟨htext, hdenote⟩ := treeOf_spec hstrtod v h.1
    have hrest := elementsOf_spec hstrtod rest h.2
    unfold ElementsOf at hrest ⊢
    unfold elementsOf dumpElems
    cases hes : elementsOf rest with
    | none =>
      rw [hes] at hrest
      simp only at hrest
      subst hrest
      simp [Elements.text, Elements.denote, wsText, htext, hdenote, dumpElems]
    | some es =>
      rw [hes] at hrest
      obtain ⟨hmore, hdenoted⟩ := hrest
      have hne : rest.isEmpty = false := by
        cases rest with
        | nil => cases hes
        | cons v rest => rfl
      simp [Elements.text, Elements.denote, wsText, htext, hdenote, hmore, hdenoted, hne]

end

/-- What `dump` writes is JSON for the value. -/
theorem means_dump (hstrtod : ReadsIntegers strtod) (v : Value) (h : Lossless v) : Means strtod (dump v) v := by
  obtain ⟨htext, hdenote⟩ := treeOf_spec strtod hstrtod v h
  refine ⟨⟨[], treeOf v, []⟩, ?_, hdenote⟩
  simp [Document.text, wsText, htext]

/-- `parse` gives back what `dump` wrote. -/
theorem parse_dump (hstrtod : ReadsIntegers strtod) (v : Value) (h : Lossless v) : parse strtod (dump v) = (v, []) :=
  parse_of_means strtod (means_dump strtod hstrtod v h)

/-! ## The round trip -/

/-- The body of a reply, with its members in order. -/
theorem sendReplyBody_eq (messageId payloadJson replyId : Bytes) :
    Aws.sendReplyBody messageId payloadJson replyId =
      .obj [(lit "MessageId", .string messageId), (lit "Payload", .string payloadJson),
        (lit "ReplyId", .string replyId)] := by
  unfold Aws.sendReplyBody
  refine objOf_sorted _ ?_
  simp only [List.map_cons, List.map_nil]
  decide

/-- The body of a SendReply request loses nothing when it is printed. -/
theorem sendReplyBody_lossless (messageId payloadJson replyId : Bytes) :
    Lossless (Aws.sendReplyBody messageId payloadJson replyId) := by
  rw [sendReplyBody_eq]
  simp only [Lossless, LosslessEntries, List.map_cons, List.map_nil, and_true]
  decide

/-- **Serialising loses nothing.** `parse` gives back every value that `dump` wrote, and a
reply payload sent as a string of another body comes out of two parses.
SRC: json.cpp:254-269, 341-345, aws.cpp:326-333 -/
theorem dump_round_trip (hstrtod : ReadsIntegers strtod) :
    (∀ v, Lossless v → parse strtod (dump v) = (v, [])) ∧
    ∀ messageId replyId v, Lossless v →
      ∃ body payload, parse strtod (dump (Aws.sendReplyBody messageId (dump v) replyId)) = (body, []) ∧
        body.find (lit "Payload") = some (.string payload) ∧ parse strtod payload = (v, []) := by
  refine ⟨parse_dump strtod hstrtod, ?_⟩
  intro messageId replyId v hv
  refine ⟨_, dump v, parse_dump strtod hstrtod _ (sendReplyBody_lossless messageId (dump v) replyId), ?_,
    parse_dump strtod hstrtod v hv⟩
  have hne : (lit "Payload" == lit "MessageId") = false := by decide
  rw [sendReplyBody_eq]
  simp [Value.find, findEntry, List.lookup_cons, hne]

/-- `strtod` on the decimal notation of an integer. -/
def decimalStrtod (s : Bytes) : Double × ℕ :=
  let digits := (skipSign s).takeWhile isDigit
  let n : ℕ := digits.foldl (fun n c => 10 * n + (c.toNat - 48)) 0
  (.finite (if s.head? = some 45 then -n else n), s.length - (skipSign s).length + digits.length)

/-- Reading digits from the left is reading the number they write. -/
theorem foldl_digits (l : List Char) (hl : ∀ c ∈ l, 48 ≤ c.toNat ∧ c.toNat ≤ 57) (init : ℕ) :
    (l.map fun c => UInt8.ofNat c.toNat).foldl (fun n c => 10 * n + (c.toNat - 48)) init =
      Nat.ofDigitChars 10 l init := by
  induction l generalizing init with
  | nil => rfl
  | cons c l ih =>
    obtain ⟨hlo, hhi⟩ := hl c List.mem_cons_self
    have hbyte : (UInt8.ofNat c.toNat).toNat = c.toNat := by
      rw [UInt8.toNat_ofNat']
      omega
    rw [List.map_cons, List.foldl_cons, hbyte, Nat.ofDigitChars_cons,
      ih fun d hd => hl d (List.mem_cons_of_mem _ hd)]
    rfl

/-- The decimal text of a natural number is a nonempty run of digits. -/
theorem toStringNat_digits (n : ℕ) : ∃ ds : Digits, toStringNat n = ds.text := by
  obtain ⟨ds, hds⟩ := intPart_digits (intPartOf n)
  exact ⟨ds, (intPartOf_digits n).symm.trans hds⟩

/-- The decimal text of a natural number reads back as that number. -/
theorem foldl_toStringNat (n : ℕ) : (toStringNat n).foldl (fun n c => 10 * n + (c.toNat - 48)) 0 = n := by
  unfold toStringNat lit
  rw [Nat.toString_eq_repr, Nat.toList_repr, foldl_digits _ fun c hc => digit_range hc]
  exact Nat.ofDigitChars_ten_toDigits

/-- The example's `strtod` reads decimal integers as the library's does. -/
theorem decimalStrtod_reads : ReadsIntegers decimalStrtod := by
  intro k _
  obtain ⟨ds, hds⟩ := toStringNat_digits k.natAbs
  have hskip : skipSign (decimalText k) = toStringNat k.natAbs := by
    unfold decimalText
    split_ifs with hneg
    · rfl
    · rw [List.nil_append, hds, ← List.append_nil ds.text]
      exact skipSign_of_digit (head_digits ds [])
  have htake : (toStringNat k.natAbs).takeWhile isDigit = toStringNat k.natAbs := by
    have h := (dropWhile_digits (decimalDigits k.natAbs) [] (fun c hc => by cases hc)).2
    rwa [List.append_nil, digitsText_decimalDigits] at h
  have hvalue := foldl_toStringNat k.natAbs
  have hhead : (decimalText k).head? = some 45 ↔ k < 0 := by
    unfold decimalText
    split_ifs with hneg
    · exact iff_of_true rfl hneg
    · refine iff_of_false ?_ hneg
      rw [List.nil_append, hds]
      intro h
      have hdigit := head_digits ds [] 45 (by rw [List.append_nil]; exact h)
      cases hdigit
  unfold decimalStrtod
  simp only [hskip, htake, hvalue, hhead]
  congr 1
  split_ifs with hneg
  · have hk : (k.natAbs : ℤ) = -k := by omega
    rw [← Int.cast_natCast, hk]
    push_cast
    ring
  · have hk : (k.natAbs : ℤ) = k := by omega
    rw [← Int.cast_natCast, hk]

/-- A reply with a number, a line break and an empty object. -/
def exampleReply : Value :=
  .obj [(lit "code", .number (.finite (-1)) true), (lit "output", .string [10, 34, 255]),
    (lit "runtimeStatus", .obj [])]

/-- The example reply loses nothing when it is printed. -/
theorem exampleReply_lossless : Lossless exampleReply := by
  have hkeys : [lit "code", lit "output", lit "runtimeStatus"].Pairwise (· < ·) := by decide
  simp only [exampleReply, Lossless, LosslessEntries, List.map_cons, List.map_nil, and_true, true_and,
    List.Pairwise.nil]
  exact ⟨hkeys, -1, by simp, by norm_num⟩

/-- The example reply, nested in a SendReply body, comes back from two parses. -/
theorem dump_round_trip_reply :
    ∃ body payload,
      parse decimalStrtod (dump (Aws.sendReplyBody (lit "m-1") (dump exampleReply) (lit "r-1"))) =
        (body, []) ∧
      body.find (lit "Payload") = some (.string payload) ∧
      parse decimalStrtod payload = (exampleReply, []) :=
  (dump_round_trip decimalStrtod decimalStrtod_reads).2 (lit "m-1") (lit "r-1") exampleReply
    exampleReply_lossless

end HaikuAgent.Analysis.JsonRoundTrip
