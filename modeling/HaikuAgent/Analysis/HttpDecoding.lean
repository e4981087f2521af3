import HaikuAgent.Foundation.Lines
import HaikuAgent.Analysis.HttpBodies
import HaikuAgent.Interface.HttpMessage

/-!
# Responses are decoded

A response of `Interface.HttpMessage` is read back whatever the cuts. The parts are taken
in the order of the wire: numbers, the lines of the header block, the body. What the
reader makes of a size line is `SizeLine.size`, so a `Coding` is a sequence of `Rounds`.
-/

set_option autoImplicit false

namespace HaikuAgent.Analysis.HttpDecoding

open HaikuAgent.Foundation
open HaikuAgent.Model
open HaikuAgent.Model.Http
open HaikuAgent.Model.Http.Exchange
open HaikuAgent.Model.Json (setEntry findEntry lookup_setEntry)
open HaikuAgent.Model.WebSocket (crlf headEnd)
open HaikuAgent.Interface.HttpMessage
open HaikuAgent.Analysis.HttpReading
open HaikuAgent.Analysis.HttpBodies

/-! ## Numbers -/

/-- A digit is a decimal digit or a letter. -/
theorem of_digitValue (base : ℕ) (c : UInt8) (h : (digitValue base c).isSome) :
    (48 ≤ c ∧ c ≤ 57) ∨ (97 ≤ c ∧ c ≤ 122) ∨ (65 ≤ c ∧ c ≤ 90) := by
  unfold digitValue at h
  dsimp only at h
  by_contra hnone
  rw [not_or, not_or] at hnone
  rw [if_neg hnone.1, if_neg hnone.2.1, if_neg hnone.2.2, if_neg (lt_irrefl base)] at h
  cases h

/-- A number without the prefix `0x` is read from its beginning. -/
theorem skipHexPrefix_of (s : Bytes) (h : ∀ x ∈ s[1]?, ¬(x = 120 ∨ x = 88)) : skipHexPrefix s = s := by
  unfold skipHexPrefix
  split
  · rename_i x d rest
    exact if_neg fun hskipped => h x rfl hskipped.1
  · rfl

/-- So is one without a sign. -/
theorem splitSign_of (c : UInt8) (s : Bytes) (hminus : c ≠ 45) (hplus : c ≠ 43) :
    splitSign (c :: s) = (false, c :: s) := by
  unfold splitSign
  split
  · rename_i heq
    exact absurd (List.cons.inj heq).1 hminus
  · rename_i heq
    exact absurd (List.cons.inj heq).1 hplus
  · rfl

/-- There is no `0x` in front of digits that are followed by no `x`. -/
theorem skipHexPrefix_digits (ds rest : Bytes) (hds : ∀ c ∈ ds, (digitValue 16 c).isSome)
    (hrest : ∀ c ∈ rest.head?, c ≠ 120 ∧ c ≠ 88) (hne : ds ≠ []) :
    skipHexPrefix (ds ++ rest) = ds ++ rest := by
  apply skipHexPrefix_of
  intro x hmem
  match ds, hne with
  | [c], _ =>
    rw [List.singleton_append, List.getElem?_cons_succ, ← List.head?_eq_getElem?] at hmem
    rw [not_or]
    exact hrest x hmem
  | c :: d :: more, _ =>
    have hdx : d = x := Option.some.inj hmem
    subst hdx
    have hdigit := hds d (List.mem_cons_of_mem _ List.mem_cons_self)
    rintro (rfl | rfl)
    · cases hdigit
    · cases hdigit

/-- `strtoul` reads the digits a text begins with. -/
theorem strtoul_digits (base : ℕ) (ds rest : Bytes) (hne : ds ≠ [])
    (hds : ∀ c ∈ ds, (digitValue base c).isSome)
    (hrest : ∀ c ∈ rest.head?, digitValue base c = none ∧ c ≠ 120 ∧ c ≠ 88)
    (hsize : digitsValue base ds < 2 ^ 64) : strtoul base (ds ++ rest) = digitsValue base ds := by
  have hskipped : (if base = 16 then skipHexPrefix (ds ++ rest) else ds ++ rest) = ds ++ rest := by
    split_ifs with hbase
    · subst hbase
      exact skipHexPrefix_digits ds rest hds (fun c hc => (hrest c hc).2) hne
    · rfl
  have htake : (ds ++ rest).takeWhile (fun c => (digitValue base c).isSome) = ds := by
    rw [List.takeWhile_append_of_pos hds]
    cases rest with
    | nil => exact List.append_nil ds
    | cons c rest =>
      rw [List.takeWhile_cons_of_neg, List.append_nil]
      rw [(hrest c rfl).1]
      exact Bool.false_ne_true
  obtain ⟨c, more, rfl⟩ := List.exists_cons_of_ne_nil hne
  have hc := of_digitValue base c (hds c List.mem_cons_self)
  have hplain : (c == 32 || (9 ≤ c && c ≤ 13)) = false := by
    simp only [Bool.or_eq_false_iff, beq_eq_false_iff_ne, Bool.and_eq_false_iff,
      decide_eq_false_iff_not]
    simp only [UInt8.le_iff_toNat_le, ← UInt8.toNat_inj, ne_eq, UInt8.reduceToNat] at hc ⊢
    omega
  have hminus : c ≠ 45 := by
    rintro rfl
    revert hc
    decide
  have hplus : c ≠ 43 := by
    rintro rfl
    revert hc
    decide
  unfold strtoul
  rw [List.cons_append] at hskipped htake ⊢
  rw [List.dropWhile_cons_of_neg (by rw [hplain]; exact Bool.false_ne_true),
    splitSign_of c _ hminus hplus]
  dsimp only
  rw [hskipped, htake, if_neg (by omega), if_neg Bool.false_ne_true]

/-- A hexadecimal digit is read as its value. -/
theorem digitValue_hexByte (d : HexDigit) : digitValue 16 d.byte = some d.value.val := by
  obtain ⟨value, upper⟩ := d
  revert value upper
  decide

/-- Hexadecimal digits are read as their value. -/
theorem digitsValue_hexBytes (ds : List HexDigit) :
    digitsValue 16 (ds.map HexDigit.byte) = hexValue ds := by
  unfold digitsValue hexValue
  rw [List.foldl_map]
  congr 1
  funext n d
  rw [digitValue_hexByte, Option.getD_some]

/-- A decimal digit is read as its value. -/
theorem digitValue_decimalByte (d : Fin 10) : digitValue 10 (decimalByte d) = some d.val := by
  revert d
  decide

/-- Decimal digits are read as their value. -/
theorem digitsValue_decimalBytes (ds : List (Fin 10)) :
    digitsValue 10 (ds.map decimalByte) = decimalValue ds := by
  unfold digitsValue decimalValue
  rw [List.foldl_map]
  congr 1
  funext n d
  rw [digitValue_decimalByte, Option.getD_some]

/-- A chunk extension begins with a blank or a semicolon. -/
theorem head_exts (exts : List ChunkExt) (c : UInt8) (hc : c ∈ (exts.flatMap ChunkExt.text).head?) :
    c = 59 ∨ isBlankChar c := by
  cases exts with
  | nil => cases hc
  | cons e exts =>
    rw [List.flatMap_cons, ChunkExt.text] at hc
    cases hbefore : e.before.bytes with
    | nil =>
      rw [hbefore] at hc
      exact Or.inl (Option.some.inj hc).symm
    | cons b bytes =>
      rw [hbefore] at hc
      have hb := e.before.chars b (hbefore ▸ List.mem_cons_self)
      exact Or.inr (Option.some.inj hc ▸ hb)

/-- The reader's value of a size line is its size. -/
theorem strtoul_sizeLine (l : SizeLine) : strtoul 16 l.text = l.size := by
  have hvalue := digitsValue_hexBytes l.digits
  rw [SizeLine.text, strtoul_digits, hvalue, SizeLine.size]
  · exact fun hnil => l.ne_nil (List.map_eq_nil_iff.mp hnil)
  · intro c hc
    obtain ⟨d, -, rfl⟩ := List.mem_map.mp hc
    rw [digitValue_hexByte]
    rfl
  · intro c hc
    rcases head_exts l.exts c hc with rfl | hblank
    · decide
    · simp only [isBlankChar, Bool.or_eq_true, beq_iff_eq] at hblank
      rcases hblank with rfl | rfl
      · decide
      · decide
  · rw [hvalue]
    exact l.size_lt

/-- The reader's value of a `Content-Length` is the number its digits spell. -/
theorem strtoul_decimal (ds : List (Fin 10)) (hne : ds ≠ []) (hsize : decimalValue ds < 2 ^ 64) :
    strtoul 10 (ds.map decimalByte) = decimalValue ds := by
  have hvalue := digitsValue_decimalBytes ds
  rw [← List.append_nil (ds.map decimalByte), strtoul_digits, hvalue]
  · exact fun hnil => hne (List.map_eq_nil_iff.mp hnil)
  · intro c hc
    obtain ⟨d, -, rfl⟩ := List.mem_map.mp hc
    rw [digitValue_decimalByte]
    rfl
  · intro c hc
    cases hc
  · rw [hvalue]
    exact hsize

/-! ## The chunked coding -/

/-- A token has only token characters. -/
theorem not_mem_token (t : Token) (c : UInt8) (h : isTchar c = false) : c ∉ t.bytes := by
  intro hc
  cases h.symm.trans (t.chars c hc)

/-- Blanks are blanks only. -/
theorem not_mem_blanks (b : Blanks) (c : UInt8) (h : isBlankChar c = false) : c ∉ b.bytes := by
  intro hc
  cases h.symm.trans (b.chars c hc)

/-- A quoted string does not break the line. -/
theorem not_mem_quoted (items : List QuotedItem) : (13 : UInt8) ∉ items.flatMap QuotedItem.bytes := by
  intro hmem
  obtain ⟨item, -, hc⟩ := List.mem_flatMap.mp hmem
  cases item with
  | text c h =>
    cases List.mem_singleton.mp hc
    exact absurd h.1 (by decide)
  | pair c h =>
    simp only [QuotedItem.bytes, List.mem_cons, List.not_mem_nil, or_false] at hc
    rcases hc with hslash | rfl
    · exact absurd hslash (by decide)
    · exact absurd h (by decide)

/-- Nor does the value of an extension. -/
theorem not_mem_extValue (v : ExtValue) : (13 : UInt8) ∉ v.text := by
  cases v with
  | token t => exact not_mem_token t 13 rfl
  | quoted items =>
    intro hmem
    simp only [ExtValue.text, List.mem_cons, List.mem_append, List.not_mem_nil, or_false] at hmem
    rcases hmem with hquote | hitems | hquote
    · exact absurd hquote (by decide)
    · exact not_mem_quoted items hitems
    · exact absurd hquote (by decide)

/-- Nor does an extension. -/
theorem not_mem_ext (e : ChunkExt) : (13 : UInt8) ∉ e.text := by
  intro hmem
  simp only [ChunkExt.text, List.mem_cons, List.mem_append] at hmem
  rcases hmem with hbefore | hsemicolon | hafter | hname | hvalue
  · exact not_mem_blanks _ 13 rfl hbefore
  · exact absurd hsemicolon (by decide)
  · exact not_mem_blanks _ 13 rfl hafter
  · exact not_mem_token _ 13 rfl hname
  · cases hv : e.value with
    | none =>
      rw [hv] at hvalue
      cases hvalue
    | some v =>
      rw [hv] at hvalue
      simp only [List.mem_cons, List.mem_append] at hvalue
      rcases hvalue with hbefore | hequals | hafter | htext
      · exact not_mem_blanks _ 13 rfl hbefore
      · exact absurd hequals (by decide)
      · exact not_mem_blanks _ 13 rfl hafter
      · exact not_mem_extValue _ htext

/-- Nor does a line with the size of a chunk. -/
theorem not_mem_sizeLine (l : SizeLine) : (13 : UInt8) ∉ l.text := by
  intro hmem
  rcases List.mem_append.mp hmem with hdigits | hexts
  · obtain ⟨d, -, hd⟩ := List.mem_map.mp hdigits
    have hdigit := digitValue_hexByte d
    rw [hd] at hdigit
    cases hdigit
  · obtain ⟨e, -, he⟩ := List.mem_flatMap.mp hexts
    exact not_mem_ext e he

/-- A size line ends at the CRLF behind it. -/
theorem find_sizeLine (l : SizeLine) : find l.text crlf 0 = none := by
  have hskip := find_skip l.text [] 13 [10] (not_mem_sizeLine l)
  rw [List.append_nil] at hskip
  exact hskip

def pieceOf (c : Chunk) : Piece where
  line := c.line.text
  data := c.data
  ending := crlf
  line_ends := find_sizeLine c.line
  size := (strtoul_sizeLine c.line).trans c.size
  data_ne_nil := c.data_ne_nil
  length_ending := rfl

/-- A coding as the reader's rounds. -/
def roundsOf (chunks : List Chunk) (last : SizeLine) (h : last.size = 0) : Rounds :=
  chunks.foldr (fun c more => .piece (pieceOf c) more)
    (.last last.text (find_sizeLine last) ((strtoul_sizeLine last).trans h))

/-- The text of the chunks is that of each of them, and of the last line. -/
theorem text_roundsOf (chunks : List Chunk) (last : SizeLine) (h : last.size = 0) :
    (roundsOf chunks last h).text = chunks.flatMap Chunk.text ++ (last.text ++ lineEnd) := by
  induction chunks with
  | nil => rfl
  | cons c chunks ih =>
    show c.line.text ++ (crlf ++ (c.data ++ (crlf ++ (roundsOf chunks last h).text))) = _
    rw [ih, List.flatMap_cons, Chunk.text]
    simp only [List.append_assoc]
    rfl

/-- The data of the chunks is that of each of them. -/
theorem data_roundsOf (chunks : List Chunk) (last : SizeLine) (h : last.size = 0) :
    (roundsOf chunks last h).data = chunks.flatMap Chunk.data := by
  induction chunks with
  | nil => rfl
  | cons c chunks ih =>
    show c.data ++ (roundsOf chunks last h).data = _
    rw [ih, List.flatMap_cons]

/-! ## Field lines -/

/-- A value is trimmed to itself from between blanks. -/
theorem trim_blanks (before after : Blanks) (value : Bytes) (hhead : ∀ c ∈ value.head?, isBlank c = false)
    (hlast : ∀ c ∈ value.getLast?, isBlank c = false) :
    trim (before.bytes ++ (value ++ after.bytes)) = value := by
  have hblank : ∀ b : Blanks, ∀ c ∈ b.bytes, isBlank c = true := by
    intro b c hc
    have h := b.chars c hc
    simp only [isBlankChar, Bool.or_eq_true, beq_iff_eq] at h
    obtain rfl | rfl := h
    · rfl
    · rfl
  exact (strip_surrounded value (hblank before) (hblank after)).trans (strip_of_ends hhead hlast)

/-- There is nothing to trim off a token. -/
theorem trim_token (t : Token) : trim t.bytes = t.bytes := by
  have hplain : ∀ c ∈ t.bytes, isBlank c = false := by
    intro c hc
    by_contra hblank
    rw [Bool.not_eq_false] at hblank
    simp only [isBlank, Bool.or_eq_true, beq_iff_eq] at hblank
    rcases hblank with ((rfl | rfl) | rfl) | rfl
    · exact not_mem_token t _ rfl hc
    · exact not_mem_token t _ rfl hc
    · exact not_mem_token t _ rfl hc
    · exact not_mem_token t _ rfl hc
  have h := trim_blanks ⟨[], nofun⟩ ⟨[], nofun⟩ t.bytes
    (fun c hc => hplain c (List.mem_of_mem_head? hc)) (fun c hc => hplain c (List.mem_of_mem_getLast? hc))
  rw [List.nil_append, List.append_nil] at h
  exact h

/-- Names are compared without their case. -/
theorem lower_eq (s : Bytes) : lower s = lowerCase s := by
  unfold lower lowerCase
  congr 1
  funext c
  unfold lowerChar
  split_ifs with hupper
  · rw [UInt8.sub_eq_add_neg, UInt8.add_assoc]
    rfl
  · rfl

/-- A field is written on one line. -/
theorem not_mem_field (f : Field) : (13 : UInt8) ∉ f.text ∧ (10 : UInt8) ∉ f.text := by
  constructor
  · intro hmem
    simp only [Field.text, List.mem_append, List.mem_cons] at hmem
    rcases hmem with hname | hcolon | hbefore | hvalue | hafter
    · exact not_mem_token _ 13 rfl hname
    · exact absurd hcolon (by decide)
    · exact not_mem_blanks _ 13 rfl hbefore
    · exact (f.chars 13 hvalue).1 rfl
    · exact not_mem_blanks _ 13 rfl hafter
  · intro hmem
    simp only [Field.text, List.mem_append, List.mem_cons] at hmem
    rcases hmem with hname | hcolon | hbefore | hvalue | hafter
    · exact not_mem_token _ 10 rfl hname
    · exact absurd hcolon (by decide)
    · exact not_mem_blanks _ 10 rfl hbefore
    · exact (f.chars 10 hvalue).2 rfl
    · exact not_mem_blanks _ 10 rfl hafter

/-- The ends of a value are no blanks. -/
theorem isBlank_false (value : Bytes) (c : UInt8) (hc : c ∈ value)
    (hchars : ∀ c ∈ value, c ≠ 13 ∧ c ≠ 10) (h : ¬isBlankChar c) : isBlank c = false := by
  have hbreak := hchars c hc
  simp only [isBlankChar, Bool.or_eq_true, beq_iff_eq, not_or] at h
  simp only [isBlank, Bool.or_eq_false_iff, beq_eq_false_iff_ne]
  exact ⟨⟨⟨h.1, h.2⟩, hbreak.1⟩, hbreak.2⟩

/-- The CR that `split` leaves at a line's end is dropped. -/
theorem addHeader_cr (headers : List (Bytes × Bytes)) (line : Bytes) (h : (13 : UInt8) ∉ line) :
    addHeader headers (line ++ [13]) = addHeader headers line := by
  have hlast : line.getLast? ≠ some 13 := fun heq => h (List.mem_of_mem_getLast? heq)
  unfold addHeader
  rw [List.getLast?_concat, if_pos rfl, List.dropLast_concat, if_neg hlast]

/-- A field line becomes an entry of the table. -/
theorem addHeader_field (headers : List (Bytes × Bytes)) (f : Field) :
    addHeader headers f.text = setEntry headers f.key f.value := by
  have hlast : f.text.getLast? ≠ some 13 :=
    fun heq => (not_mem_field f).1 (List.mem_of_mem_getLast? heq)
  have hne : f.text ≠ [] := List.append_ne_nil_of_left_ne_nil f.name.ne_nil _
  have hcolon : find f.text [58] 0 = some f.name.bytes.length := by
    have hzero := find_zero (58 :: (f.before.bytes ++ (f.value ++ f.after.bytes))) [58]
      (List.prefix_append [58] _)
    rw [Field.text, find_skip _ _ _ _ (not_mem_token f.name 58 rfl), hzero, Option.map_some,
      Nat.zero_add]
  have hname : f.text.take f.name.bytes.length = f.name.bytes := List.take_left
  have hvalue : trim (f.text.drop (f.name.bytes.length + 1)) = f.value := by
    rw [Field.text, ← List.drop_drop, List.drop_left]
    exact trim_blanks f.before f.after f.value
      (fun c hc => isBlank_false f.value c (List.mem_of_mem_head? hc) f.chars (f.head c hc))
      (fun c hc => isBlank_false f.value c (List.mem_of_mem_getLast? hc) f.chars (f.last c hc))
  unfold addHeader
  rw [if_neg hlast, if_neg hne, hcolon]
  dsimp only
  rw [hname, hvalue, trim_token, lower_eq]
  rfl

/-- A table built from fields with different names has each of them. -/
theorem lookup_fields (fields : List Field) (hdistinct : (fields.map Field.key).Nodup)
    (headers : List (Bytes × Bytes)) (key : Bytes) :
    (fields.foldl (fun table f => setEntry table f.key f.value) headers).lookup key =
      ((fields.find? fun f => f.key == key).map Field.value).or (headers.lookup key) := by
  induction fields generalizing headers with
  | nil => rfl
  | cons f fields ih =>
    rw [List.map_cons, List.nodup_cons] at hdistinct
    rw [List.foldl_cons, ih hdistinct.2, lookup_setEntry, List.find?_cons]
    by_cases hkey : key = f.key
    · have hnone : fields.find? (fun g => g.key == key) = none := by
        rw [List.find?_eq_none]
        intro g hg heq
        rw [beq_iff_eq, hkey] at heq
        exact hdistinct.1 (heq ▸ List.mem_map_of_mem hg)
      rw [hnone, if_pos hkey, beq_iff_eq.mpr hkey.symm]
      rfl
    · rw [if_neg hkey, beq_eq_false_iff_ne.mpr (Ne.symm hkey)]

/-! ## The header block -/

/-- Lines of a header block: not empty and without CR or LF. -/
def Lines (ls : List Bytes) : Prop := ∀ l ∈ ls, l ≠ [] ∧ (13 : UInt8) ∉ l ∧ (10 : UInt8) ∉ l

/-- The first blank line is the one behind the last line. -/
theorem find_headEnd (l : Bytes) (ls : List Bytes) (h : Lines (l :: ls)) (rest : Bytes) :
    find (crlf.intercalate (l :: ls) ++ (headEnd ++ rest)) headEnd 0 =
      some (crlf.intercalate (l :: ls)).length := by
  induction ls generalizing l with
  | nil =>
    have hskip := find_skip l (headEnd ++ rest) 13 [10, 13, 10] (h l List.mem_cons_self).2.1
    have hzero := find_zero (headEnd ++ rest) headEnd (List.prefix_append headEnd rest)
    rw [List.intercalate_singleton]
    rw [show [13, 10, 13, 10] = headEnd from rfl, hzero, Option.map_some, Nat.zero_add] at hskip
    exact hskip
  | cons l' ls ih =>
    have hl := h l List.mem_cons_self
    obtain ⟨c, more, hc⟩ := List.exists_cons_of_ne_nil (h l' (List.mem_cons_of_mem _ List.mem_cons_self)).1
    have hc13 : 13 ≠ c := by
      rintro rfl
      exact (h l' (List.mem_cons_of_mem _ List.mem_cons_self)).2.1 (hc ▸ List.mem_cons_self)
    have hih := ih l' (fun k hk => h k (List.mem_cons_of_mem _ hk))
    obtain ⟨s, hs⟩ : ∃ s, crlf.intercalate (l' :: ls) ++ (headEnd ++ rest) = c :: s := by
      cases ls with
      | nil => exact ⟨_, by rw [List.intercalate_singleton, hc, List.cons_append]⟩
      | cons l'' ls =>
        exact ⟨_, by
          rw [List.intercalate_cons_cons, hc, List.cons_append, List.cons_append, List.cons_append]⟩
    have hcr : ¬headEnd <+: 13 :: 10 :: c :: s := by
      intro hp
      have hp := (List.cons_prefix_cons.mp (List.cons_prefix_cons.mp hp).2).2
      exact hc13 (List.cons_prefix_cons.mp hp).1
    have hlf : ¬headEnd <+: 10 :: c :: s := by
      intro hp
      exact absurd (List.cons_prefix_cons.mp hp).1 (by decide)
    rw [hs] at hih
    have hsplit : crlf.intercalate (l :: l' :: ls) ++ (headEnd ++ rest) = l ++ (13 :: 10 :: c :: s) := by
      rw [List.intercalate_cons_cons, List.append_assoc, List.append_assoc, hs]
      rfl
    have hskip := find_skip l (13 :: 10 :: c :: s) 13 [10, 13, 10] hl.2.1
    rw [show [13, 10, 13, 10] = headEnd from rfl] at hskip
    rw [hsplit, hskip, find_cons _ _ _ hcr, find_cons _ _ _ hlf, hih, List.intercalate_cons_cons]
    simp only [Option.map_some, List.length_append, show crlf.length = 2 from rfl, Option.some.injEq]
    omega

/-- `atoi` reads the digits a text begins with. -/
theorem atoi_digits (c : UInt8) (ds rest : Bytes) (hds : ∀ d ∈ c :: ds, 48 ≤ d ∧ d ≤ 57)
    (hrest : ∀ d ∈ rest.head?, ¬(48 ≤ d ∧ d ≤ 57)) (value : ℕ)
    (hvalue : (c :: ds).foldl (fun n d => 10 * n + (d.toNat - 48 : ℤ)) 0 = value)
    (hsize : value < 2 ^ 31) : atoi (c :: ds ++ rest) = value := by
  have hc := hds c List.mem_cons_self
  have hplain : (c == 32 || (9 ≤ c && c ≤ 13)) = false := by
    simp only [Bool.or_eq_false_iff, beq_eq_false_iff_ne, Bool.and_eq_false_iff,
      decide_eq_false_iff_not]
    simp only [UInt8.le_iff_toNat_le, ← UInt8.toNat_inj, ne_eq, UInt8.reduceToNat] at hc ⊢
    omega
  have htake : (c :: (ds ++ rest)).takeWhile (fun c => 48 ≤ c && c ≤ 57) = c :: ds := by
    rw [← List.cons_append, List.takeWhile_append_of_pos]
    · cases rest with
      | nil => exact List.append_nil _
      | cons d rest =>
        rw [List.takeWhile_cons_of_neg, List.append_nil]
        rw [Bool.and_eq_true, decide_eq_true_eq, decide_eq_true_eq]
        exact hrest d rfl
    · intro d hd
      rw [Bool.and_eq_true, decide_eq_true_eq, decide_eq_true_eq]
      exact hds d hd
  unfold atoi
  rw [List.cons_append, List.dropWhile_cons_of_neg (by rw [hplain]; exact Bool.false_ne_true)]
  dsimp only
  split
  · rename_i heq
    rw [(List.cons.inj heq).1] at hc
    exact absurd hc (by decide)
  · rename_i heq
    rw [(List.cons.inj heq).1] at hc
    exact absurd hc (by decide)
  rw [htake, hvalue, if_neg Bool.false_ne_true]
  have hbound : (value : ℤ) < 2147483648 := by exact_mod_cast hsize
  have hlong : max (-2 ^ 63) (min (2 ^ 63 - 1) (value : ℤ)) = value := by
    rw [min_eq_right (by norm_num; omega), max_eq_right (by omega)]
  rw [hlong, Int.emod_eq_of_lt (by norm_num; omega) (by norm_num; omega), add_sub_cancel_right]

/-- What `split` makes of the lines: a CR is left at the end of each but the last. -/
def withBreaks : List Bytes → List Bytes
  | [] => []
  | [l] => [l]
  | l :: l' :: ls => (l ++ [13]) :: withBreaks (l' :: ls)

/-- The lines of a head are split where they end. -/
theorem split_lines (l : Bytes) (ls : List Bytes) (h : Lines (l :: ls)) :
    split (crlf.intercalate (l :: ls)) 10 = withBreaks (l :: ls) := by
  induction ls generalizing l with
  | nil =>
    rw [List.intercalate_singleton]
    exact List.splitOn_eq_singleton (h l List.mem_cons_self).2.2
  | cons l' ls ih =>
    have hbreak : (10 : UInt8) ∉ l ++ [13] := by
      rw [List.mem_append, not_or]
      exact ⟨(h l List.mem_cons_self).2.2, by decide⟩
    have hjoin : crlf.intercalate (l :: l' :: ls) = (l ++ [13]) ++ 10 :: crlf.intercalate (l' :: ls) := by
      rw [List.intercalate_cons_cons, List.append_assoc, List.append_assoc]
      rfl
    have hrest := ih l' fun k hk => h k (List.mem_cons_of_mem _ hk)
    unfold split at hrest ⊢
    rw [hjoin, List.splitOn_append_cons_self_of_not_mem hbreak, hrest]
    rfl

/-- Every line but the last keeps its carriage return. -/
theorem withBreaks_cons (l : Bytes) (ls : List Bytes) :
    ∃ e, (e = [] ∨ e = [13]) ∧ withBreaks (l :: ls) = (l ++ e) :: withBreaks ls := by
  cases ls with
  | nil => exact ⟨[], Or.inl rfl, by rw [List.append_nil]; rfl⟩
  | cons l' ls => exact ⟨[13], Or.inr rfl, rfl⟩

/-- The fields are stored one after the other, with or without the carriage return. -/
theorem addHeaders_withBreaks (fields : List Field) (headers : List (Bytes × Bytes)) :
    (withBreaks (fields.map Field.text)).foldl addHeader headers =
      fields.foldl (fun table f => setEntry table f.key f.value) headers := by
  induction fields generalizing headers with
  | nil => rfl
  | cons f fields ih =>
    obtain ⟨e, he, hbreaks⟩ := withBreaks_cons f.text (fields.map Field.text)
    rw [List.map_cons, hbreaks, List.foldl_cons, List.foldl_cons, ih, ← addHeader_field]
    rcases he with rfl | rfl
    · rw [List.append_nil]
    · rw [addHeader_cr headers f.text (not_mem_field f).1]

namespace MessageHead

variable (m : Message)

/-- The digits of the status. -/
def digits : Bytes := [m.status / 100, m.status / 10 % 10, m.status % 10].map fun d => UInt8.ofNat (48 + d)

/-- The status line begins with the version and the digits of the status. -/
theorem statusLine_eq : m.statusLine = lit "HTTP/1.1" ++ 32 :: (digits m ++ 32 :: m.reason) := by
  have hversion : lit "HTTP/1.1 " = lit "HTTP/1.1" ++ [32] := by decide
  unfold Message.statusLine digits
  rw [hversion, List.append_assoc, List.append_assoc]
  rfl

/-- A digit is written as its own byte. -/
theorem digit_toNat (d : ℕ) (h : d < 10) : (UInt8.ofNat (48 + d)).toNat = 48 + d := by
  rw [UInt8.toNat_ofNat']
  omega

/-- A status has three digits. -/
theorem digits_lt : m.status / 100 < 10 ∧ m.status / 10 % 10 < 10 ∧ m.status % 10 < 10 := by
  have h := m.status_lt
  omega

/-- They are written as digits. -/
theorem digits_range (d : UInt8) (hd : d ∈ digits m) : 48 ≤ d ∧ d ≤ 57 := by
  obtain ⟨hhundreds, htens, hones⟩ := digits_lt m
  obtain ⟨n, hn, rfl⟩ := List.mem_map.mp hd
  have hlt : n < 10 := by
    simp only [List.mem_cons, List.not_mem_nil, or_false] at hn
    omega
  rw [UInt8.le_iff_toNat_le, UInt8.le_iff_toNat_le, digit_toNat n hlt]
  exact ⟨Nat.le_add_right 48 n, show 48 + n ≤ 57 by omega⟩

/-- What is in none of its parts is not in the status line. -/
theorem not_mem_statusLine (c : UInt8) (hversion : c ∉ lit "HTTP/1.1") (hblank : c ≠ 32)
    (hdigit : ¬(48 ≤ c ∧ c ≤ 57)) (hreason : c ∉ m.reason) : c ∉ m.statusLine := by
  rw [statusLine_eq]
  intro hmem
  simp only [List.mem_append, List.mem_cons] at hmem
  rcases hmem with h | h | h | h | h
  · exact hversion h
  · exact hblank h
  · exact hdigit (digits_range m c h)
  · exact hblank h
  · exact hreason h

/-- The lines of a message do not break. -/
theorem lines_ok : Lines m.lines := by
  intro l hl
  rcases List.mem_cons.mp hl with rfl | hfield
  · refine ⟨?_, ?_, ?_⟩
    · rw [statusLine_eq]
      exact List.append_ne_nil_of_left_ne_nil (by decide) _
    · exact not_mem_statusLine m 13 (by decide) (by decide) (by decide)
        fun h => (m.reason_chars 13 h).1 rfl
    · exact not_mem_statusLine m 10 (by decide) (by decide) (by decide)
        fun h => (m.reason_chars 10 h).2 rfl
  · obtain ⟨f, -, rfl⟩ := List.mem_map.mp hfield
    exact ⟨List.append_ne_nil_of_left_ne_nil f.name.ne_nil _, not_mem_field f⟩

/-- Lines with their ends are the lines with ends in between, and one more. -/
theorem flatMap_lines (l : Bytes) (ls : List Bytes) :
    ((l :: ls).flatMap fun l => l ++ lineEnd) = crlf.intercalate (l :: ls) ++ lineEnd := by
  induction ls generalizing l with
  | nil => rw [List.flatMap_singleton, List.intercalate_singleton]
  | cons l' ls ih =>
    rw [List.flatMap_cons, ih, List.intercalate_cons_cons, List.append_assoc, List.append_assoc,
      List.append_assoc]
    rfl

/-- The head of a message is its lines, and the end of the head. -/
theorem headerBlock_eq : m.headerBlock = crlf.intercalate m.lines ++ headEnd := by
  unfold Message.headerBlock Message.lines
  rw [flatMap_lines, List.append_assoc]
  rfl

/-- The status is read from its digits. -/
theorem atoi_status (tail : Bytes) : atoi (digits m ++ 32 :: tail) = m.status := by
  obtain ⟨hhundreds, htens, hones⟩ := digits_lt m
  refine atoi_digits _ _ (32 :: tail) (digits_range m) ?_ m.status ?_ ?_
  · intro d hd
    cases hd
    decide
  · simp only [List.map_cons, List.map_nil, List.foldl_cons, List.foldl_nil, digit_toNat _ hhundreds,
      digit_toNat _ htens, digit_toNat _ hones]
    push_cast
    omega
  · have h := m.status_lt
    omega

/-- The reader gets the status and the table of the fields. -/
theorem parseHead_lines : parseHead (crlf.intercalate m.lines) =
    .ok (m.status, m.fields.foldl (fun table f => setEntry table f.key f.value) []) := by
  obtain ⟨e, -, hbreaks⟩ := withBreaks_cons m.statusLine (m.fields.map Field.text)
  have hline : m.statusLine ++ e = lit "HTTP/1.1" ++ 32 :: (digits m ++ 32 :: (m.reason ++ e)) := by
    rw [statusLine_eq]
    simp only [List.append_assoc, List.cons_append]
  have hspace : find (m.statusLine ++ e) [32] 0 = some 8 := by
    have hzero := find_zero (32 :: (digits m ++ 32 :: (m.reason ++ e))) [32] (List.prefix_append [32] _)
    rw [hline, find_skip _ _ _ _ (by decide), hzero]
    rfl
  have hdrop : (m.statusLine ++ e).drop (8 + 1) = digits m ++ 32 :: (m.reason ++ e) := by
    rw [hline]
    rfl
  unfold parseHead
  rw [show crlf.intercalate m.lines = crlf.intercalate (m.statusLine :: m.fields.map Field.text) from rfl,
    split_lines _ _ (lines_ok m), hbreaks]
  dsimp only
  rw [hspace]
  dsimp only
  rw [hdrop, atoi_status, addHeaders_withBreaks]

end MessageHead

/-! ## The body -/

/-- A field of a message is found by its key. -/
theorem field_of_mem (m : Message) (f : Field) (h : f ∈ m.fields) : m.field f.key = some f.value := by
  unfold Message.field
  cases hfind : m.fields.find? fun g => g.key == f.key with
  | none => exact absurd (beq_self_eq_true f.key) (List.find?_eq_none.mp hfind f h)
  | some g =>
    have hg := List.find?_some hfind
    have hkey : g.key = f.key := beq_iff_eq.mp hg
    rw [List.inj_on_of_nodup_map m.distinct (List.mem_of_find?_eq_some hfind) h hkey]
    rfl

/-- Another key is not found. -/
theorem field_of_absent (m : Message) (key : Bytes) (h : ∀ f ∈ m.fields, f.key ≠ key) :
    m.field key = none := by
  unfold Message.field
  rw [List.find?_eq_none.mpr, Option.map_none]
  intro f hf heq
  exact h f hf (beq_iff_eq.mp heq)

/-- `chunked` is found at the end of a list of codings. -/
theorem find_suffix (s pat : Bytes) (h : pat <:+ s) : (find s pat 0).isSome := by
  rw [Option.isSome_iff_ne_none, ne_eq, find_eq_none]
  intro hnone
  obtain ⟨front, rfl⟩ := h
  refine hnone front.length (Nat.zero_le _) ?_ ?_
  · rw [List.length_append]
    omega
  · rw [List.drop_left]

/-- The reader takes the payload of a message for the body. -/
theorem taken_payload (m : Message) (headers : List (Bytes × Bytes))
    (hheaders : ∀ key, findEntry headers key = m.field key) :
    ∃ used, Taken headers m.payload.text used m.payload.body := by
  have hframed := m.framed
  cases hpayload : m.payload with
  | sized digits body ne_nil size size_lt =>
    rw [hpayload] at hframed
    obtain ⟨⟨f, hf, hkey, hvalue⟩, hplain⟩ := hframed
    have hlength : findEntry headers (lit "content-length") = some (digits.map decimalByte) := by
      rw [hheaders, ← hvalue, ← field_of_mem m f hf, hkey]
      rfl
    have hchunked : isChunked headers = false := by
      unfold isChunked
      rw [hheaders, show lit "transfer-encoding" = transferEncoding from rfl, field_of_absent m _ hplain]
    have hsize : strtoul 10 (digits.map decimalByte) = body.length := by
      rw [strtoul_decimal digits ne_nil (by rw [size]; exact size_lt), size]
    have htaken := Taken.sized (s := body) hchunked _ hlength hsize.le
    rw [hsize, List.take_length] at htaken
    exact ⟨_, htaken⟩
  | chunked coding trailer =>
    rw [hpayload] at hframed
    obtain ⟨⟨f, hf, hkey, hvalue⟩, -⟩ := hframed
    have hchunked : isChunked headers = true := by
      unfold isChunked
      rw [hheaders, show lit "transfer-encoding" = f.key from hkey.symm, field_of_mem m f hf]
      dsimp only
      rw [lower_eq]
      exact find_suffix _ _ hvalue
    have htext := text_roundsOf coding.chunks coding.last coding.last_size
    have htaken := Taken.chunked (s := coding.text ++ trailer) hchunked
      (roundsOf coding.chunks coding.last coding.last_size) (by
        rw [htext]
        exact List.prefix_append _ _)
    rw [data_roundsOf] at htaken
    exact ⟨_, htaken⟩
  | toEnd body =>
    rw [hpayload] at hframed
    have hchunked : isChunked headers = false := by
      unfold isChunked
      rw [hheaders, show lit "transfer-encoding" = transferEncoding from rfl,
        field_of_absent m _ fun f hf => (hframed f hf).2]
    have hlength : findEntry headers (lit "content-length") = none := by
      rw [hheaders, show lit "content-length" = contentLength from rfl,
        field_of_absent m _ fun f hf => (hframed f hf).1]
    exact ⟨_, .toEnd hchunked hlength⟩

/-- Headers without framing are those of a payload that runs to the end. -/
theorem toEnd_of_unframed (m : Message) (headers : List (Bytes × Bytes))
    (hheaders : ∀ key, findEntry headers key = m.field key) (hchunked : isChunked headers = false)
    (hlength : findEntry headers (lit "content-length") = none) : ∃ body, m.payload = .toEnd body := by
  have hframed := m.framed
  cases hpayload : m.payload with
  | sized digits body ne_nil size size_lt =>
    rw [hpayload] at hframed
    obtain ⟨⟨f, hf, hkey, -⟩, -⟩ := hframed
    rw [hheaders, show lit "content-length" = f.key from hkey.symm, field_of_mem m f hf] at hlength
    cases hlength
  | chunked coding trailer =>
    rw [hpayload] at hframed
    obtain ⟨⟨f, hf, hkey, hvalue⟩, -⟩ := hframed
    unfold isChunked at hchunked
    rw [hheaders, show lit "transfer-encoding" = f.key from hkey.symm, field_of_mem m f hf] at hchunked
    dsimp only at hchunked
    rw [lower_eq, find_suffix _ _ hvalue] at hchunked
    cases hchunked
  | toEnd body => exact ⟨body, rfl⟩

/-- Without a file the body is what is stored. -/
theorem stored_of_none (x : Exchange) (h : x.sink.file.isSome = false) : stored x = x.resp.body := by
  have hnone : x.sink.file = none := Option.not_isSome_iff_eq_none.mp (by rw [h]; exact Bool.false_ne_true)
  rw [stored, hnone, Option.getD_none]

/-- With a sound file system the sink is open. -/
theorem openSink_sound (files : Files) (hsound : Sound files) (path : Bytes) (x : Exchange) :
    ∃ sink : BodySink, x.openSink files path = { x with sink := sink } ∧ sink.failed = false ∧
      sink.file = if path = [] then none else some [] := by
  unfold openSink
  rw [hsound.opened]
  split_ifs with hpath
  · exact ⟨_, rfl, rfl, rfl⟩
  · exact ⟨_, rfl, rfl, rfl⟩

/-- Behind the header block of a response: its status and fields are known, and its payload is
ahead. -/
structure HeadRead (m : Message) (t : Transport) (y : Exchange) (table : List (Bytes × Bytes)) : Prop where
  fields : ∀ key, findEntry table key = m.field key
  rest : ahead y = m.payload.text
  body : y.resp.body = []
  count : y.resp.sinkBytes = 0
  error : y.resp.error = []
  ending : y.transport.ending = t.ending

/-- The head of a message is read as it is. -/
theorem head_decoded (m : Message) (hblock : m.headerBlock.length ≤ 252 * 1024) (t : Transport)
    (hbytes : t.incoming = m.encode) :
    ∃ y table, (start t).readHeaders = (true, withHead y m.status table) ∧ HeadRead m t y table := by
  have hstream : ahead (start t) = crlf.intercalate m.lines ++ (headEnd ++ m.payload.text) := by
    show [] ++ t.incoming = _
    rw [List.nil_append, hbytes, Message.encode, MessageHead.headerBlock_eq, List.append_assoc]
  have hfind : find (ahead (start t)) headEnd 0 = some (crlf.intercalate m.lines).length := by
    rw [hstream]
    exact find_headEnd m.statusLine (m.fields.map Field.text) (MessageHead.lines_ok m) m.payload.text
  have hfits : (crlf.intercalate m.lines).length + 4 ≤ 252 * 1024 := by
    rw [MessageHead.headerBlock_eq, List.length_append] at hblock
    exact hblock
  have hhead : (ahead (start t)).take (crlf.intercalate m.lines).length = crlf.intercalate m.lines := by
    rw [hstream, List.take_left]
  obtain ⟨y, stop, status, headers, hread, hstop, -, hparse, hprogress⟩ | ⟨y, -, -, hreason⟩ :=
    readHeaders_spec 4096 (start t) (fun call => min_le_left _ _) (Nat.zero_le _)
  · rw [hfind] at hstop
    cases hstop
    rw [hhead, MessageHead.parseHead_lines] at hparse
    cases hparse
    refine ⟨y, _, hread, ?_, ?_, ?_, hprogress.count, hprogress.error, hprogress.ending⟩
    · intro key
      rw [findEntry, lookup_fields m.fields m.distinct, List.lookup_nil, Option.or_none]
      rfl
    · have hall := hprogress.ahead
      have htaken : (ahead (start t)).take ((crlf.intercalate m.lines).length + 4) =
          crlf.intercalate m.lines ++ headEnd := by
        rw [hstream, ← List.append_assoc]
        exact List.take_left' (by rw [List.length_append]; rfl)
      rw [htaken, hstream, ← List.append_assoc] at hall
      exact List.append_cancel_left hall
    · exact (stored_of_none y hprogress.file).symm.trans hprogress.stored
  · obtain ⟨err, herr⟩ := hreason _ hfind (by omega)
    rw [hhead, MessageHead.parseHead_lines] at herr
    cases herr

/-- A response is decoded exactly, however the transport cuts it. -/
theorem response_decoded (m : Message) (hblock : m.headerBlock.length ≤ 252 * 1024) (t : Transport)
    (hbytes : t.incoming = m.encode)
    (hclosed : (∃ body, m.payload = .toEnd body) → t.ending = .closed)
    (files : Files) (hsound : Sound files) (path : Bytes) :
    ∃ x y, (start t).readHeaders = (true, x) ∧ x.resp.status = m.status ∧
      (∀ key, findEntry x.resp.headers key = m.field key) ∧
      (x.openSink files path).readBody files = (true, y) ∧
      y.resp.status = x.resp.status ∧ y.resp.headers = x.resp.headers ∧ y.resp.error = [] ∧
      y.resp.sinkBytes = m.payload.body.length ∧
      (path = [] → y.resp.body = m.payload.body) ∧
      (path ≠ [] → y.sink.file = some m.payload.body) := by
  obtain ⟨y, table, hread, hhead⟩ := head_decoded m hblock t hbytes
  obtain ⟨sink, hsink, hopen, hfile⟩ := openSink_sound files hsound path (withHead y m.status table)
  obtain ⟨used, htaken⟩ := taken_payload m table hhead.fields
  rw [← hhead.rest] at htaken
  obtain ⟨z, hz, used', data, htaken', hdone⟩ | ⟨z, -, -, hreason⟩ :=
    readBody_spec files { withHead y m.status table with sink := sink } hopen
  · cases htaken.unique htaken'
    have hstored : stored z = m.payload.body := by
      rw [hdone.stored, stored, hfile]
      split_ifs with hpath
      · exact congrArg (· ++ m.payload.body) hhead.body
      · rfl
    have hcount : z.resp.sinkBytes = m.payload.body.length := by
      rw [hdone.count]
      show y.resp.sinkBytes + _ = _
      rw [hhead.count, Nat.zero_add]
    have hkept : z.sink.file.isSome = sink.file.isSome := hdone.file
    refine ⟨_, z, hread, rfl, hhead.fields, by rw [hsink]; exact hz, hdone.status, hdone.headers,
      hdone.error.trans hhead.error, hcount, ?_, ?_⟩
    · intro hpath
      rw [hfile, if_pos hpath] at hkept
      rw [← stored_of_none z hkept, hstored]
    · intro hpath
      rw [hfile, if_neg hpath] at hkept
      obtain ⟨bytes, hbytes⟩ := Option.isSome_iff_exists.mp hkept
      rw [stored, hbytes, Option.getD_some] at hstored
      rw [hbytes, hstored]
  · obtain hnone | ⟨hchunked, hlength, hending⟩ := hreason hsound
    · exact absurd ⟨used, _, htaken⟩ hnone
    · exact absurd (hhead.ending.trans (hclosed (toEnd_of_unframed m table hhead.fields hchunked hlength)))
        hending

/-- Three bytes in one chunk. -/
def exampleCoding : Coding where
  chunks := [⟨⟨[⟨3, false⟩], [], by decide, by decide⟩, lit "abc", rfl, by decide⟩]
  last := ⟨[⟨0, false⟩], [], by decide, by decide⟩
  last_size := rfl

def exampleField : Field where
  name := ⟨lit "Transfer-Encoding", by decide +kernel, by decide +kernel⟩
  before := ⟨[32], by decide +kernel⟩
  value := lit "chunked"
  after := ⟨[], by decide +kernel⟩
  chars := by decide +kernel
  head := by
    intro c hc
    cases hc
    decide
  last := by
    intro c hc
    cases hc
    decide

def exampleResponse : Message where
  status := 200
  reason := lit "OK"
  fields := [exampleField]
  payload := .chunked exampleCoding lineEnd
  status_lt := by decide
  reason_chars := by decide +kernel
  distinct := List.nodup_singleton _
  framed := by
    refine ⟨⟨exampleField, List.mem_singleton_self _, by decide, by decide⟩, ?_⟩
    intro f hf
    cases List.mem_singleton.mp hf
    decide

/-- The example in chunks is read as it was sent. -/
theorem response_decoded_chunked :
    ∃ x y, (start ⟨exampleResponse.encode, fun n => n % 3, 0, .closed⟩).readHeaders = (true, x) ∧
      x.resp.status = 200 ∧
      (∀ key, findEntry x.resp.headers key = exampleResponse.field key) ∧
      (x.openSink ⟨none, fun _ => none, none⟩ (lit "/tmp/a")).readBody ⟨none, fun _ => none, none⟩ =
        (true, y) ∧
      y.resp.status = x.resp.status ∧ y.resp.headers = x.resp.headers ∧ y.resp.error = [] ∧
      y.resp.sinkBytes = 3 ∧
      (lit "/tmp/a" = [] → y.resp.body = lit "abc") ∧
      (lit "/tmp/a" ≠ [] → y.sink.file = some (lit "abc")) :=
  response_decoded exampleResponse (by decide) ⟨exampleResponse.encode, fun n => n % 3, 0, .closed⟩
    rfl (fun _ => rfl) ⟨none, fun _ => none, none⟩ ⟨rfl, fun _ => rfl, rfl⟩ (lit "/tmp/a")

end HaikuAgent.Analysis.HttpDecoding
