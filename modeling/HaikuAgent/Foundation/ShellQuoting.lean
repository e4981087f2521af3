import Mathlib.Data.List.Basic
import HaikuAgent.Foundation.Bytes

/-!
# How a shell reads words

Token recognition of the POSIX shell: quotes, escapes, comments, blanks and operators. A text
is read a byte at a time by `Mode.read`, and `tokens` has no value where quoting alone does not
settle what the text says: an open quotation, or an expansion.

A text that reads as words has spent its bytes on the words, on blanks between them, on quotes
and on other marks (`tokensFrom_account`); with nothing spent on other marks, no word has a quote.
-/

set_option autoImplicit false

namespace HaikuAgent.Foundation.Shell

def quote : UInt8 := 39
def doubleQuote : UInt8 := 34
def backslash : UInt8 := 92
def newline : UInt8 := 10

def blanks : Bytes := lit " \t"

/-- The bytes that operators are made of. -/
def operators : Bytes := lit "|&;<>()\n"

/-- The bytes that begin an expansion, outside single quotes. -/
def expansions : Bytes := lit "$\u0060"

/-- The bytes of patterns. -/
def patterns : Bytes := lit "*?["

inductive Token where
  | word (bytes : Bytes)
  | operator (b : UInt8)
  deriving DecidableEq

/-- Where a reader stands; `cur` is the word it is in. -/
inductive Mode where
  | plain (cur : Option Bytes)
  | escape (cur : Option Bytes)
  | single (cur : Bytes)
  | double (cur : Bytes)
  | doubleEscape (cur : Bytes)
  | comment
  deriving DecidableEq

/-- The token that ends. -/
def flush (cur : Option Bytes) : List Token := (cur.map Token.word).toList

/-- One byte: the tokens it ends, and where the reader stands then. -/
def Mode.read (mode : Mode) (b : UInt8) : Option (List Token × Mode) :=
  match mode with
  | .plain cur =>
    if b ∈ blanks then some (flush cur, .plain none)
    else if b ∈ operators then some (flush cur ++ [.operator b], .plain none)
    else if b = 35 ∧ cur = none then some ([], .comment)
    else if b = quote then some ([], .single (cur.getD []))
    else if b = doubleQuote then some ([], .double (cur.getD []))
    else if b = backslash then some ([], .escape cur)
    else if b ∈ expansions ∨ b ∈ patterns ∨ b = 126 ∧ cur = none then none
    else some ([], .plain (some (cur.getD [] ++ [b])))
  | .escape cur =>
    -- an escaped newline continues the line
    if b = newline then some ([], .plain cur) else some ([], .plain (some (cur.getD [] ++ [b])))
  | .single cur =>
    if b = quote then some ([], .plain (some cur)) else some ([], .single (cur ++ [b]))
  | .double cur =>
    if b = doubleQuote then some ([], .plain (some cur))
    else if b = backslash then some ([], .doubleEscape cur)
    else if b ∈ expansions then none
    else some ([], .double (cur ++ [b]))
  | .doubleEscape cur =>
    if b = newline then some ([], .double cur)
    else if b = doubleQuote ∨ b = backslash ∨ b ∈ expansions then some ([], .double (cur ++ [b]))
    else some ([], .double (cur ++ [backslash, b]))
  | .comment => if b = newline then some ([.operator b], .plain none) else some ([], .comment)

/-- The end of the text. -/
def Mode.finish : Mode → Option (List Token)
  | .plain cur => some (flush cur)
  | .comment => some []
  | _ => none

def tokensFrom : Mode → Bytes → Option (List Token)
  | mode, [] => mode.finish
  | mode, b :: text =>
    match mode.read b with
    | none => none
    | some (ended, mode) => (tokensFrom mode text).map (ended ++ ·)

/-- The tokens of a text. -/
def tokens (text : Bytes) : Option (List Token) := tokensFrom (.plain none) text

/-- The text is one simple command of these words, and nothing else. -/
def SimpleCommand (text : Bytes) (words : List Bytes) : Prop := tokens text = some (words.map Token.word)

instance (text : Bytes) (words : List Bytes) : Decidable (SimpleCommand text words) :=
  inferInstanceAs (Decidable (_ = _))

/-! ## Quoting -/

/-- A byte that ends no token. -/
theorem tokensFrom_cons (mode mode' : Mode) (b : UInt8) (text : Bytes)
    (h : mode.read b = some ([], mode')) : tokensFrom mode (b :: text) = tokensFrom mode' text := by
  rw [tokensFrom, h]
  exact Option.map_id_apply

/-- A text with more to come. -/
def Mode.scan (mode : Mode) : Bytes → Option (List Token × Mode)
  | [] => some ([], mode)
  | b :: text => do
    let (ended, mode) ← mode.read b
    let (later, mode) ← mode.scan text
    some (ended ++ later, mode)

/-- A text with a part before it is read from where that part ends. -/
theorem tokensFrom_append (mode mode' : Mode) (text rest : Bytes) (ended : List Token)
    (h : mode.scan text = some (ended, mode')) :
    tokensFrom mode (text ++ rest) = (tokensFrom mode' rest).map (ended ++ ·) := by
  induction text generalizing mode ended with
  | nil =>
    cases h
    exact Option.map_id_apply.symm
  | cons b text ih =>
    obtain ⟨⟨first, next⟩, hread, h⟩ := Option.bind_eq_some_iff.mp h
    obtain ⟨⟨later, last⟩, hscan, h⟩ := Option.bind_eq_some_iff.mp h
    cases h
    rw [List.cons_append, tokensFrom, hread]
    show (tokensFrom next (text ++ rest)).map (first ++ ·) = _
    rw [ih next later hscan, Option.map_map]
    refine congrArg (fun f => Option.map f (tokensFrom mode' rest)) (funext fun ts => ?_)
    exact (List.append_assoc first later ts).symm

/-- What stands between single quotes is read as it is. -/
theorem tokensFrom_single (cur s rest : Bytes) (hs : quote ∉ s) :
    tokensFrom (.single cur) (s ++ quote :: rest) = tokensFrom (.plain (some (cur ++ s))) rest := by
  induction s generalizing cur with
  | nil =>
    rw [List.nil_append, List.append_nil]
    exact tokensFrom_cons _ _ quote rest rfl
  | cons b s ih =>
    have hb : b ≠ quote := fun h => hs (h ▸ List.mem_cons_self)
    have hread : Mode.read (.single cur) b = some ([], .single (cur ++ [b])) := if_neg hb
    rw [List.cons_append, tokensFrom_cons _ _ b _ hread,
      ih (cur ++ [b]) fun h => hs (List.mem_cons_of_mem b h), List.append_assoc]
    rfl

/-- A word between single quotes. -/
theorem tokensFrom_quoted (s rest : Bytes) (hs : quote ∉ s) :
    tokensFrom (.single []) (s ++ lit "'" ++ rest) = tokensFrom (.plain (some s)) rest := by
  rw [List.append_assoc]
  exact tokensFrom_single [] s rest hs

/-- The last word of a text. -/
theorem tokensFrom_quoted_last (s : Bytes) (hs : quote ∉ s) :
    tokensFrom (.single []) (s ++ lit "'") = some [.word s] := by
  rw [← List.append_nil (lit "'"), ← List.append_assoc, tokensFrom_quoted s [] hs]
  rfl

/-! ## What a text is spent on -/

namespace Mode

/-- The bytes read for the token that is not ended yet. -/
def held : Mode → Bytes
  | .plain cur => cur.getD []
  | .escape cur => cur.getD []
  | .single cur => cur
  | .double cur => cur
  | .doubleEscape cur => cur ++ [backslash]
  | .comment => []

/-- Only single quotes were met in the token so far. -/
def Raw : Mode → Prop
  | .plain _ => True
  | .single _ => True
  | _ => False

end Mode

def Token.bytes : Token → Bytes
  | .word bytes => bytes
  | .operator _ => []

def Token.isWord : Token → Bool
  | .word _ => true
  | .operator _ => false

/-- The bytes of the words. -/
def wordBytes (ts : List Token) : Bytes := ts.flatMap Token.bytes

def wordCount (ts : List Token) : ℕ := ts.countP Token.isWord

def operatorCount (ts : List Token) : ℕ := ts.countP fun t => !t.isWord

/-- The bytes of `before` and `text` are those of `after`, and others: blanks, quotes and other
marks. -/
structure Account (before text after : Bytes) (blanks quotes others : ℕ) : Prop where
  length : before.length + text.length = after.length + blanks + quotes + others
  count : before.count quote + text.count quote = after.count quote + quotes

/-- The bytes of the word that ends are those read for it. -/
theorem wordBytes_flush (cur : Option Bytes) : wordBytes (flush cur) = cur.getD [] := by
  cases cur with
  | none => rfl
  | some w => exact List.append_nil w

/-- At most one word ends at a time. -/
theorem wordCount_flush (cur : Option Bytes) : wordCount (flush cur) ≤ 1 := by
  cases cur with
  | none => exact Nat.zero_le 1
  | some w => exact Nat.le_refl 1

/-- The words of two lists of tokens have the bytes of both. -/
theorem wordBytes_append (ts us : List Token) : wordBytes (ts ++ us) = wordBytes ts ++ wordBytes us :=
  List.flatMap_append

/-- They are as many as those of both. -/
theorem wordCount_append (ts us : List Token) : wordCount (ts ++ us) = wordCount ts + wordCount us :=
  List.countP_append

/-- And so are the operators. -/
theorem operatorCount_append (ts us : List Token) :
    operatorCount (ts ++ us) = operatorCount ts + operatorCount us :=
  List.countP_append

/-- What one byte is spent on. -/
def Spent (mode : Mode) (b : UInt8) (ended : List Token) (mode' : Mode) : Prop :=
  ∃ blanks quotes others, Account mode.held [b] (wordBytes ended ++ mode'.held) blanks quotes others ∧
    wordCount ended ≤ blanks + operatorCount ended ∧
    (others = 0 → mode.Raw →
      mode'.Raw ∧ (wordBytes ended ++ mode'.held).count quote = mode.held.count quote)

section Step

variable (mode mode' : Mode) (b : UInt8)

/-- A byte that is no quote adds no quote. -/
theorem count_of_ne (hb : b ≠ quote) : [b].count quote = 0 :=
  List.count_eq_zero_of_not_mem fun h => hb (List.mem_singleton.mp h).symm

/-- A byte that is kept is spent on the word. -/
theorem spent_kept (hheld : mode'.held = mode.held ++ [b]) (hraw : mode.Raw → mode'.Raw ∧ b ≠ quote) :
    Spent mode b [] mode' := by
  refine ⟨0, 0, 0, ⟨?_, ?_⟩, Nat.zero_le _, fun _ h => ⟨(hraw h).1, ?_⟩⟩
  · rw [hheld]
    exact List.length_append.symm
  · rw [hheld]
    exact List.count_append.symm
  · rw [hheld]
    show (mode.held ++ [b]).count quote = _
    rw [List.count_append, count_of_ne b (hraw h).2, Nat.add_zero]

/-- A quote is spent on quoting. -/
theorem spent_quote (hheld : mode'.held = mode.held) (hraw : mode.Raw → mode'.Raw) :
    Spent mode quote [] mode' := by
  refine ⟨0, 1, 0, ⟨?_, ?_⟩, Nat.zero_le _, fun _ h => ⟨hraw h, ?_⟩⟩
  all_goals
    rw [hheld]
    rfl

/-- Another mark is spent on itself. -/
theorem spent_other (n : ℕ) (hb : b ≠ quote) (hlength : mode.held.length = mode'.held.length + n)
    (hcount : mode.held.count quote = mode'.held.count quote) : Spent mode b [] mode' := by
  refine ⟨0, 0, n + 1, ⟨?_, ?_⟩, Nat.zero_le _, fun h => absurd h (Nat.succ_ne_zero n)⟩
  · show mode.held.length + 1 = mode'.held.length + 0 + 0 + (n + 1)
    rw [hlength]
    rfl
  · show _ = mode'.held.count quote + 0
    rw [count_of_ne b hb, hcount]

/-- A blank ends the word before it. -/
theorem spent_blank (cur : Option Bytes) (hb : b ≠ quote) :
    Spent (.plain cur) b (flush cur) (.plain none) := by
  have hbytes : wordBytes (flush cur) ++ Mode.held (.plain none) = cur.getD [] := by
    rw [wordBytes_flush]
    exact List.append_nil _
  refine ⟨1, 0, 0, ⟨?_, ?_⟩, ?_, fun _ _ => ⟨trivial, ?_⟩⟩
  · rw [hbytes]
    rfl
  · rw [hbytes, count_of_ne b hb]
    rfl
  · exact (wordCount_flush cur).trans (Nat.le_add_right 1 _)
  · rw [hbytes]
    rfl

/-- An operator ends the word before it and is a token itself. -/
theorem spent_operator (cur : Option Bytes) (hmode : mode.held = cur.getD []) (hb : b ≠ quote) :
    Spent mode b (flush cur ++ [.operator b]) (.plain none) := by
  have hbytes : wordBytes (flush cur ++ [.operator b]) ++ Mode.held (.plain none) = cur.getD [] := by
    rw [wordBytes_append, wordBytes_flush, List.append_assoc]
    exact List.append_nil _
  refine ⟨0, 0, 1, ⟨?_, ?_⟩, ?_, fun h => absurd h one_ne_zero⟩
  · rw [hbytes, hmode]
    rfl
  · rw [hbytes, hmode, count_of_ne b hb]
  · rw [wordCount_append, operatorCount_append, Nat.zero_add]
    exact (wordCount_flush cur).trans (Nat.le_add_left 1 _)

end Step

/-- A byte of a set without the quote. -/
theorem ne_quote {s : Bytes} (hs : quote ∉ s) {b : UInt8} (h : b ∈ s) : b ≠ quote := fun hb => hs (hb ▸ h)

/-- Every byte that is read is spent on something. -/
theorem read_spent (mode mode' : Mode) (b : UInt8) (ended : List Token)
    (h : mode.read b = some (ended, mode')) : Spent mode b ended mode' := by
  cases mode with
  | plain cur =>
    unfold Mode.read at h
    dsimp only at h
    split_ifs at h with hblank hoperator hcomment hquote hdouble hescape hexpand
    all_goals cases h
    · exact spent_blank b cur (ne_quote (by decide) hblank)
    · exact spent_operator _ b cur rfl (ne_quote (by decide) hoperator)
    · exact spent_other _ _ b 0 (hcomment.1 ▸ by decide) (by rw [hcomment.2]; rfl) (by rw [hcomment.2]; rfl)
    · exact hquote ▸ spent_quote _ _ rfl fun _ => trivial
    · exact spent_other _ _ b 0 (hdouble ▸ by decide) rfl rfl
    · exact spent_other _ _ b 0 (hescape ▸ by decide) rfl rfl
    · exact spent_kept _ _ b rfl fun _ => ⟨trivial, hquote⟩
  | escape cur =>
    unfold Mode.read at h
    dsimp only at h
    split_ifs at h with hnewline
    all_goals cases h
    · exact spent_other _ _ b 0 (hnewline ▸ by decide) rfl rfl
    · exact spent_kept _ _ b rfl False.elim
  | single cur =>
    unfold Mode.read at h
    dsimp only at h
    split_ifs at h with hquote
    all_goals cases h
    · exact hquote ▸ spent_quote _ _ rfl fun _ => trivial
    · exact spent_kept _ _ b rfl fun _ => ⟨trivial, hquote⟩
  | double cur =>
    unfold Mode.read at h
    dsimp only at h
    split_ifs at h with hdouble hescape hexpand
    all_goals cases h
    · exact spent_other _ _ b 0 (hdouble ▸ by decide) rfl rfl
    · exact spent_kept _ _ b (hescape ▸ rfl) False.elim
    · exact spent_kept _ _ b rfl False.elim
  | doubleEscape cur =>
    have hcount : (cur ++ [backslash]).count quote = cur.count quote := by
      rw [List.count_append, count_of_ne backslash (by decide), Nat.add_zero]
    unfold Mode.read at h
    dsimp only at h
    split_ifs at h with hnewline hescaped
    all_goals cases h
    · exact spent_other _ _ b 1 (hnewline ▸ by decide) List.length_append hcount
    · have hb : b ≠ quote := by
        rcases hescaped with h | h | h
        · exact h ▸ by decide
        · exact h ▸ by decide
        · exact ne_quote (by decide) h
      refine spent_other _ _ b 0 hb ?_ ?_
      · exact List.length_append.trans (@List.length_append _ cur [b]).symm
      · show (cur ++ [backslash]).count quote = (cur ++ [b]).count quote
        rw [hcount, List.count_append, count_of_ne b hb, Nat.add_zero]
    · exact spent_kept _ _ b (List.append_assoc cur [backslash] [b]).symm False.elim
  | comment =>
    unfold Mode.read at h
    dsimp only at h
    split_ifs at h with hnewline
    all_goals cases h
    · exact spent_operator _ b none rfl (hnewline ▸ by decide)
    · by_cases hquote : b = quote
      · exact hquote ▸ spent_quote _ _ rfl False.elim
      · exact spent_other _ _ b 0 hquote rfl rfl

/-- At the end of the text what is held is the last word. -/
theorem finish_account (mode : Mode) (ts : List Token) (h : mode.finish = some ts) :
    wordBytes ts = mode.held ∧ wordCount ts ≤ 1 ∧ operatorCount ts = 0 := by
  cases mode with
  | plain cur =>
    cases h
    refine ⟨wordBytes_flush cur, wordCount_flush cur, ?_⟩
    cases cur with
    | none => rfl
    | some w => rfl
  | comment =>
    cases h
    exact ⟨rfl, Nat.zero_le 1, rfl⟩
  | escape | single | double | doubleEscape => cases h

/-- The account of a text, from any point on. -/
theorem tokensFrom_account (mode : Mode) (text : Bytes) (ts : List Token)
    (h : tokensFrom mode text = some ts) : ∃ blanks quotes others,
    Account mode.held text (wordBytes ts) blanks quotes others ∧
      wordCount ts ≤ blanks + operatorCount ts + 1 ∧
      (others = 0 → mode.Raw → (wordBytes ts).count quote = mode.held.count quote) := by
  induction text generalizing mode ts with
  | nil =>
    obtain ⟨hbytes, hwords, hoperators⟩ := finish_account mode ts h
    rw [hbytes, hoperators]
    exact ⟨0, 0, 0, ⟨rfl, rfl⟩, hwords, fun _ _ => rfl⟩
  | cons b text ih =>
    rw [tokensFrom] at h
    cases hread : mode.read b with
    | none =>
      rw [hread] at h
      cases h
    | some next =>
      obtain ⟨ended, mode'⟩ := next
      rw [hread] at h
      obtain ⟨rest, hrest, rfl⟩ := Option.map_eq_some_iff.mp h
      obtain ⟨blanks, quotes, others, hstep, hwords, hraw⟩ := read_spent mode mode' b ended hread
      obtain ⟨blanks', quotes', others', htext, hwords', hraw'⟩ := ih mode' rest hrest
      have hlength := hstep.length
      have hlength' := htext.length
      have hcount := hstep.count
      have hcount' := htext.count
      rw [List.length_append] at hlength
      rw [List.count_append] at hcount hraw
      refine ⟨blanks + blanks', quotes + quotes', others + others', ⟨?_, ?_⟩, ?_, ?_⟩
      · rw [wordBytes_append, List.length_append, List.length_cons]
        rw [List.length_singleton] at hlength
        omega
      · rw [wordBytes_append, List.count_append, ← List.singleton_append, List.count_append]
        omega
      · rw [wordCount_append, operatorCount_append]
        omega
      · intro hothers hmode
        obtain ⟨hmode', hended⟩ := hraw (Nat.add_eq_zero_iff.mp hothers).1 hmode
        rw [wordBytes_append, List.count_append, hraw' (Nat.add_eq_zero_iff.mp hothers).2 hmode', hended]

/-- The account of a simple command. If no bytes are spent on other marks, its words have no
quotes. -/
theorem SimpleCommand.account {text : Bytes} {words : List Bytes} (h : SimpleCommand text words) :
    ∃ blanks quotes others, Account [] text words.flatten blanks quotes others ∧
      words.length ≤ blanks + 1 ∧ (others = 0 → quote ∉ words.flatten) := by
  have hbytes : wordBytes (words.map Token.word) = words.flatten := by
    rw [wordBytes, List.flatMap_map]
    exact List.flatMap_id
  have hwords : wordCount (words.map Token.word) = words.length := by
    rw [wordCount, List.countP_map]
    exact List.countP_eq_length.mpr fun _ _ => rfl
  have hoperators : operatorCount (words.map Token.word) = 0 := by
    rw [operatorCount, List.countP_map]
    exact List.countP_eq_zero.mpr fun _ _ => Bool.false_ne_true
  obtain ⟨blanks, quotes, others, haccount, hcount, hraw⟩ := tokensFrom_account _ _ _ h
  rw [hbytes] at haccount hraw
  rw [hwords, hoperators] at hcount
  exact ⟨blanks, quotes, others, haccount, hcount, fun h => List.count_eq_zero.mp (hraw h trivial)⟩

end HaikuAgent.Foundation.Shell
