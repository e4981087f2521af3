import HaikuAgent.Foundation.Lines
import HaikuAgent.Model.Patch

/-!
# The lines of a transaction

What `pkgman` prints of a transaction, as a list of lines: an update in one of the phrasings that
`parse_pkgman_transaction` knows, or noise. `recovers_updates` is the main result: the parser gives
back the updates, in their order.

The parser trims a line before it looks at how the line begins, so noise is what does not begin with
the words of an update *behind its leading blanks*; `indented_not_noise` is the line that this
leaves out.
-/

set_option autoImplicit false

namespace HaikuAgent.Analysis.TransactionLines

open HaikuAgent.Foundation
open HaikuAgent.Model
open HaikuAgent.Model.Patch

/-! ## Updates and how they are printed -/

inductive Kind where
  | upgrade
  | install
  | downgrade

def Kind.text : Kind → Bytes
  | .upgrade => lit "upgrade"
  | .install => lit "install"
  | .downgrade => lit "downgrade"

/-- What a line about an update begins with. -/
def Kind.opening (k : Kind) : Bytes := k.text ++ lit " package "

/-- A name or a version. -/
structure Word where
  bytes : Bytes
  ne_nil : bytes ≠ []
  solid : ∀ c ∈ bytes, isBlank c = false

/-- An update that a transaction makes; `source` is the version before, if there is one. -/
structure Change where
  kind : Kind
  name : Word
  source : Option Word
  target : Word
  undashed : 45 ∉ name.bytes
  apart : ¬name.bytes ++ lit "-" <+: target.bytes

/-- The update as the agent keeps it. -/
def Change.update (c : Change) : Update :=
  { kind := c.kind.text
    name := c.name.bytes
    fromVersion := (c.source.map Word.bytes).getD []
    toVersion := c.target.bytes }

/-- The name of a repository. -/
structure Repository where
  bytes : Bytes
  not_blank : ∃ c ∈ bytes, isBlank c = false
  one_line : 10 ∉ bytes

structure Phrasing where
  indent : Bytes
  blank : ∀ c ∈ indent, isBlank c = true
  unbroken : 10 ∉ indent
  saysVersion : Bool
  repeatsName : Bool
  repository : Option Repository

def Phrasing.separator (p : Phrasing) : Bytes := if p.saysVersion then lit " to version " else lit " to "

/-- The right side. -/
def Phrasing.right (p : Phrasing) (c : Change) : Bytes :=
  (if p.repeatsName then c.name.bytes ++ lit "-" else []) ++ c.target.bytes

def tailOf : Option Bytes → Bytes
  | none => []
  | some repository => lit " from repository " ++ repository

def Phrasing.tail (p : Phrasing) : Bytes := tailOf (p.repository.map Repository.bytes)

/-- What stands between the opening and the repository. -/
def Phrasing.body (p : Phrasing) (c : Change) : Bytes :=
  match c.source with
  | none => c.name.bytes ++ lit "-" ++ c.target.bytes
  | some v => c.name.bytes ++ lit "-" ++ v.bytes ++ (p.separator ++ p.right c)

def Phrasing.line (p : Phrasing) (c : Change) : Bytes := p.indent ++ (c.kind.opening ++ (p.body c ++ p.tail))

/-- A line of the output, without its end. -/
inductive Line (IsNoise : Bytes → Prop) where
  | change (c : Change) (p : Phrasing)
  | noise (text : Bytes) (one_line : 10 ∉ text) (h : IsNoise text)

section Output

variable {IsNoise : Bytes → Prop}

def Line.text : Line IsNoise → Bytes
  | .change c p => p.line c
  | .noise text _ _ => text

def Line.update : Line IsNoise → Option Update
  | .change c _ => some c.update
  | .noise _ _ _ => none

/-- A line and how it ends: with CRLF or with LF. -/
structure EndedLine (IsNoise : Bytes → Prop) where
  line : Line IsNoise
  crlf : Bool

/-- The line with the carriage return that may stand before the line feed. -/
def EndedLine.piece (l : EndedLine IsNoise) : Bytes := l.line.text ++ (if l.crlf then [13] else [])

/-- What `pkgman` prints. -/
def output (lines : List (EndedLine IsNoise)) : Bytes := lines.flatMap fun l => l.piece ++ [10]

end Output

/-- Whatever lines are printed, the parser gives back the updates among them. -/
def RecoversUpdates (IsNoise : Bytes → Prop) : Prop :=
  ∀ lines : List (EndedLine IsNoise),
    parsePkgmanTransaction (output lines) = lines.filterMap fun l => l.line.update

/-- The line does not begin like one about an update. -/
def NotOpening (text : Bytes) : Prop := ∀ k : Kind, ¬k.opening <+: text

/-- Nor does it behind its leading blanks. -/
def NotOpeningIndented (text : Bytes) : Prop := NotOpening (text.dropWhile isBlank)

/-! ## Words -/

/-- A word does not begin with a blank. -/
theorem Word.head {w : Word} (rest : Bytes) : ∀ c ∈ (w.bytes ++ rest).head?, isBlank c = false := by
  intro c hc
  rw [List.head?_append_of_ne_nil _ w.ne_nil] at hc
  exact w.solid c (List.mem_of_mem_head? hc)

/-- A word does not end with a blank. -/
theorem Word.last {w : Word} (before : Bytes) : ∀ c ∈ (before ++ w.bytes).getLast?, isBlank c = false := by
  intro c hc
  rw [List.getLast?_append_of_ne_nil _ w.ne_nil] at hc
  exact w.solid c (List.mem_of_mem_getLast? hc)

/-- A word has no blank in it. -/
theorem Word.no_space (w : Word) : 32 ∉ w.bytes := fun h => Bool.noConfusion (w.solid 32 h)

/-- A word has no line break in it. -/
theorem Word.no_line_feed (w : Word) : 10 ∉ w.bytes := fun h => Bool.noConfusion (w.solid 10 h)

/-- A word has nothing to trim. -/
theorem Word.trim_eq (w : Word) : trim w.bytes = w.bytes := by
  have hhead := w.head []
  rw [List.append_nil] at hhead
  exact strip_of_ends hhead (w.last [])

/-- A pattern with a space is not at the beginning of a word. -/
theorem not_prefix_of_space {pat s : Bytes} (hpat : 32 ∈ pat) (hs : 32 ∉ s) : ¬pat <+: s :=
  fun h => hs (h.subset hpat)

/-- Words are passed over by a search for a pattern that begins with a space. -/
theorem find_behind_word (w s pat : Bytes) (hw : 32 ∉ w) (hpat : ¬32 :: pat <+: 32 :: (w ++ s)) :
    find (32 :: (w ++ s)) (32 :: pat) 0 = (find s (32 :: pat) 0).map (· + (w.length + 1)) := by
  rw [find_cons _ _ _ hpat, find_skip w s 32 pat hw, Option.map_map]
  rfl

/-- Where two words are behind the same space, the words are the same. -/
theorem word_eq_of_front {u v s t : Bytes} (hu : 32 ∉ u) (hv : 32 ∉ v) (h : u ++ 32 :: s <+: v ++ 32 :: t) :
    u = v ∧ s <+: t := by
  induction u generalizing v with
  | nil =>
    cases v with
    | nil => exact ⟨rfl, (List.cons_prefix_cons.mp h).2⟩
    | cons d v => exact absurd (List.cons_prefix_cons.mp h).1 fun heq => hv (heq ▸ List.mem_cons_self)
  | cons c u ih =>
    cases v with
    | nil => exact absurd (List.cons_prefix_cons.mp h).1 fun heq => hu (heq ▸ List.mem_cons_self)
    | cons d v =>
      obtain ⟨hcd, hrest⟩ := List.cons_prefix_cons.mp h
      obtain ⟨huv, hst⟩ := ih (fun hc => hu (List.mem_cons_of_mem c hc)) (fun hd => hv (List.mem_cons_of_mem d hd)) hrest
      exact ⟨by rw [hcd, huv], hst⟩

/-! ## The separators -/

section Separators

variable (c : Change) (p : Phrasing)

/-- What stands left of the separator. -/
def left (c : Change) (v : Word) : Bytes := c.name.bytes ++ lit "-" ++ v.bytes

/-- The left side of a line is one word. -/
theorem left_no_space (v : Word) : 32 ∉ left c v := by
  have hdash : (32 : UInt8) ∉ lit "-" := by decide
  unfold left
  simp only [List.mem_append, not_or]
  exact ⟨⟨c.name.no_space, hdash⟩, v.no_space⟩

/-- The right side of a line is one word. -/
theorem right_no_space : 32 ∉ p.right c := by
  have hdash : (32 : UInt8) ∉ lit "-" := by decide
  unfold Phrasing.right
  cases p.repeatsName with
  | false =>
    rw [if_neg Bool.false_ne_true, List.nil_append]
    exact c.target.no_space
  | true =>
    rw [if_pos rfl]
    simp only [List.mem_append, not_or]
    exact ⟨⟨c.name.no_space, hdash⟩, c.target.no_space⟩

/-- The words before a repository, taken apart. -/
theorem fromRepository_eq : lit " from repository " = 32 :: (lit "from" ++ 32 :: lit "repository ") := rfl

/-- The words before a version, taken apart. -/
theorem toVersion_eq : lit " to version " = 32 :: (lit "to" ++ 32 :: lit "version ") := rfl

/-- The word between two versions, taken apart. -/
theorem to_eq : lit " to " = 32 :: (lit "to" ++ 32 :: []) := rfl

/-- The repository is not looked for inside a word. -/
theorem not_fromRepository (w : Bytes) (r : Option Bytes) (hw : 32 ∉ w) :
    ¬lit " from repository " <+: 32 :: (w ++ tailOf r) := by
  have hfrom : (32 : UInt8) ∉ lit "from" := by decide
  intro h
  rw [fromRepository_eq] at h
  have hrest := (List.cons_prefix_cons.mp h).2
  cases r with
  | none =>
    rw [tailOf, List.append_nil] at hrest
    exact not_prefix_of_space (List.mem_append_right _ List.mem_cons_self) hw hrest
  | some r =>
    obtain ⟨-, hbehind⟩ := word_eq_of_front hfrom hw hrest
    have hletter := (List.cons_prefix_cons.mp hbehind).1
    exact absurd hletter (by decide)

/-- What follows the change begins with its repository, if one is shown. -/
theorem find_tail (r : Option Bytes) : find (tailOf r) (lit " from repository ") 0 = r.map fun _ => 0 := by
  cases r with
  | none => rfl
  | some r => exact find_zero _ _ (List.prefix_append _ _)

/-- The body of a line about a new package. -/
theorem body_fresh (h : c.source = none) : p.body c = left c c.target := by
  unfold Phrasing.body left
  rw [h]

/-- The body of a line about a package that was there. -/
theorem body_separated {v : Word} (h : c.source = some v) : p.body c = left c v ++ (p.separator ++ p.right c) := by
  unfold Phrasing.body left
  rw [h]

/-- The separator, taken apart. -/
theorem separator_eq :
    p.separator = 32 :: (lit "to" ++ 32 :: (if p.saysVersion then lit "version" ++ 32 :: [] else [])) := by
  unfold Phrasing.separator
  cases p.saysVersion with
  | false => rfl
  | true => rfl

/-- The repository is found where the tail begins. -/
theorem find_repository (r : Option Bytes) :
    find (p.body c ++ tailOf r) (lit " from repository ") 0 = r.map fun _ => (p.body c).length := by
  have hto : (32 : UInt8) ∉ lit "to" := by decide
  have hversion : (32 : UInt8) ∉ lit "version" := by decide
  have ht : (102 : UInt8) ≠ 116 := by decide
  have hv : (102 : UInt8) ≠ 118 := by decide
  -- a last word, and what the tail says
  have hlast (w : Bytes) (hw : 32 ∉ w) :
      find (32 :: (w ++ tailOf r)) (lit " from repository ") 0 = r.map fun _ => w.length + 1 := by
    have hhere := not_fromRepository w r hw
    rw [fromRepository_eq] at hhere ⊢
    rw [find_behind_word w _ _ hw hhere, ← fromRepository_eq, find_tail, Option.map_map]
    simp only [Function.comp_def, Nat.zero_add]
  -- another word is not the one that the repository is behind
  have hword (w s : Bytes) {d : UInt8} {more : Bytes} (hform : w = d :: more) (hletter : 102 ≠ d) (hw : 32 ∉ w) :
      find (32 :: (w ++ s)) (lit " from repository ") 0 =
        (find s (lit " from repository ") 0).map (· + (w.length + 1)) := by
    apply find_behind_word w s _ hw
    intro h
    rw [hform] at h
    exact hletter (List.cons_prefix_cons.mp (List.cons_prefix_cons.mp h).2).1
  cases hsource : c.source with
  | none =>
    rw [body_fresh c p hsource, fromRepository_eq, find_skip _ _ 32 _ (left_no_space c c.target),
      ← fromRepository_eq, find_tail, Option.map_map]
    simp only [Function.comp_def, Nat.zero_add]
  | some v =>
    have hright := hlast (p.right c) (right_no_space c p)
    rw [body_separated c p hsource, List.append_assoc, fromRepository_eq,
      find_skip _ _ 32 _ (left_no_space c v), ← fromRepository_eq, separator_eq]
    cases p.saysVersion with
    | false =>
      simp only [Bool.false_eq_true, if_false, List.cons_append, List.append_assoc, List.nil_append]
      rw [hword (lit "to") _ rfl ht hto, hright]
      simp only [Option.map_map, Function.comp_def, List.length_append, List.length_cons]
      congr 1
      funext _
      omega
    | true =>
      simp only [if_true, List.cons_append, List.append_assoc, List.nil_append]
      rw [hword (lit "to") _ rfl ht hto, hword (lit "version") _ rfl hv hversion, hright]
      simp only [Option.map_map, Function.comp_def, List.length_append, List.length_cons]
      congr 1
      funext _
      omega

/-- A pattern of more words than one is not found in one word, nor behind it. -/
theorem find_no_space {w : Bytes} (pat : Bytes) (hw : 32 ∉ w) : find w (32 :: pat) 0 = none := by
  have h := find_skip w [] 32 pat hw
  rw [List.append_nil] at h
  rw [h]
  rfl

/-- A pattern of several words does not stand in the last one. -/
theorem find_last_word {w : Bytes} (pat : Bytes) (hpat : 32 ∈ pat) (hw : 32 ∉ w) :
    find (32 :: w) (32 :: pat) 0 = none := by
  have hhere : ¬32 :: pat <+: 32 :: w := fun h => not_prefix_of_space hpat hw (List.cons_prefix_cons.mp h).2
  rw [find_cons _ _ _ hhere, find_no_space pat hw]
  rfl

/-- A new package has no version it comes from. -/
theorem find_toVersion_fresh (h : c.source = none) : find (p.body c) (lit " to version ") 0 = none := by
  rw [body_fresh c p h, toVersion_eq]
  exact find_no_space _ (left_no_space c c.target)

/-- A new package has nothing it changes to. -/
theorem find_to_fresh (h : c.source = none) : find (p.body c) (lit " to ") 0 = none := by
  rw [body_fresh c p h, to_eq]
  exact find_no_space _ (left_no_space c c.target)

/-- A change of version is found after the left side. -/
theorem find_to {v : Word} (h : c.source = some v) : find (p.body c) (lit " to ") 0 = some (left c v).length := by
  have hhere : lit " to " <+: p.separator ++ p.right c := by
    rw [separator_eq, to_eq, List.cons_append, List.append_assoc, List.cons_append]
    exact List.cons_prefix_cons.mpr ⟨rfl, (List.prefix_append_right_inj _).mpr
      (List.cons_prefix_cons.mpr ⟨rfl, List.nil_prefix⟩)⟩
  rw [body_separated c p h, to_eq, find_skip _ _ 32 _ (left_no_space c v), ← to_eq, find_zero _ _ hhere]
  simp only [Option.map_some, Nat.zero_add]

/-- The longer separator is found where it is used. -/
theorem find_toVersion {v : Word} (h : c.source = some v) :
    find (p.body c) (lit " to version ") 0 = if p.saysVersion then some (left c v).length else none := by
  rw [body_separated c p h, toVersion_eq, find_skip _ _ 32 _ (left_no_space c v), ← toVersion_eq]
  cases hversion : p.saysVersion with
  | true =>
    have hhere : lit " to version " <+: p.separator ++ p.right c := by
      unfold Phrasing.separator
      rw [hversion]
      exact List.prefix_append _ _
    rw [find_zero _ _ hhere]
    simp only [Option.map_some, Nat.zero_add, if_true]
  | false =>
    have hto : (32 : UInt8) ∉ lit "to" := by decide
    have hspace : (32 : UInt8) ∈ lit "to" ++ 32 :: lit "version " := List.mem_append_right _ List.mem_cons_self
    have hright := right_no_space c p
    have hhere : ¬32 :: (lit "to" ++ 32 :: lit "version ") <+: 32 :: (lit "to" ++ 32 :: p.right c) := by
      intro hprefix
      have hbehind := (word_eq_of_front hto hto (List.cons_prefix_cons.mp hprefix).2).2
      exact not_prefix_of_space (by decide) hright hbehind
    have hseparator : p.separator ++ p.right c = 32 :: (lit "to" ++ 32 :: p.right c) := by
      unfold Phrasing.separator
      rw [hversion]
      rfl
    rw [hseparator, toVersion_eq, find_behind_word (lit "to") _ _ hto hhere, find_last_word _ hspace hright]
    rfl

end Separators

/-! ## One line -/

/-- Blanks around a line are trimmed. -/
theorem trim_surrounded {indent ending : Bytes} (s : Bytes) (hindent : ∀ c ∈ indent, isBlank c = true)
    (hending : ∀ c ∈ ending, isBlank c = true) (hhead : ∀ c ∈ s.head?, isBlank c = false)
    (hlast : ∀ c ∈ s.getLast?, isBlank c = false) : trim (indent ++ (s ++ ending)) = s :=
  (strip_surrounded s hindent hending).trans (strip_of_ends hhead hlast)

/-- The kind of a line is told by its opening. -/
theorem find_kind (k : Kind) (rest : Bytes) :
    [lit "upgrade", lit "install", lit "downgrade"].find?
      (fun word => startsWith (k.opening ++ rest) (word ++ lit " package ")) = some k.text := by
  cases k with
  | upgrade => rfl
  | install => rfl
  | downgrade => rfl

section OneLine

variable (c : Change) (p : Phrasing)

/-- A body begins with the package's name. -/
theorem body_begins : ∃ rest, p.body c = c.name.bytes ++ rest := by
  unfold Phrasing.body
  cases c.source with
  | none => exact ⟨_, List.append_assoc _ _ _⟩
  | some v =>
    refine ⟨lit "-" ++ v.bytes ++ (p.separator ++ p.right c), ?_⟩
    simp only [List.append_assoc]

/-- A body ends with the new version. -/
theorem body_ends : ∃ before, p.body c = before ++ c.target.bytes := by
  unfold Phrasing.body
  cases c.source with
  | none => exact ⟨_, rfl⟩
  | some v =>
    unfold Phrasing.right
    refine ⟨c.name.bytes ++ lit "-" ++ v.bytes ++
      (p.separator ++ (if p.repeatsName then c.name.bytes ++ lit "-" else [])), ?_⟩
    simp only [List.append_assoc]

/-- A body has nothing to trim. -/
theorem trim_body : trim (p.body c) = p.body c := by
  apply strip_of_ends
  · obtain ⟨rest, hbody⟩ := body_begins c p
    rw [hbody]
    exact c.name.head rest
  · obtain ⟨before, hbody⟩ := body_ends c p
    rw [hbody]
    exact c.target.last before

/-- An opening does not begin with a blank. -/
theorem opening_head (k : Kind) (rest : Bytes) : ∀ c ∈ (k.opening ++ rest).head?, isBlank c = false := by
  intro c hc
  cases k with
  | upgrade =>
    cases hc
    rfl
  | install =>
    cases hc
    rfl
  | downgrade =>
    cases hc
    rfl

/-- The name of a repository without the blanks at its end. -/
def Repository.shown (r : Repository) : Bytes := r.bytes.rdropWhile isBlank

/-- A shown repository does not end with a blank. -/
theorem Repository.last (r : Repository) (before : Bytes) :
    ∀ c ∈ (before ++ r.shown).getLast?, isBlank c = false := by
  obtain ⟨d, hd, hsolid⟩ := r.not_blank
  have hne : r.shown ≠ [] := by
    intro hnil
    have hblank := List.rdropWhile_eq_nil_iff.mp hnil d hd
    rw [hsolid] at hblank
    exact Bool.false_ne_true hblank
  intro c hc
  rw [List.getLast?_append_of_ne_nil _ hne, List.getLast?_eq_some_getLast hne] at hc
  have hend := List.rdropWhile_last_not isBlank r.bytes hne
  rw [← Option.mem_some_iff.mp hc]
  exact Bool.not_eq_true _ ▸ hend

/-- A line without its indent and its ending. -/
theorem trim_line (ending : Bytes) (hending : ∀ c ∈ ending, isBlank c = true) :
    trim (p.line c ++ ending) = c.kind.opening ++ (p.body c ++ tailOf (p.repository.map Repository.shown)) := by
  unfold Phrasing.line Phrasing.tail
  cases p.repository with
  | none =>
    obtain ⟨before, hbody⟩ := body_ends c p
    rw [Option.map_none, Option.map_none, tailOf, List.append_nil, List.append_assoc]
    apply trim_surrounded _ p.blank hending (opening_head _ _)
    rw [hbody, ← List.append_assoc]
    exact c.target.last _
  | some r =>
    have hshown : r.bytes = r.shown ++ r.bytes.rtakeWhile isBlank :=
      List.rdropWhile_append_rtakeWhile.symm
    have hblank : ∀ d ∈ r.bytes.rtakeWhile isBlank ++ ending, isBlank d = true := by
      intro d hd
      obtain hd | hd := List.mem_append.mp hd
      · exact List.mem_rtakeWhile_imp hd
      · exact hending d hd
    have hline : p.indent ++ (c.kind.opening ++ (p.body c ++ (lit " from repository " ++ r.bytes))) ++ ending =
        p.indent ++ (c.kind.opening ++ (p.body c ++ (lit " from repository " ++ r.shown)) ++
          (r.bytes.rtakeWhile isBlank ++ ending)) := by
      conv_lhs => rw [hshown]
      simp only [List.append_assoc]
    rw [Option.map_some, Option.map_some, tailOf, tailOf, hline]
    apply trim_surrounded _ p.blank hblank (opening_head _ _)
    rw [← List.append_assoc, ← List.append_assoc]
    exact r.last _

/-- The left side is split into the name and the version. -/
theorem splitNameVersion_left (v : Word) : splitNameVersion (left c v) = (c.name.bytes, v.bytes) := by
  have hdash : find (left c v) (lit "-") 0 = some c.name.bytes.length := by
    have hlit : lit "-" = [45] := rfl
    unfold left
    rw [hlit, List.append_assoc, find_skip _ _ 45 [] c.undashed, find_zero _ _ (List.prefix_append _ _)]
    simp only [Option.map_some, Nat.zero_add]
  unfold splitNameVersion
  rw [hdash]
  dsimp only
  congr 1
  · unfold left
    rw [List.append_assoc, List.take_left]
  · have hlength : c.name.bytes.length + 1 = (c.name.bytes ++ lit "-").length := by
      rw [List.length_append]
      rfl
    unfold left
    rw [hlength, List.drop_left]

/-- The left side has nothing to trim. -/
theorem trim_left (v : Word) : trim (left c v) = left c v := by
  unfold left
  apply strip_of_ends
  · rw [List.append_assoc]
    exact c.name.head _
  · exact v.last _

/-- The repeated name is taken off. -/
theorem target_of_right :
    (if startsWith (trim (p.right c)) (c.name.bytes ++ lit "-") then (trim (p.right c)).drop (c.name.bytes.length + 1)
      else trim (p.right c)) = c.target.bytes := by
  unfold Phrasing.right
  cases p.repeatsName with
  | false =>
    have happart : startsWith c.target.bytes (c.name.bytes ++ lit "-") = false :=
      Bool.eq_false_iff.mpr fun h => c.apart (List.isPrefixOf_iff_prefix.mp h)
    rw [if_neg Bool.false_ne_true, List.nil_append, c.target.trim_eq, happart]
    rfl
  | true =>
    have htrim : trim (left c c.target) = c.name.bytes ++ lit "-" ++ c.target.bytes := trim_left c c.target
    have hlength : c.name.bytes.length + 1 = (c.name.bytes ++ lit "-").length := by
      rw [List.length_append]
      rfl
    have hbegins : startsWith (c.name.bytes ++ lit "-" ++ c.target.bytes) (c.name.bytes ++ lit "-") = true :=
      List.isPrefixOf_iff_prefix.mpr (List.prefix_append _ _)
    unfold left at htrim
    rw [if_pos rfl, htrim, if_pos hbegins, hlength, List.drop_left]

/-- What follows an opening. -/
theorem drop_opening (k : Kind) (rest : Bytes) :
    (k.opening ++ rest).drop (k.text ++ lit " package ").length = rest := List.drop_left

/-- The repository makes no difference. -/
theorem parse_repository (r : Bytes) :
    parseTransactionLine (c.kind.opening ++ (p.body c ++ tailOf (some r))) =
      parseTransactionLine (c.kind.opening ++ p.body c) := by
  have hnone := find_repository c p none
  rw [tailOf, List.append_nil] at hnone
  unfold parseTransactionLine
  rw [find_kind, find_kind]
  simp only [drop_opening, find_repository c p (some r), hnone, Option.map_some, Option.map_none, List.take_left]

/-- An update is read from its line. -/
theorem parse_body : parseTransactionLine (c.kind.opening ++ p.body c) = some c.update := by
  have hname := c.name.ne_nil
  have hnone := find_repository c p none
  rw [tailOf, List.append_nil] at hnone
  unfold parseTransactionLine
  rw [find_kind]
  simp only [drop_opening, hnone, Option.map_none, trim_body]
  cases hsource : c.source with
  | none =>
    rw [find_toVersion_fresh c p hsource, find_to_fresh c p hsource, body_fresh c p hsource]
    simp only [Option.map_none, splitNameVersion_left, Change.update, hsource, if_neg hname, Option.getD_none]
  | some v =>
    rw [find_toVersion c p hsource, find_to c p hsource, body_separated c p hsource]
    have hright := target_of_right c p
    have hleft : (left c v ++ (p.separator ++ p.right c)).take (left c v).length = left c v := List.take_left
    have hbehind (n : ℕ) : (left c v ++ (p.separator ++ p.right c)).drop ((left c v).length + n) =
        (p.separator ++ p.right c).drop n := List.drop_length_add_append n
    cases hversion : p.saysVersion with
    | false =>
      have hseparator : (p.separator ++ p.right c).drop 4 = p.right c := by
        unfold Phrasing.separator
        rw [hversion]
        rfl
      simp only [Bool.false_eq_true, if_false, Option.map_some, hleft, hbehind, hseparator, hright, trim_left,
        splitNameVersion_left, Change.update, hsource, if_neg hname, Option.getD_some]
    | true =>
      have hseparator : (p.separator ++ p.right c).drop 12 = p.right c := by
        unfold Phrasing.separator
        rw [hversion]
        rfl
      simp only [if_true, hleft, hbehind, hseparator, hright, trim_left,
        splitNameVersion_left, Change.update, hsource, if_neg hname, Option.map_some, Option.getD_some]

/-- A line about a change is parsed as the update it is about. -/
theorem parse_change (r : Option Bytes) :
    parseTransactionLine (c.kind.opening ++ (p.body c ++ tailOf r)) = some c.update := by
  cases r with
  | none =>
    rw [tailOf, List.append_nil]
    exact parse_body c p
  | some r => exact (parse_repository c p r).trans (parse_body c p)

end OneLine

/-- A line about something else is parsed as no update. -/
theorem parse_noise {text ending : Bytes} (h : NotOpeningIndented text) (hending : ∀ c ∈ ending, isBlank c = true) :
    parseTransactionLine (trim (text ++ ending)) = none := by
  have hnone : [lit "upgrade", lit "install", lit "downgrade"].find?
      (fun word => startsWith (trim text) (word ++ lit " package ")) = none := by
    rw [List.find?_eq_none]
    intro word hword hstarts
    have hprefix : word ++ lit " package " <+: text.dropWhile isBlank :=
      (List.isPrefixOf_iff_prefix.mp hstarts).trans (strip_prefix_dropWhile text)
    simp only [List.mem_cons, List.not_mem_nil, or_false] at hword
    obtain rfl | rfl | rfl := hword
    · exact h .upgrade hprefix
    · exact h .install hprefix
    · exact h .downgrade hprefix
  have htrim : trim (text ++ ending) = trim text := strip_append_of_pos hending
  unfold parseTransactionLine
  rw [htrim, hnone]

/-! ## The output -/

/-- An ended line is parsed as what it is about. -/
theorem parse_piece (l : EndedLine NotOpeningIndented) : parseTransactionLine (trim l.piece) = l.line.update := by
  have hending : ∀ c ∈ (if l.crlf then [13] else [] : Bytes), isBlank c = true := by
    intro c hc
    cases hcrlf : l.crlf with
    | false =>
      rw [hcrlf, if_neg Bool.false_ne_true] at hc
      cases hc
    | true =>
      rw [hcrlf, if_pos rfl, List.mem_singleton] at hc
      rw [hc]
      rfl
  unfold EndedLine.piece
  cases l.line with
  | change c p =>
    rw [Line.text, trim_line c p _ hending]
    exact parse_change c p _
  | noise text one_line h => exact parse_noise h hending

/-- A body has no line break in it. -/
theorem body_unbroken (c : Change) (p : Phrasing) : 10 ∉ p.body c := by
  have hdash : (10 : UInt8) ∉ lit "-" := by decide
  have hseparator : (10 : UInt8) ∉ p.separator := by
    unfold Phrasing.separator
    cases p.saysVersion with
    | false => decide
    | true => decide
  have hright : 10 ∉ p.right c := by
    unfold Phrasing.right
    cases p.repeatsName with
    | false =>
      rw [if_neg Bool.false_ne_true, List.nil_append]
      exact c.target.no_line_feed
    | true =>
      rw [if_pos rfl]
      simp only [List.mem_append, not_or]
      exact ⟨⟨c.name.no_line_feed, hdash⟩, c.target.no_line_feed⟩
  unfold Phrasing.body
  cases c.source with
  | none =>
    simp only [List.mem_append, not_or]
    exact ⟨⟨c.name.no_line_feed, hdash⟩, c.target.no_line_feed⟩
  | some v =>
    simp only [List.mem_append, not_or]
    exact ⟨⟨⟨c.name.no_line_feed, hdash⟩, v.no_line_feed⟩, hseparator, hright⟩

/-- An ended line has no line break before its end. -/
theorem piece_unbroken {IsNoise : Bytes → Prop} (l : EndedLine IsNoise) : 10 ∉ l.piece := by
  have hending : (10 : UInt8) ∉ (if l.crlf then [13] else [] : Bytes) := by
    cases l.crlf with
    | false => decide
    | true => decide
  have htext : 10 ∉ l.line.text := by
    cases l.line with
    | change c p =>
      have hopening : (10 : UInt8) ∉ c.kind.opening := by
        cases c.kind with
        | upgrade => decide
        | install => decide
        | downgrade => decide
      have htail : 10 ∉ p.tail := by
        unfold Phrasing.tail
        cases p.repository with
        | none => exact List.not_mem_nil
        | some r => exact List.not_mem_append (by decide) r.one_line
      exact List.not_mem_append p.unbroken (List.not_mem_append hopening (List.not_mem_append (body_unbroken c p) htail))
    | noise text one_line h => exact one_line
  exact List.not_mem_append htext hending

/-- **The parser gives back every update**, in order, whatever its phrasing and the noise around it.
SRC: patch.cpp:69-122 -/
theorem recovers_updates : RecoversUpdates NotOpeningIndented := by
  intro lines
  have hpieces : split (output lines) 10 = lines.map EndedLine.piece ++ [[]] :=
    splitOn_flatMap 10 EndedLine.piece lines fun l _ => piece_unbroken l
  have hlast : parseTransactionLine (trim []) = none := rfl
  unfold parsePkgmanTransaction
  rw [hpieces, List.filterMap_append, List.filterMap_map]
  simp only [List.filterMap_cons, List.filterMap_nil, hlast, List.append_nil]
  congr 1
  funext l
  exact parse_piece l

/-- An indented line about an update does not begin like one. -/
theorem indented_not_noise : ¬RecoversUpdates NotOpening := by
  have hopening : NotOpening (lit "  install package x-1") := by
    intro k h
    cases k with
    | upgrade => exact absurd h (by decide)
    | install => exact absurd h (by decide)
    | downgrade => exact absurd h (by decide)
  intro h
  have hnone := h [⟨.noise (lit "  install package x-1") (by decide) hopening, false⟩]
  have hread : parsePkgmanTransaction (lit "  install package x-1\n") = [⟨lit "install", lit "x", [], lit "1"⟩] := by
    decide
  exact absurd (hread.symm.trans hnone) (List.cons_ne_nil _ _)

end HaikuAgent.Analysis.TransactionLines
