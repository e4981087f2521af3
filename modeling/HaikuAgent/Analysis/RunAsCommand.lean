import HaikuAgent.Foundation.ShellQuoting
import HaikuAgent.Model.ShellSpawn

/-!
# The command of a run-as session

What the root shell reads of the command that switches users: the words that are meant, if
there is no single quote in the user and the commands, and never otherwise.
-/

set_option autoImplicit false

namespace HaikuAgent.Analysis.RunAsCommand

open HaikuAgent.Foundation
open HaikuAgent.Foundation.Shell
open HaikuAgent.Model.ShellSpawn

/-- The words that are meant. -/
def runAsWords (commands user : Bytes) : List Bytes :=
  [lit "exec", lit "su", lit "-", user] ++ if commands = [] then [] else [lit "-c", commands]

/-- The child executes a shell that reads those words and nothing else. -/
def ReachesUser (commands user : Bytes) : Prop :=
  ∃ cmd, childArgs commands true user = [lit "sh", lit "-c", cmd] ∧
    SimpleCommand cmd (runAsWords commands user)

/-- A text without a zero byte is a C string as it is. -/
theorem cString_of_notMem (s : Bytes) (h : (0 : UInt8) ∉ s) : cString s = s := by
  refine List.takeWhile_eq_self_iff.mpr fun b hb => decide_eq_true ?_
  exact fun h0 => h (h0 ▸ hb)

/-- The built command has no zero byte when its parts have none. -/
theorem zero_notMem_runAsCommand (commands user : Bytes) (hcommands : (0 : UInt8) ∉ commands)
    (huser : (0 : UInt8) ∉ user) : (0 : UInt8) ∉ runAsCommand commands user := by
  have hexec : (0 : UInt8) ∉ lit "exec su - '" := by decide
  have hflag : (0 : UInt8) ∉ lit " -c '" := by decide
  have hquote : (0 : UInt8) ∉ lit "'" := by decide
  unfold runAsCommand
  dsimp only
  split_ifs
  all_goals simp only [List.mem_append, not_or]
  · exact ⟨⟨⟨hexec, huser⟩, hquote⟩, ⟨hflag, hcommands⟩, hquote⟩
  · exact ⟨⟨hexec, huser⟩, hquote⟩

/-- For texts without a zero byte, reaching the user is being the simple command that was meant. -/
theorem reachesUser_iff_simpleCommand (commands user : Bytes) (hne : user ≠ [])
    (hcommands : (0 : UInt8) ∉ commands) (huser : (0 : UInt8) ∉ user) :
    ReachesUser commands user ↔ SimpleCommand (runAsCommand commands user) (runAsWords commands user) := by
  have hargs : childArgs commands true user = [lit "sh", lit "-c", runAsCommand commands user] := by
    unfold childArgs
    rw [if_pos ⟨rfl, hne⟩, cString_of_notMem _ (zero_notMem_runAsCommand _ _ hcommands huser)]
  unfold ReachesUser
  rw [hargs]
  constructor
  · rintro ⟨cmd, hcmd, h⟩
    cases hcmd
    exact h
  · exact fun h => ⟨_, rfl, h⟩

/-! ## Without quotes -/

/-- Without a quote in it, the built line is the simple command that was meant. -/
theorem simpleCommand_of_notMem (commands user : Bytes) (hcommands : quote ∉ commands)
    (huser : quote ∉ user) : SimpleCommand (runAsCommand commands user) (runAsWords commands user) := by
  have hexec : Mode.scan (.plain none) (lit "exec su - '") =
    some ([.word (lit "exec"), .word (lit "su"), .word (lit "-")], .single []) := by decide
  have hflag : Mode.scan (.plain (some user)) (lit " -c '") =
    some ([.word user, .word (lit "-c")], .single []) := rfl
  unfold SimpleCommand tokens runAsCommand runAsWords
  dsimp only
  by_cases h : commands = []
  · rw [if_neg (not_not.mpr h), if_pos h, List.append_assoc, tokensFrom_append _ _ _ _ _ hexec,
      tokensFrom_quoted_last user huser]
    rfl
  · rw [if_pos h, if_neg h, List.append_assoc, List.append_assoc, tokensFrom_append _ _ _ _ _ hexec,
      ← List.append_assoc, tokensFrom_quoted user _ huser, List.append_assoc,
      tokensFrom_append _ _ _ _ _ hflag, tokensFrom_quoted_last commands hcommands]
    rfl

/-! ## With quotes -/

/-- The bytes of the text that are not in the words. -/
theorem length_runAsCommand (commands user : Bytes) :
    (runAsCommand commands user).length =
      (runAsWords commands user).flatten.length + 5 + (if commands = [] then 0 else 4) := by
  have hexec : (lit "exec su - '").length = 11 := by decide
  have hflag : (lit " -c '").length = 5 := by decide
  have hquote : (lit "'").length = 1 := by decide
  have hwords : (lit "exec").length = 4 ∧ (lit "su").length = 2 ∧ (lit "-").length = 1 ∧
    (lit "-c").length = 2 := by decide
  unfold runAsCommand runAsWords
  dsimp only
  by_cases h : commands = []
  · rw [if_neg (not_not.mpr h), if_pos h, if_pos h]
    simp only [List.length_append, List.append_nil, List.flatten_cons, List.flatten_nil]
    omega
  · rw [if_pos h, if_neg h, if_neg h]
    simp only [List.length_append, List.cons_append, List.nil_append, List.flatten_cons, List.flatten_nil,
      List.length_nil]
    omega

/-- The quotes of the text that are not in the words. -/
theorem count_runAsCommand (commands user : Bytes) :
    (runAsCommand commands user).count quote =
      (runAsWords commands user).flatten.count quote + 2 + (if commands = [] then 0 else 2) := by
  have hmarks : (lit "exec su - '").count quote = 1 ∧ (lit " -c '").count quote = 1 ∧
    (lit "'").count quote = 1 := by decide
  have hwords : (lit "exec").count quote = 0 ∧ (lit "su").count quote = 0 ∧ (lit "-").count quote = 0 ∧
    (lit "-c").count quote = 0 := by decide
  unfold runAsCommand runAsWords
  dsimp only
  by_cases h : commands = []
  · rw [if_neg (not_not.mpr h), if_pos h, if_pos h]
    simp only [List.count_append, List.append_nil, List.flatten_cons, List.flatten_nil]
    omega
  · rw [if_pos h, if_neg h, if_neg h]
    simp only [List.count_append, List.cons_append, List.nil_append, List.flatten_cons, List.flatten_nil,
      List.count_nil]
    omega

/-- The number of words of the command that was meant. -/
theorem length_words (commands user : Bytes) :
    (runAsWords commands user).length = 4 + (if commands = [] then 0 else 2) := by
  unfold runAsWords
  split_ifs <;> rfl

/-- The text has no bytes to spare: a quote in the words would need a mark of its own. -/
theorem notMem_of_simpleCommand (commands user : Bytes)
    (h : SimpleCommand (runAsCommand commands user) (runAsWords commands user)) :
    quote ∉ commands ∧ quote ∉ user := by
  obtain ⟨blanks, quotes, others, haccount, hwords, hraw⟩ := h.account
  have hothers : others = 0 := by
    have hlength := haccount.length
    have hcount := haccount.count
    rw [List.length_nil, length_runAsCommand] at hlength
    rw [List.count_nil, count_runAsCommand] at hcount
    rw [length_words] at hwords
    by_cases hcommands : commands = []
    · rw [if_pos hcommands] at hlength hcount hwords
      omega
    · rw [if_neg hcommands] at hlength hcount hwords
      omega
  have hquote := hraw hothers
  constructor
  · intro hmem
    have hcommands : commands ≠ [] := List.ne_nil_of_mem hmem
    apply hquote
    unfold runAsWords
    rw [if_neg hcommands]
    exact List.mem_flatten_of_mem (l := commands) (by simp) hmem
  · intro hmem
    apply hquote
    exact List.mem_flatten_of_mem (l := user) (by unfold runAsWords; simp) hmem

/-- Exactly when a run-as session reaches its user: neither the user nor the commands have a
single quote. -/
theorem reachesUser_iff (commands user : Bytes) (hne : user ≠ []) (hcommands : (0 : UInt8) ∉ commands)
    (huser : (0 : UInt8) ∉ user) : ReachesUser commands user ↔ quote ∉ commands ∧ quote ∉ user := by
  rw [reachesUser_iff_simpleCommand commands user hne hcommands huser]
  exact ⟨notMem_of_simpleCommand commands user, fun h => simpleCommand_of_notMem commands user h.1 h.2⟩

/-- The theorem at a command without a quote. -/
theorem echo_reachesUser :
    ReachesUser (lit "echo hi") (lit "ssm-user") ↔
      quote ∉ lit "echo hi" ∧ quote ∉ lit "ssm-user" :=
  reachesUser_iff (lit "echo hi") (lit "ssm-user") (by decide) (by decide) (by decide)

/-- Commands that quote a word of their own: the user's shell gets `echo hi`. -/
theorem quoted_commands_lost :
    ¬ReachesUser (lit "echo 'hi there'") (lit "ssm-user") ∧
      SimpleCommand (runAsCommand (lit "echo 'hi there'") (lit "ssm-user"))
        [lit "exec", lit "su", lit "-", lit "ssm-user", lit "-c", lit "echo hi", lit "there"] := by
  constructor
  · rw [reachesUser_iff_simpleCommand _ _ (by decide) (by decide) (by decide)]
    intro h
    exact (notMem_of_simpleCommand _ _ h).1 (by decide)
  · decide

end HaikuAgent.Analysis.RunAsCommand
