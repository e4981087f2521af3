import HaikuAgent.Model.Sessions

/-!
# The shell of a session (`session.cpp`)

What the child of `spawn_shell` executes. Both programs are `/bin/sh`, so its arguments say
it all.
-/

set_option autoImplicit false

namespace HaikuAgent.Model.ShellSpawn

open HaikuAgent.Foundation

/-- `s.c_str()`, as a function that takes a C string reads it. -/
def cString (s : Bytes) : Bytes := s.takeWhile (· ≠ 0)

/-- The command that switches users.
SRC: session.cpp:166-167 -/
def runAsCommand (commands user : Bytes) : Bytes :=
  let cmd := lit "exec su - '" ++ user ++ lit "'"
  if commands ≠ [] then cmd ++ (lit " -c '" ++ commands ++ lit "'") else cmd

/-- The arguments of the `execl` of the child.
SRC: session.cpp:163-173 -/
def childArgs (commands : Bytes) (runAs : Bool) (user : Bytes) : List Bytes :=
  if runAs ∧ user ≠ [] then [lit "sh", lit "-c", cString (runAsCommand commands user)]
  else if commands ≠ [] then [lit "sh", lit "-c", cString commands]
  else [lit "-sh"]

end HaikuAgent.Model.ShellSpawn
