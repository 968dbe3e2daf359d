import DocExamples.Shell.Command

namespace DocExamples

namespace Shell

/-- The built-in commands. -/
inductive Builtin where
  /-- Writes its arguments joined by spaces, then a line break. -/
  | echo
  deriving DecidableEq, Repr

namespace Builtin

/-- The built-in command of a name. -/
def find? (name : String) : Option Builtin :=
  if name = "echo" then some .echo else none

/-- The names of all built-in commands. -/
def names : List String := ["echo"]

/-- The exit status and output of running the built-in command with `args`. -/
def run : Builtin → List String → Int × String
  | .echo, args => (0, " ".intercalate args ++ "\n")

end Builtin

namespace Command

/-- The variables a command runs with: those of its caller with its assignments over them. -/
def envFor (c : Command) (vars : Vars) : Vars :=
  vars.extend c.envs

/-- Runs the command: the exit status and output of its built-in command, or the failure when
it names none. -/
def run (c : Command) : Except ShellError (Int × String) :=
  match Builtin.find? c.name with
  | none => .error (.unknownCommand c.name)
  | some builtin => .ok (builtin.run c.args)

end Command

end Shell

end DocExamples
