import DocExamples.Dict
import DocExamples.Shell.Assignment

namespace DocExamples

namespace Shell

/-- Shell variables, sorted by name. -/
abbrev Vars := Dict String

/-- The variables as `NAME=VALUE` separated by spaces, each value quoted as needed. -/
def Vars.display (vars : Vars) : String :=
  " ".intercalate (vars.toList.map fun (name, value) => name ++ "=" ++ quote value)

/-- A simple command. -/
structure Command where
  name : String
  envs : Vars
  args : List String
  deriving DecidableEq, Repr

namespace Command

/-- The name as written: double-quoted when it holds `=`, which would otherwise read as an
assignment, and quoted as needed otherwise. -/
def nameText (c : Command) : String :=
  if c.name.toList.contains '=' then doubleQuote c.name else quote c.name

/-- The assignments as written before the name, followed by a space when there are any. -/
def envsText (c : Command) : String :=
  if c.envs.isEmpty then "" else c.envs.display ++ " "

/-- The arguments as written after the name, each quoted as needed after a space. -/
def argsText (c : Command) : String :=
  String.join (c.args.map fun arg => " " ++ quote arg)

/-- The command as it would be written: its assignments, its name and its arguments. -/
def display (c : Command) : String :=
  c.envsText ++ c.nameText ++ c.argsText

end Command

/-- The assignments from `cursor` on, each followed by blanks, added to `envs`. -/
def envsFrom (cursor : Cursor) (envs : Vars) : Except SyntaxError (Vars × Cursor) :=
  match assignment cursor with
  | .error e => .error e
  | .noMatch => .ok (envs, cursor)
  | .matched (name, value) next =>
    let next := next.skipBlanks
    if next.remaining < cursor.remaining then envsFrom next (envs.insert name value)
    else .ok (envs.insert name value, next)
termination_by cursor.remaining

/-- The arguments from `cursor` on, each after at least one blank, read by `parseArg`, which
threads a state. The list ends before blanks that no argument follows. -/
def argsFrom {σ : Type} (parseArg : σ → Cursor → Scan String × σ) (state : σ) (cursor : Cursor)
    (args : List String) : Except SyntaxError (List String × Cursor) × σ :=
  let next := cursor.skipBlanks
  if next.offset = cursor.offset then (.ok (args, cursor), state)
  else
    match parseArg state next with
    | (.error e, state) => (.error e, state)
    | (.noMatch, state) => (.ok (args, cursor), state)
    | (.matched arg after, state) =>
      if after.remaining < cursor.remaining then argsFrom parseArg state after (args ++ [arg])
      else (.ok (args ++ [arg], after), state)
termination_by cursor.remaining

/-- A command whose arguments are read by `parseArg`; its span covers the command name.
Assignments with no name after them are an error. -/
def commandWith {σ : Type} (parseArg : σ → Cursor → Scan String × σ) (state : σ)
    (start : Cursor) : Scan (Command × Span) × σ :=
  match envsFrom start Dict.empty with
  | .error e => (.error e, state)
  | .ok (envs, cursor) =>
    match word cursor with
    | .error e => (.error e, state)
    | .noMatch =>
      if envs.isEmpty then (.noMatch, state) else (.error (cursor.error .expectedCommand), state)
    | .matched name afterName =>
      match argsFrom parseArg state afterName [] with
      | (.error e, state) => (.error e, state)
      | (.ok (args, next), state) =>
        (.matched ({ name, envs, args }, ⟨cursor, afterName⟩) next, state)

/-- A command whose arguments are words. -/
def command (start : Cursor) : Scan (Command × Span) :=
  (commandWith (fun (_ : Unit) cursor => (word cursor, ())) () start).1

end Shell

end DocExamples
