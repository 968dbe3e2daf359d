import DocExamples.Cli.Spec
import DocExamples.Text.Similarity

namespace DocExamples

namespace Cli

/-- The output format of `check` and `list`. -/
inductive Format where
  | text
  | json
  deriving DecidableEq, Repr

/-- What the command line asks for. -/
inductive Action where
  | check (format : Format) (denyWarnings : Bool)
  | list (format : Format)
  deriving DecidableEq, Repr

/-- A command line that was read: the options of the program and the action, if one was named. -/
structure Invocation where
  path : Option String
  verbose : Bool
  noColor : Bool
  action : Option Action
  deriving DecidableEq, Repr

/-- Why reading the command line stopped before there was an invocation: to show a text on the
standard output (help or version), or to report a mistake. -/
inductive Stop where
  | show (text : String)
  | mistake (message : String)
  deriving DecidableEq, Repr

namespace Stop

/-- The pointer to the help that ends every mistake. -/
def pointer : String :=
  "\n\nFor more information, try '--help'.\n"

/-- A mistake: its sentence, its tips, and the usage line of the command, when given. -/
def report (sentence : String) (tips : List String) (usage : Option Command) : Stop :=
  .mistake ("error: " ++ sentence ++
    (if tips.isEmpty then "" else "\n" ++ String.join (tips.map ("\n  tip: " ++ ·))) ++
    (usage.map fun c => "\n\nUsage: " ++ c.usage).getD "" ++ pointer)

/-- A value that is missing, or empty where it may not be. -/
def missingValue (o : OptSpec) (choices : List String) : Stop :=
  .mistake ("error: a value is required for '" ++ o.display ++ "' but none was supplied" ++
    (if choices.isEmpty then "" else "\n  [possible values: " ++ ", ".intercalate choices ++ "]") ++
    pointer)

/-- A value that is not one of the choices. -/
def invalidValue (o : OptSpec) (value : String) : Stop :=
  let tip := (Similarity.best? value o.choices).map fun c =>
    "\n\n  tip: a similar value exists: '" ++ c ++ "'"
  .mistake ("error: invalid value '" ++ value ++ "' for '" ++ o.display ++ "'" ++
    "\n  [possible values: " ++ ", ".intercalate o.choices ++ "]" ++ tip.getD "" ++ pointer)

/-- An option given twice to one command. -/
def repeated (c : Command) (o : OptSpec) : Stop :=
  report ("the argument '" ++ o.display ++ "' cannot be used multiple times") [] (some c)

/-- A value attached to an option that takes none. -/
def unexpectedValue (c : Command) (o : OptSpec) (value : String) : Stop :=
  report ("unexpected value '" ++ value ++ "' for '" ++ o.display ++
    "' found; no more were expected") [] (some c)

/-- A word after `help` that names no subcommand. -/
def unrecognized (c : Command) (word : String) : Stop :=
  report ("unrecognized subcommand '" ++ word ++ "'") [] (some c)

/-- A word that names no subcommand, with the subcommands it resembles. -/
def unknownCommand (c : Command) (word : String) : Stop :=
  let names := c.subcommands.map Command.name
  match Similarity.suggestions word names with
  | [] => report ("unrecognized subcommand '" ++ word ++ "'") [] (some c)
  | [one] => report ("unrecognized subcommand '" ++ word ++ "'")
      ["a similar subcommand exists: '" ++ one ++ "'"] (some c)
  | many => report ("unrecognized subcommand '" ++ word ++ "'")
      ["some similar subcommands exist: " ++ ", ".intercalate (many.map fun n => "'" ++ n ++ "'")]
      (some c)

/-- An argument that the command does not take. -/
def unexpected (c : Command) (arg : String) (tips : List String) : Stop :=
  report ("unexpected argument '" ++ arg ++ "' found") tips (some c)

end Stop

/-- The options given to one command, with their values, in the order given. -/
abbrev Given := List (Opt × String)

/-- How far reading one command's arguments has got: the options given, an option still waiting
for its value (with the value once read), whether the last option still expects a value, and
whether `--` has been passed. -/
structure Reading where
  given : Given
  pending : Option (Opt × List String)
  expecting : Bool
  trailing : Bool

/-- Where reading one command's arguments ended: at the end of the arguments, or at a subcommand
with the arguments left for it. -/
inductive Reached where
  | done (r : Reading)
  | enter (sub : Command) (rest : List String) (r : Reading)

namespace Command

/-- The option of the command with a long form. -/
def findLong? (c : Command) (long : String) : Option Opt :=
  c.options.find? fun o => (c.spec o).long = long

/-- The option of the command with a short form. -/
def findShort? (c : Command) (short : Char) : Option Opt :=
  c.options.find? fun o => (c.spec o).short = some short

/-- The long forms of the command's options. -/
def longs (c : Command) : List String :=
  c.options.map fun o => (c.spec o).long

/-- Whether an option takes a value. -/
def takesValue (c : Command) (o : Opt) : Bool :=
  (c.spec o).value.isSome

/-- Records an option with the values it was given: a value must be there and be acceptable, and
the option must not have been given before. Help and version stop the reading. -/
def accept (c : Command) (given : Given) (o : Opt) (values : List String) (long : Bool) :
    Except Stop Given :=
  let spec := c.spec o
  match o with
  | .help => .error (.show (c.helpText long))
  | .version => .error (.show versionText)
  | _ =>
    match values with
    | [] =>
      if c.takesValue o then .error (Stop.missingValue spec spec.choices)
      else if given.any (·.1 = o) then .error (Stop.repeated c spec)
      else .ok (given ++ [(o, "true")])
    | value :: _ =>
      if given.any (·.1 = o) then .error (Stop.repeated c spec)
      else if value.isEmpty then .error (Stop.missingValue spec spec.choices)
      else if !spec.choices.isEmpty && !spec.choices.contains value then
        .error (Stop.invalidValue spec value)
      else .ok (given ++ [(o, value)])

/-- Records the option waiting for its value, if there is one. -/
def settle (c : Command) (r : Reading) : Except Stop Reading :=
  match r.pending with
  | none => .ok r
  | some (o, values) => do
    let given ← c.accept r.given o values true
    pure { r with given, pending := none, expecting := false }

/-- Starts an option: a flag is recorded at once, an option that takes a value waits for it,
unless it came attached. -/
def start (c : Command) (r : Reading) (o : Opt) (attached : Option String) (long : Bool) :
    Except Stop Reading := do
  let r ← c.settle r
  if c.takesValue o then
    match attached with
    | some value =>
      let given ← c.accept r.given o [value] long
      pure { r with given, expecting := false }
    | none => pure { r with pending := some (o, []), expecting := true }
  else
    let given ← c.accept r.given o [] long
    pure { r with given, expecting := false }

/-- The tip for a mistyped long option: a similar option of this command, or else a similar option
of a subcommand that is named later on the command line. -/
def longTips (c : Command) (long : String) (later : List String) : List String :=
  match Similarity.best? long c.longs with
  | some found => ["a similar argument exists: '--" ++ found ++ "'"]
  | none =>
    let found := c.subcommands.findSome? fun sub =>
      (Similarity.best? long sub.longs).bind fun candidate =>
        if later.contains sub.name then some (sub.name ++ " --" ++ candidate) else none
    (found.map fun text => "'" ++ text ++ "' exists").toList

/-- Reads a run of short flags after a single hyphen. -/
def shortFlags (c : Command) (r : Reading) : List Char → Except Stop Reading
  | [] => .ok r
  | ch :: rest =>
    match c.findShort? ch with
    | none => .error (Stop.unexpected c ("-" ++ String.singleton ch) [])
    | some o =>
      if c.takesValue o then
        let value := match rest with
          | '=' :: more => some (String.ofList more)
          | [] => none
          | more => some (String.ofList more)
        c.start r o value false
      else do
        let r ← c.start r o none false
        c.shortFlags r rest

/-- Shows the help of the commands named after `help`. -/
def helpFor (c : Command) : List String → Stop
  | [] => .show (c.helpText true)
  | word :: rest =>
    match c.subcommands.find? (·.name = word) with
    | some sub => sub.helpFor rest
    | none => Stop.unrecognized c word
termination_by words => words.length

/-- A plain word where the command takes none. -/
def plainWord (c : Command) (word : String) (trailing : Bool) : Stop :=
  if trailing && (c.subcommands.any (·.name = word)) then
    Stop.report "unexpected argument '--' found"
      ["subcommand '" ++ word ++ "' exists; to use it, remove the '--' before it"] (some c)
  else if c.subcommands.isEmpty then Stop.unexpected c word []
  else Stop.unknownCommand c word

/-- Reads the arguments of one command. -/
def read (c : Command) (r : Reading) : List String → Except Stop Reached
  | [] => .ok (.done r)
  | arg :: rest =>
    let sub := if r.trailing then none else c.subcommands.find? (·.name = arg)
    match sub with
    | some .help => .error (Command.main.helpFor rest)
    | some sub => .ok (.enter sub rest r)
    | none =>
      if r.trailing then .error (c.plainWord arg true)
      else if arg = "--" then c.read { r with trailing := true } rest
      else if arg.startsWith "--" then
        let body := String.ofList (arg.toList.drop 2)
        let (long, attached) := match body.splitOn "=" with
          | [] => ("", none)
          | [name] => (name, none)
          | name :: values => (name, some ("=".intercalate values))
        match c.findLong? long with
        | none => .error (Stop.unexpected c ("--" ++ long) (c.longTips long rest))
        | some o =>
          if !c.takesValue o && attached.isSome then
            .error (Stop.unexpectedValue c (c.spec o) (attached.getD ""))
          else do
            let r ← c.start r o attached true
            c.read r rest
      else if arg.startsWith "-" && arg ≠ "-" then do
        let r ← c.shortFlags r (arg.toList.drop 1)
        c.read r rest
      else if r.expecting then
        match r.pending with
        | some (o, values) => c.read { r with pending := some (o, values ++ [arg]), expecting := false } rest
        | none => c.read { r with expecting := false } rest
      else .error (c.plainWord arg false)

end Command

/-- The value given for an option, if it was given. -/
def Given.find? (given : Given) (o : Opt) : Option String :=
  (List.find? (fun (entry : Opt × String) => entry.1 = o) given).map Prod.snd

/-- The format given, text when none was. -/
def Given.format (given : Given) : Format :=
  if given.find? .format = some "json" then .json else .text

/-- The value of an option of the program: given to the subcommand, or else to the program. -/
def shared (inner outer : Given) (o : Opt) : Option String :=
  (inner.find? o).orElse fun _ => outer.find? o

/-- Reads a command line: the invocation it asks for, or why there is none. -/
def parse (args : List String) : Except Stop Invocation := do
  let start : Reading := ⟨[], none, false, false⟩
  match ← Command.main.read start args with
  | .done r =>
    let r ← Command.main.settle r
    pure ⟨r.given.find? .path, (r.given.find? .verbose).isSome,
      (r.given.find? .noColor).isSome, none⟩
  | .enter sub rest outer =>
    let inner ← match ← sub.read start rest with
      | .done r => sub.settle r
      | .enter _ _ r => sub.settle r
    let outer ← Command.main.settle outer
    let action := match sub with
      | .list => Action.list inner.given.format
      | _ => Action.check inner.given.format (inner.given.find? .denyWarnings).isSome
    pure ⟨shared inner.given outer.given .path,
      (shared inner.given outer.given .verbose).isSome,
      (shared inner.given outer.given .noColor).isSome, some action⟩

end Cli

end DocExamples
