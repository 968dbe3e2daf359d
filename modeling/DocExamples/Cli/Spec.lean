namespace DocExamples

namespace Cli

/-- An option of the command line. -/
inductive Opt where
  | path
  | verbose
  | noColor
  | format
  | denyWarnings
  | help
  | version
  deriving DecidableEq, Repr

/-- A command: the program itself, or one of its subcommands. -/
inductive Command where
  | main
  | check
  | list
  | help
  deriving DecidableEq, Repr

/-- How an option is written and described. -/
structure OptSpec where
  short : Option Char
  long : String
  value : Option String
  summary : String
  detail : Option String
  default : Option String
  choices : List String
  order : Nat

namespace Command

/-- The program's name in usage lines. -/
def program : String := "hebfmt"

/-- The version line. -/
def versionText : String := "hebfmt_cli 0.1.0\n"

/-- The name of a subcommand. -/
def name : Command → String
  | .main => program
  | .check => "check"
  | .list => "list"
  | .help => "help"

/-- The subcommands of a command, in the order the help lists them. -/
def subcommands : Command → List Command
  | .main => [.check, .list, .help]
  | _ => []

/-- The subcommand a word names. -/
def find? (word : String) : Option Command :=
  [Command.check, .list, .help].find? (·.name = word)

/-- The options of a command, its own first and then those of the program it shares. -/
def options : Command → List Opt
  | .main => [.path, .verbose, .noColor, .help, .version]
  | .check => [.format, .denyWarnings, .path, .verbose, .noColor, .help]
  | .list => [.format, .path, .verbose, .noColor, .help]
  | .help => [.path, .verbose, .noColor]

/-- The one-line description of a command. -/
def summary : Command → String
  | .main => "Verify the worked examples in the hebfmt documentation."
  | .check => "Check every configured document"
  | .list => "List the examples and quoted files found in each document"
  | .help => "Print this message or the help of the given subcommand(s)"

/-- The longer description of a command, for those that have one. -/
def detail : Command → Option String
  | .main => some ("hebfmt checks that the examples in its own documentation still hold.\n\n" ++
      "Shell sessions starting with \x60$ hebfmt\x60 are parsed with a small shell dialect and " ++
      "their \x60<( ... )\x60 inline files are run. Blocks quoting a project file are compared " ++
      "with the file on disk.\n\nQuick start:\n  hebfmt check  Verify every configured " ++
      "document\n  hebfmt list   Show the examples that were found")
  | .check => some ("Check every configured document.\n\nParses each example command line, " ++
      "runs its inline files and compares quoted files with the project tree. Exits with code 2 " ++
      "on the first error. Warnings about malformed code fences are printed but only fail the " ++
      "check with \x60--deny-warnings\x60.")
  | _ => none

/-- Whether the command has a long help that differs from its short one. -/
def hasDetail (c : Command) : Bool :=
  c.detail.isSome

/-- The usage line of a command, without its heading. -/
def usage : Command → String
  | .main => program ++ " [OPTIONS] [COMMAND]"
  | .help => program ++ " help [OPTIONS] [COMMAND]..."
  | c => program ++ " " ++ c.name ++ " [OPTIONS]"

/-- The order in which a command is listed among the subcommands. -/
def order : Command → Nat
  | .check => 0
  | .list => 1
  | _ => 999

/-- How an option of the command is written and described. -/
def spec (c : Command) : Opt → OptSpec
  | .path => ⟨some 'p', "path", some "PATH", "Path to the project root directory", none, none,
      [], 0⟩
  | .verbose => ⟨some 'v', "verbose", none,
      "Enable verbose output. Logging can be tuned further with \x60HEBFMT_LOG\x60", none, none,
      [], 1⟩
  | .noColor => ⟨none, "no-color", none, "Disable colored output", none, none, [], 2⟩
  | .format => ⟨none, "format", some "FORMAT",
      if c = .list then "Output format for the listing" else "Output format for check results",
      none, some "text", ["text", "json"], 0⟩
  | .denyWarnings => ⟨none, "deny-warnings", none, "Exit with code 1 when any warning was reported",
      none, none, [], 1⟩
  | .help =>
    if c.hasDetail then
      ⟨some 'h', "help", none, "Print help (see more with '--help')",
        some "Print help (see a summary with '-h')", none, [], 999⟩
    else ⟨some 'h', "help", none, "Print help", none, none, [], 999⟩
  | .version => ⟨some 'V', "version", none, "Print version", none, none, [], 999⟩

end Command

namespace OptSpec

/-- How errors name the option: its long form and its value. -/
def display (o : OptSpec) : String :=
  "--" ++ o.long ++ (o.value.map fun v => " <" ++ v ++ ">").getD ""

/-- The key options are listed by: their order, then the short form in lowercase followed by `0`
for a lowercase letter and `1` for a capital, or the long form for an option without a short
form. -/
def sortKey (o : OptSpec) : Nat × String :=
  (o.order, match o.short with
    | some c => String.singleton c.toLower ++ (if c.isLower then "0" else "1")
    | none => o.long)

/-- Whether option `a` is listed before option `b`. -/
def listedBefore (a b : OptSpec) : Bool :=
  a.sortKey.1 < b.sortKey.1 || (a.sortKey.1 = b.sortKey.1 && a.sortKey.2 ≤ b.sortKey.2)

/-- The option as the help's left column writes it. -/
def label (o : OptSpec) : String :=
  (match o.short with
    | some c => "-" ++ String.singleton c ++ ", "
    | none => "    ") ++ o.display

/-- The default and the choices, as notes after the description. -/
def notes (o : OptSpec) : List String :=
  (o.default.map fun d => "[default: " ++ d ++ "]").toList ++
    (if o.choices.isEmpty then [] else ["[possible values: " ++ ", ".intercalate o.choices ++ "]"])

end OptSpec

/-- Blanks of a width. -/
def blanks (n : Nat) : String :=
  String.ofList (List.replicate n ' ')

/-- The text with every line after the first indented by `n` blanks. -/
def indentLines (n : Nat) (text : String) : String :=
  text.replace "\n" ("\n" ++ blanks n)

namespace Command

/-- The options of the command in the order the help lists them. -/
def listedOptions (c : Command) : List OptSpec :=
  (c.options.map c.spec).mergeSort OptSpec.listedBefore

/-- One option of the short help: the description in a column after the widest option. -/
def shortRow (widest : Nat) (o : OptSpec) : String :=
  let notes := o.notes
  let text := o.summary ++ (if notes.isEmpty then "" else " " ++ " ".intercalate notes)
  "  " ++ o.label ++ blanks (widest - o.display.length + 2) ++ indentLines (widest + 4) text

/-- One option of the long help: the description on the lines below it. -/
def longRow (o : OptSpec) : String :=
  let notes := o.notes
  let text := o.detail.getD o.summary ++
    (if notes.isEmpty then "" else "\n\n" ++ "\n".intercalate notes)
  "  " ++ o.label ++ "\n" ++ blanks 10 ++ indentLines 10 text

/-- The lines listing the subcommands. -/
def commandRows (c : Command) : List String :=
  let subs := c.subcommands.mergeSort fun a b => a.order ≤ b.order
  let widest := (subs.map fun s => s.name.length).foldl max 2
  subs.map fun s => "  " ++ s.name ++ blanks (widest + 2 - s.name.length) ++ s.summary

/-- The help of a command, short or long; the long form is given only to a command that has a
longer description. -/
def helpText (c : Command) (long : Bool) : String :=
  let long := long && c.hasDetail
  let about := if long then c.detail.getD c.summary else c.summary
  let opts := c.listedOptions
  let widest := (opts.map fun o => o.display.length).foldl max 2
  let optionRows := if long then "\n\n".intercalate (opts.map longRow)
    else "\n".intercalate (opts.map (shortRow widest))
  let sections :=
    (if c.subcommands.isEmpty then [] else ["Commands:\n" ++ "\n".intercalate c.commandRows]) ++
    (if c = .help then ["Arguments:\n  [COMMAND]...  Print help for the subcommand(s)"] else []) ++
    (if opts.isEmpty then [] else ["Options:\n" ++ optionRows])
  about ++ "\n\nUsage: " ++ c.usage ++ "\n\n" ++ "\n\n".intercalate sections ++ "\n"

end Command

end Cli

end DocExamples
