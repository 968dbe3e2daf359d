import DocExamples.Cli.Args
import DocExamples.Cli.Report
import DocExamples.Log.Filter
import DocExamples.Log.Line
import DocExamples.Text.Json
import DocExamples.Check.Document

namespace DocExamples

namespace Cli

/-- What a run of the program gives: its exit status and what it wrote on each stream. -/
structure Outcome where
  status : Nat
  stdout : String
  stderr : String
  deriving DecidableEq, Repr

/-- What a run sees of its surroundings: its environment variables, and the project directory
that a `--path` value, or the working directory when there is none, stands for. -/
structure World where
  env : List (String × String)
  rootAt : Option String → Root

/-- The value of an environment variable. -/
def World.var? (w : World) (name : String) : Option String :=
  (w.env.find? (·.1 = name)).map Prod.snd

/-- The log filter of a run: the variable's filter when it reads as one, else events up to debug
with `--verbose` and up to warnings without. -/
def logFilter (verbose : Bool) (setting : Option String) : Log.Filter :=
  let fallback := Log.Filter.upTo (if verbose then 4 else 2)
  match setting with
  | some text => (Log.Filter.parse? text).getD fallback
  | none => fallback

/-- The text right-aligned in a field of `width` characters. -/
def alignRight (width : Nat) (text : String) : String :=
  blanks (width - text.length) ++ text

namespace Output

/-- An example as the JSON output writes it. -/
def exampleJson (e : Example) : JsonValue :=
  .object [("line", .number e.line), ("command", .string e.command.display),
    ("expected_output", .string (Utf8.lossy e.expectedOutput))]

/-- A quoted file as the JSON output writes it. -/
def quotedJson (q : QuotedFile) : JsonValue :=
  .object [("line", .number q.line), ("path", .string q.path), ("tag", .string q.tag)]

/-- A warning as the JSON output writes it. -/
def warningJson (w : SyntaxError) : JsonValue :=
  .object [("line", .number w.line.number), ("column", .number w.colStart),
    ("message", .string w.problem.message)]

/-- A document's report as the JSON output writes it. -/
def reportJson (r : Report) : JsonValue :=
  .object [("file", .string r.file), ("examples", .array (r.examples.map exampleJson)),
    ("quoted_files", .array (r.quotedFiles.map quotedJson)),
    ("warnings", .array (r.warnings.map warningJson))]

/-- The lines `check` writes on the standard output for a document. -/
def checkLine (color : Bool) (r : Report) : String :=
  Tone.paintForegroundIf color .green "ok" ++ " " ++ r.file ++ ": " ++
    toString r.examples.length ++ " example(s), " ++ toString r.quotedFiles.length ++
    " quoted file(s)\n"

/-- A warning as `check` writes it on the error stream. -/
def warningText (color : Bool) (w : SyntaxError) : String :=
  Tone.paintForegroundIf color .yellow "warning:" ++ " " ++ w.render ++ "\n\n"

/-- The lines `list` writes for a document. -/
def listLines (color : Bool) (r : Report) : String :=
  Tone.paintIf color .bold r.file ++ "\n" ++
    (if r.examples.isEmpty && r.quotedFiles.isEmpty then "  no examples found\n" else "") ++
    String.join (r.examples.map fun e =>
      "  " ++ alignRight 4 (toString e.line) ++ "  $ " ++ e.command.display ++ "\n") ++
    String.join (r.quotedFiles.map fun q =>
      "  " ++ alignRight 4 (toString q.line) ++ "  " ++ q.path ++ " (" ++ q.tag ++ ")\n")

end Output

/-- What `check` writes and its status, given the reports and the text already on the error
stream. -/
def checkOutcome (color : Bool) (format : Format) (denyWarnings : Bool) (reports : List Report)
    (errors : String) : Outcome :=
  let count := (reports.map fun r => r.warnings.length).foldr (· + ·) 0
  let failed := denyWarnings && 0 < count
  let (stdout, warnings) := match format with
    | .json =>
      let output := JsonValue.object [("ok", .bool !failed),
        ("documents", .array (reports.map Output.reportJson))]
      (output.render ++ "\n", "")
    | .text =>
      let examples := (reports.map fun r => r.examples.length).foldr (· + ·) 0
      (String.join (reports.map (Output.checkLine color)) ++ "Check passed: " ++
        toString examples ++ " example(s) across " ++ toString reports.length ++
        " document(s).\n",
       String.join (reports.map fun r => String.join (r.warnings.map (Output.warningText color))))
  let denial := if failed then
      Tone.paintForegroundIf color .red "error:" ++ " " ++ toString count ++
        " warning(s) reported with --deny-warnings\n"
    else ""
  ⟨if failed then 1 else 0, stdout, errors ++ warnings ++ denial⟩

/-- What `list` writes. -/
def listOutcome (color : Bool) (format : Format) (reports : List Report) (errors : String) :
    Outcome :=
  match format with
  | .json => ⟨0, (JsonValue.array (reports.map Output.reportJson)).render ++ "\n", errors⟩
  | .text => ⟨0, String.join (reports.map (Output.listLines color)), errors⟩

/-- The message of a run without a command. -/
def noCommand : String :=
  "No subcommand specified. Run \x60hebfmt --help\x60 for usage.\n"

/-- A run of the program with the arguments after its name. -/
def run (w : World) (args : List String) : Outcome :=
  match parse args with
  | .error (.show text) => ⟨0, text, ""⟩
  | .error (.mistake message) => ⟨2, "", message⟩
  | .ok invocation =>
    let color := !invocation.noColor && (w.var? "NO_COLOR").isNone
    let filter := logFilter invocation.verbose (w.var? "HEBFMT_LOG")
    let logText (events : List Log.Event) : String :=
      String.join ((events.filter filter.enables).map (Log.Event.line color))
    let failure (events : List Log.Event) (e : DocError) : Outcome :=
      ⟨2, "", logText events ++ e.diagnostic.render color ++ "\n"⟩
    match invocation.action with
    | none => ⟨1, "", noCommand⟩
    | some action =>
      let root := w.rootAt invocation.path
      match Config.loadOrDefault root with
      | (.error e, loading) => failure loading e
      | (.ok config, loading) =>
        let starting : Log.Event := ⟨.debug, Log.targetProject, "checking project",
          [("root", .shown root.shown), ("documents", .count config.documents.length)]⟩
        match Project.checkAll ⟨config, root⟩ with
        | (.error e, checking) => failure (loading ++ starting :: checking) e
        | (.ok reports, checking) =>
          let errors := logText (loading ++ starting :: checking)
          match action with
          | .check format denyWarnings => checkOutcome color format denyWarnings reports errors
          | .list format => listOutcome color format reports errors

end Cli

end DocExamples
