import DocExamples.Diagnostic.SyntaxError
import DocExamples.Files

namespace DocExamples

/-- The count of warnings, `N warning[s]:`, then each warning after a blank line. -/
def warningsDisplay (warnings : List SyntaxError) : String :=
  let count := warnings.length
  let plural := if count = 1 then "" else "s"
  s!"{count} warning{plural}:" ++ String.join (warnings.map fun w => "\n\n" ++ w.render)

/-- Why a check of documentation failed. -/
inductive DocError where
  /-- Reading a document or the config file failed. -/
  | readFailed (cause : IoFailure)
  /-- A command line or fence could not be read. -/
  | atLine (e : SyntaxError)
  /-- A file could not be found or opened. -/
  | files (e : FsError)
  /-- The config file is not valid. -/
  | configParse (message : String)
  /-- A quoted file differs from the file in the project. -/
  | quotedMismatch (path location diff : String)
  /-- Warnings, taken as an error. -/
  | warnings (warnings : List SyntaxError)
  /-- An error, with the warnings collected before it. -/
  | withWarnings (warnings : List SyntaxError) (inner : DocError)
  deriving DecidableEq

namespace DocError

/-- The wording of the error. -/
def message : DocError → String
  | .readFailed cause => cause.message
  | .atLine e => e.render
  | .files e => e.message
  | .configParse message => "failed to parse config file: " ++ message
  | .quotedMismatch path location diff =>
    s!"quoted file `{path}` at {location} does not match the file on disk\n" ++ diff
  | .warnings ws => warningsDisplay ws
  | .withWarnings ws inner => inner.message ++ "\n\n" ++ warningsDisplay ws

/-- The error with the warnings collected before it attached, when there are any. -/
def join (warnings : List SyntaxError) (e : DocError) : DocError :=
  if warnings.isEmpty then e else .withWarnings warnings e

/-- The warnings as a failure, when there are any. -/
def ofWarnings (warnings : List SyntaxError) : Except DocError Unit :=
  if warnings.isEmpty then .ok () else .error (.warnings warnings)

end DocError

end DocExamples
