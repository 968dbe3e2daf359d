import DocExamples.Text.Escaped

namespace DocExamples

namespace Log

/-- How much an event matters, from errors down to fine tracing. -/
inductive Level where
  | error
  | warn
  | info
  | debug
  | trace
  deriving DecidableEq, Repr

namespace Level

/-- The verbosity a filter needs to show the level: 1 for errors up to 5 for tracing. -/
def rank : Level → Nat
  | .error => 1
  | .warn => 2
  | .info => 3
  | .debug => 4
  | .trace => 5

/-- The level's name in capitals. -/
def name : Level → String
  | .error => "ERROR"
  | .warn => "WARN"
  | .info => "INFO"
  | .debug => "DEBUG"
  | .trace => "TRACE"

end Level

/-- The value of a field: text shown as it is, text shown quoted with escapes, or a count. -/
inductive Value where
  | shown (text : String)
  | quoted (text : String)
  | count (n : Nat)
  deriving DecidableEq, Repr

/-- The value as a log line writes it. -/
def Value.render : Value → String
  | .shown text => text
  | .quoted text => escapeQuoted text
  | .count n => toString n

/-- One logged event. -/
structure Event where
  level : Level
  target : String
  message : String
  fields : List (String × Value)
  deriving DecidableEq, Repr

/-- The parts of the program that log, by the names the log shows for them. -/
def targetProject : String := "hebfmt"
def targetDocument : String := "hebfmt_core::readme"
def targetFiles : String := "hebfmt_core::fs"
def targetWarnings : String := "hebfmt_core::warnings"
def targetCommand : String := "hebfmt_core::shell::command"
def targetInlineFile : String := "hebfmt_core::shell::inline_file"
def targetConfig : String := "hebfmt_core::config"

end Log

end DocExamples
