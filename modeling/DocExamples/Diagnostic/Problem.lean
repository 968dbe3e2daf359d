import DocExamples.Text.Escaped

namespace DocExamples

/-- A failure of a built-in command. -/
inductive ShellError where
  /-- No built-in command has this name. -/
  | unknownCommand (name : String)
  deriving DecidableEq, Repr

namespace ShellError

/-- The exit status a shell gives for the failure. -/
def exitCode : ShellError → Int
  | .unknownCommand _ => 127

/-- The wording of the failure. -/
def message : ShellError → String
  | .unknownCommand name => "unknown command: " ++ escapeQuoted name

end ShellError

/-- The cause of a positioned error. -/
inductive Problem where
  | shortFence
  | interruptsParagraph
  | sameLineFence
  | fenceLengthMismatch (opened closed : Nat)
  | textAfterFence
  | unclosedFence
  | unterminatedString
  | trailingBackslash
  | invalidEncoding
  | expectedCommand
  | unexpectedText
  | emptyInlineFile
  | missingCloseParen
  | missingSeparator
  | exitStatus (command : String) (code : Int)
  | commandFailed (command : String) (code : Int) (source : ShellError)
  deriving DecidableEq, Repr

namespace Problem

/-- Whether the problem is a warning about a fence rather than an error. -/
def isWarning : Problem → Bool
  | .shortFence | .interruptsParagraph | .sameLineFence | .fenceLengthMismatch _ _
  | .textAfterFence | .unclosedFence => true
  | _ => false

/-- The wording of the problem. -/
def message : Problem → String
  | .shortFence => "code fences should be at least 3 chars long"
  | .interruptsParagraph => "code fence interrupts a paragraph"
  | .sameLineFence => "code fence begins and ends on the same line"
  | .fenceLengthMismatch opened closed =>
    s!"code fence length mismatch: opened with {opened} chars, closed with {closed}"
  | .textAfterFence => "text after code fence"
  | .unclosedFence => "code fence is never closed"
  | .unterminatedString => "unterminated string"
  | .trailingBackslash => "trailing backslash"
  | .invalidEncoding => "invalid UTF-8 encoding"
  | .expectedCommand => "expected command name"
  | .unexpectedText => "unexpected text after command"
  | .emptyInlineFile => "empty inline file"
  | .missingCloseParen => "missing closing parenthesis"
  | .missingSeparator => "expected ';' between commands"
  | .exitStatus command code => s!"`{command}` exited with code {code}"
  | .commandFailed command code source =>
    let cause := source.message
    s!"{cause} (`{command}` exited with code {code})"

/-- The causes behind the problem, outermost first, as a report lists them. -/
def causes : Problem → List String
  | .commandFailed _ _ source => [source.message]
  | _ => []

end Problem

end DocExamples
