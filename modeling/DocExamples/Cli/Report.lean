import DocExamples.Check.Error
import DocExamples.Text.Wrap
import DocExamples.Text.Style

namespace DocExamples

/-- What a report shows of an error. -/
structure Diagnostic where
  code : String
  message : String
  causes : List String
  help : Option String
  deriving DecidableEq, Repr

/-- The errors behind a file error, outermost first. -/
def FsError.causes : FsError → List String
  | .notFound _ => []
  | .failed _ cause => [cause.message]
  | .layer _ source => source.message :: source.causes

namespace DocError

/-- The code that names the kind of error. -/
def code : DocError → String
  | .readFailed _ => "hebfmt::io_error"
  | .atLine _ => "hebfmt::syntax"
  | .files _ => "hebfmt::fs"
  | .configParse _ => "hebfmt::config_parse"
  | .quotedMismatch .. => "hebfmt::quoted_file_mismatch"
  | .warnings _ => "hebfmt::warnings"
  | .withWarnings .. => "hebfmt::failed_with_warnings"

/-- The errors behind the error, outermost first. -/
def causes : DocError → List String
  | .atLine e => e.problem.message :: e.problem.causes
  | .files e => e.causes
  | .withWarnings _ inner => inner.message :: inner.causes
  | _ => []

/-- What to do about the error, for the kinds that have advice. -/
def help : DocError → Option String
  | .configParse _ => some "check that hebfmt.toml is valid TOML with a [doccheck] section"
  | .quotedMismatch .. => some "update the documentation block or the file so that they agree"
  | _ => none

/-- What a report shows of the error. -/
def diagnostic (e : DocError) : Diagnostic :=
  ⟨e.code, e.message, e.causes, e.help⟩

end DocError

namespace Diagnostic

/-- The columns a report is filled to. -/
def width : Nat := 78

/-- The glyphs of a report: with colour, box drawing; without, ASCII. -/
structure Glyphs where
  error : String
  bar : String
  branch : String
  corner : String
  line : String
  arrow : String

/-- The glyphs for a report with or without colour. -/
def glyphs (color : Bool) : Glyphs :=
  if color then ⟨"×", "│", "├", "╰", "─", "▶"⟩ else ⟨"x", "|", "|", "\x60", "-", ">"⟩

/-- The lines of one cause, filled behind its marks; the last cause ends the chain with a
corner instead of a branch. -/
def causeText (color : Bool) (g : Glyphs) (last : Bool) (cause : String) : String :=
  let first := "  " ++ (if last then g.corner else g.branch) ++ g.line ++ g.arrow ++ " "
  let rest := "  " ++ (if last then " " else g.bar) ++ "   "
  Wrap.fill width (Tone.paintIf color .red first) (Tone.paintIf color .red rest) cause ++ "\n"

/-- The report of the diagnostic, every line ended by a line break. -/
def render (color : Bool) (d : Diagnostic) : String :=
  let g := glyphs color
  let header := Tone.paintIf color .red d.code ++ "\n\n"
  let message := Wrap.fill width ("  " ++ Tone.paintIf color .red g.error ++ " ")
    ("  " ++ Tone.paintIf color .red g.bar ++ " ") d.message ++ "\n"
  let count := d.causes.length
  let causes := String.join (d.causes.mapIdx fun i cause =>
    causeText color g (i + 1 = count) cause)
  let help := match d.help with
    | some text => Wrap.fill width (Tone.paintIf color .cyan "  help: ") "        " text ++ "\n"
    | none => ""
  header ++ message ++ causes ++ help

end Diagnostic

end DocExamples
