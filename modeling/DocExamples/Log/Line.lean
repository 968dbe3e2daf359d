import DocExamples.Log.Event
import DocExamples.Text.Style

namespace DocExamples

namespace Log

/-- The level as a line shows it, right-aligned in five columns. -/
def Level.label : Level → String
  | .error => "ERROR"
  | .warn => " WARN"
  | .info => " INFO"
  | .debug => "DEBUG"
  | .trace => "TRACE"

/-- The colour of a level. -/
def Level.tone : Level → Tone
  | .error => .red
  | .warn => .yellow
  | .info => .green
  | .debug => .blue
  | .trace => .magenta

/-- The event as a line, its line break included. -/
def Event.line (color : Bool) (e : Event) : String :=
  let level := Tone.paintIf color e.level.tone e.level.label
  let target :=
    if color then Tone.dim.paint e.target ++ Tone.dim.paint ":" else e.target ++ ":"
  let fields := e.fields.map fun (name, value) =>
    if color then Tone.italic.paint name ++ Tone.dim.paint "=" ++ value.render
    else name ++ "=" ++ value.render
  level ++ " " ++ target ++ " " ++ " ".intercalate (e.message :: fields) ++ "\n"

end Log

end DocExamples
