namespace DocExamples

/-- A colour or an emphasis that a terminal can show. -/
inductive Tone where
  | red
  | green
  | yellow
  | blue
  | magenta
  | cyan
  | bold
  | dim
  | italic
  deriving DecidableEq, Repr

namespace Tone

/-- The number that selects the tone. -/
def code : Tone → Nat
  | .red => 31
  | .green => 32
  | .yellow => 33
  | .blue => 34
  | .magenta => 35
  | .cyan => 36
  | .bold => 1
  | .dim => 2
  | .italic => 3

/-- The escape that selects a rendition by its number. -/
def select (n : Nat) : String :=
  "\x1b[" ++ toString n ++ "m"

/-- The text in the tone, everything reset after it. -/
def paint (tone : Tone) (text : String) : String :=
  select tone.code ++ text ++ select 0

/-- The text in a colour, only the foreground colour reset after it. -/
def paintForeground (tone : Tone) (text : String) : String :=
  select tone.code ++ text ++ select 39

/-- The text in the tone when colour is on, and plain otherwise. -/
def paintIf (color : Bool) (tone : Tone) (text : String) : String :=
  if color then tone.paint text else text

/-- The text in a colour when colour is on, only the foreground reset after it. -/
def paintForegroundIf (color : Bool) (tone : Tone) (text : String) : String :=
  if color then tone.paintForeground text else text

end Tone

end DocExamples
