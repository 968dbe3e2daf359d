import DocExamples.Text.Utf8
import DocExamples.Source.Line
import DocExamples.Diagnostic.Problem

namespace DocExamples

/-- Tab stops of an excerpt are this many cells apart. -/
def tabWidth : Nat := 8

/-- A problem at a run of columns of one line. -/
structure SyntaxError where
  line : Line
  colStart : Nat
  colEnd : Nat
  problem : Problem
  start_pos : 1 ≤ colStart
  start_le_end : colStart ≤ colEnd
  deriving DecidableEq

namespace SyntaxError

/-- The error over `colStart..colEnd`; a start below 1 counts as 1, an end of 0 marks a point
error at the start, and an end before the start is moved up to it. -/
def new (line : Line) (colStart colEnd : Nat) (problem : Problem) : SyntaxError :=
  let start := max colStart 1
  { line, problem
    colStart := start
    colEnd := if colEnd = 0 then start else max colEnd start
    start_pos := Nat.le_max_right _ _
    start_le_end := by split <;> omega }

/-- Whether the error is a warning about a fence. -/
def isWarning (e : SyntaxError) : Bool :=
  e.problem.isWarning

/-- The one-line header, `syntax at FILE:LINE:START[-END]: MESSAGE`. -/
def header (e : SyntaxError) : String :=
  let file := e.line.file
  let number := e.line.number
  let start := e.colStart
  let range := if e.colEnd = e.colStart then s!"{start}" else s!"{start}-{e.colEnd}"
  s!"syntax at {file}:{number}:{range}: " ++ e.problem.message

/-- The expanded text and marks of the decoded items of a line, from display cell `width` and
byte `offset` on, marking each item whose bytes meet `lo..hi` (end excluded). -/
def excerptFrom (lo hi : Nat) : List Decoded → (width offset : Nat) → String × String
  | [], _, _ => ("", "")
  | d :: rest, width, offset =>
    let c := d.toChar
    let cells := if c = '\t' then tabWidth - width % tabWidth else 1
    let shown := if c = '\t' then String.ofList (List.replicate cells ' ') else c.toString
    let mark := if offset < hi ∧ lo < offset + d.size then '^' else ' '
    let (text, marks) := excerptFrom lo hi rest (width + cells) (offset + d.size)
    (shown ++ text, String.ofList (List.replicate cells mark) ++ marks)

/-- The line with tabs expanded, and beneath it the marker line. -/
def excerpt (e : SyntaxError) : String × String :=
  let lo := e.colStart - 1
  let hi := e.colEnd
  let (text, marks) := excerptFrom lo hi (Utf8.decodeAll e.line.text) 0 0
  let pastEnd := max lo e.line.length
  (text, marks ++ String.ofList (List.replicate (hi - pastEnd) '^'))

/-- Header, a blank line, the excerpt and the marker line. -/
def render (e : SyntaxError) : String :=
  let (text, marks) := e.excerpt
  e.header ++ "\n\n" ++ text ++ "\n" ++ marks

end SyntaxError

/-- A 1-based byte column of a line. The column is kept as given, unclamped. -/
structure Position where
  line : Line
  column : Nat

namespace Position

/-- The place as `FILE:LINE:COLUMN`. -/
def display (p : Position) : String :=
  let file := p.line.file
  let number := p.line.number
  let column := p.column
  s!"{file}:{number}:{column}"

/-- A point error at the position. -/
def error (p : Position) (problem : Problem) : SyntaxError :=
  SyntaxError.new p.line p.column 0 problem

/-- An error from the position to column `endColumn`, inclusive. -/
def errorTo (p : Position) (endColumn : Nat) (problem : Problem) : SyntaxError :=
  SyntaxError.new p.line p.column endColumn problem

end Position

end DocExamples
