import DocExamples.Text.Space
import DocExamples.Source.Cursor

namespace DocExamples

/-- The first index at which `needle` occurs in `haystack`; an empty needle is found at 0. -/
def findSlice? (needle : List UInt8) : List UInt8 → Option Nat
  | [] => if needle.isEmpty then some 0 else none
  | b :: rest => if needle.isPrefixOf (b :: rest) then some 0 else (findSlice? needle rest).map (· + 1)

/-- The number of bytes equal to `marker` at the front of `bytes`. -/
def runLength (bytes : List UInt8) (marker : UInt8) : Nat :=
  (bytes.takeWhile (· == marker)).length

/-- The number of spaces at the front of `bytes`, but at most `limit`. -/
def spacesUpTo (limit : Nat) (bytes : List UInt8) : Nat :=
  min limit (runLength bytes 32)

/-- Whether a block is still taking lines. -/
inductive FenceState where
  | opened
  | closed
  deriving DecidableEq, Repr

/-- A fenced code block, fed one line at a time. -/
structure FencedBlock where
  /-- The number of the line that opened the block. -/
  startLine : Nat
  /-- The number of the line that closed it, 0 while it is open. -/
  endLine : Nat
  /-- The text after the opening fence, ASCII white space trimmed. -/
  info : String
  /-- The number of spaces before the opening fence. -/
  indent : Nat
  /-- The mark the fence is made of, a backtick or a tilde. -/
  marker : UInt8
  /-- The number of marks in the opening fence. -/
  fenceLength : Nat
  /-- The lines of the block, the opening indent taken off. -/
  lines : List (List UInt8)
  deriving DecidableEq, Repr

namespace FencedBlock

/-- The run of marks that closes the block. -/
def terminator (b : FencedBlock) : List UInt8 :=
  List.replicate b.fenceLength b.marker

/-- Whether a closing line has been fed. -/
def isClosed (b : FencedBlock) : Bool :=
  b.endLine != 0

/-- The first word of the info string. -/
def tag (b : FencedBlock) : String :=
  firstWord b.info

/-- The lines of the block, each followed by a line break. -/
def content (b : FencedBlock) : List UInt8 :=
  b.lines.flatMap (· ++ [10])

/-- The block with `text` added as a line, without as many of its leading spaces as the opening
indent had. -/
def pushLine (b : FencedBlock) (text : List UInt8) : FencedBlock :=
  { b with lines := b.lines ++ [text.drop (spacesUpTo b.indent text)] }

/-- The info string of the bytes after a fence. -/
def infoOf (bytes : List UInt8) : String :=
  Utf8.lossy (trimAscii bytes)

/-- Feeds the part of `line` from `column` on to the block: the block after it, whether it is
still open, and the warnings raised. -/
def feedLine (b : FencedBlock) (line : Line) (column : Nat) :
    FencedBlock × FenceState × List SyntaxError :=
  let cursor := Cursor.new line column
  let rest := cursor.rest
  let opening := line.number = b.startLine
  if opening ∧ b.marker ≠ 96 then ({ b with info := infoOf rest }, .opened, [])
  else
    match findSlice? b.terminator rest with
    | none =>
      if opening then ({ b with info := infoOf rest }, .opened, [])
      else (b.pushLine rest, .opened, [])
    | some found =>
      let fence := cursor.advance found
      let before := rest.take found
      let (b, sameLine) :=
        if opening then ({ b with info := infoOf before }, [fence.error .sameLineFence])
        else if isBlankBytes before then (b, [])
        else (b.pushLine before, [])
      let run := runLength fence.rest b.marker
      let mismatch :=
        if run = b.fenceLength then []
        else [fence.errorUntil (fence.advance run) (.fenceLengthMismatch b.fenceLength run)]
      let after := fence.advance run
      let trailing :=
        if (trimAscii after.rest).isEmpty then [] else [after.skipBlanks.errorToEnd .textAfterFence]
      ({ b with endLine := line.number }, .closed, sameLine ++ mismatch ++ trailing)

/-- Tries to open a block at `column` of `line`: the block and its state after the rest of the
opening line, or nothing; and the warnings raised either way. -/
def openAt? (line : Line) (column : Nat) :
    Option (FencedBlock × FenceState) × List SyntaxError :=
  let start := Cursor.new line column
  let indent := start.rest.takeWhile isBlankByte
  if indent.length > 3 ∨ indent.contains 9 then (none, [])
  else
    let fence := start.advance indent.length
    match fence.peek with
    | none => (none, [])
    | some marker =>
      if marker ≠ 96 ∧ marker ≠ 126 then (none, [])
      else
        let run := runLength fence.rest marker
        if run < 3 then
          (none, if run = 2 then [fence.errorUntil (fence.advance run) .shortFence] else [])
        else
          let interrupts := if column > 1 then [fence.error .interruptsParagraph] else []
          let block : FencedBlock :=
            { startLine := line.number, endLine := 0, info := "", indent := indent.length,
              marker, fenceLength := run, lines := [] }
          let (block, state, warnings) := block.feedLine line (fence.advance run).column
          (some (block, state), interrupts ++ warnings)

end FencedBlock

end DocExamples
