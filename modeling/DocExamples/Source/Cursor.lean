import DocExamples.Text.Utf8
import DocExamples.Source.Line
import DocExamples.Diagnostic.SyntaxError

namespace DocExamples

/-- A read position within one line. -/
structure Cursor where
  line : Line
  offset : Nat
  offset_le : offset ≤ line.text.length

namespace Cursor

/-- The cursor at 1-based `column`, held within the line. -/
def new (line : Line) (column : Nat) : Cursor :=
  ⟨line, min (column - 1) line.text.length, Nat.min_le_right _ _⟩

/-- The 1-based column of the cursor. -/
def column (c : Cursor) : Nat :=
  c.offset + 1

/-- The bytes from the cursor to the end of the line. -/
def rest (c : Cursor) : List UInt8 :=
  c.line.text.drop c.offset

/-- The number of bytes from the cursor to the end of the line. -/
def remaining (c : Cursor) : Nat :=
  c.line.text.length - c.offset

/-- Whether the cursor stands at the end of the line. -/
def atEnd (c : Cursor) : Bool :=
  c.line.text.length ≤ c.offset

/-- The byte at the cursor. -/
def peek (c : Cursor) : Option UInt8 :=
  c.rest.head?

/-- Whether the rest of the line starts with `lead`. -/
def startsWith (c : Cursor) (lead : List UInt8) : Bool :=
  lead.isPrefixOf c.rest

/-- The character, or bad stretch, at the cursor. -/
def nextChar (c : Cursor) : Option Decoded :=
  Utf8.decodeChar c.rest

/-- The cursor `n` bytes on, held at the end of the line. -/
def advance (c : Cursor) (n : Nat) : Cursor :=
  ⟨c.line, min (c.offset + n) c.line.text.length, Nat.min_le_right _ _⟩

/-- The cursor past the spaces and tabs at it. -/
def skipBlanks (c : Cursor) : Cursor :=
  c.advance (c.rest.takeWhile isBlankByte).length

/-- The position of the cursor. -/
def position (c : Cursor) : Position :=
  ⟨c.line, c.column⟩

/-- A point error at the cursor. -/
def error (c : Cursor) (problem : Problem) : SyntaxError :=
  c.position.error problem

/-- An error over the bytes from the cursor up to `stop`, which is excluded. -/
def errorUntil (c stop : Cursor) (problem : Problem) : SyntaxError :=
  c.position.errorTo stop.offset problem

/-- An error over the rest of the line. -/
def errorToEnd (c : Cursor) (problem : Problem) : SyntaxError :=
  c.position.errorTo c.line.text.length problem

/-- The error for a bad stretch of `size` bytes at the cursor. -/
def invalidEncoding (c : Cursor) (size : Nat) : SyntaxError :=
  c.errorUntil (c.advance size) .invalidEncoding

theorem remaining_advance_le (c : Cursor) (n : Nat) : (c.advance n).remaining ≤ c.remaining := by
  simp only [remaining, advance]
  omega

theorem remaining_advance_lt {c : Cursor} {n : Nat} (inside : c.offset < c.line.text.length)
    (pos : 0 < n) : (c.advance n).remaining < c.remaining := by
  simp only [remaining, advance]
  omega

theorem offset_lt_of_peek {c : Cursor} {b : UInt8} (h : c.peek = some b) :
    c.offset < c.line.text.length := by
  simp only [peek, rest, List.head?_drop] at h
  exact (List.getElem?_eq_some_iff.mp h).1

theorem offset_lt_of_nextChar {c : Cursor} {d : Decoded} (h : c.nextChar = some d) :
    c.offset < c.line.text.length := by
  simp only [nextChar, rest] at h
  apply Nat.lt_of_not_le
  intro out
  have empty : c.line.text.drop c.offset = [] := List.drop_eq_nil_of_le out
  simp [empty, Utf8.decodeChar] at h

theorem remaining_advance_nextChar {c : Cursor} {d : Decoded} (h : c.nextChar = some d) :
    (c.advance d.size).remaining < c.remaining :=
  remaining_advance_lt (offset_lt_of_nextChar h) (Utf8.decodeChar_size_pos h)

end Cursor

/-- The outcome of a parser. -/
inductive Scan (α : Type) where
  /-- The value read and the cursor just past it. -/
  | matched (value : α) (next : Cursor)
  /-- Nothing here is read by this parser; nothing was consumed. -/
  | noMatch
  /-- A hard error that stops the caller. -/
  | error (e : SyntaxError)

namespace Scan

/-- The scan with its value changed by `f`. -/
def map {α β : Type} (f : α → β) : Scan α → Scan β
  | .matched value next => .matched (f value) next
  | .noMatch => .noMatch
  | .error e => .error e

end Scan

/-- The columns a token covers, from `start` up to `stop`, excluded. -/
structure Span where
  start : Cursor
  stop : Cursor

namespace Span

/-- An error over the span. -/
def error (span : Span) (problem : Problem) : SyntaxError :=
  span.start.errorUntil span.stop problem

end Span

end DocExamples
