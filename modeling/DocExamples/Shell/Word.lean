import DocExamples.Text.AsciiSet
import DocExamples.Source.Cursor

namespace DocExamples

namespace Shell

/-- The bytes that end a bare word unless a backslash escapes them: white space (bytes 9 to 13
and 32) and the shell's metacharacters that the dialect does not interpret: the quotes, the
backslash, the backtick, the brackets, braces and parentheses, and the bytes 33, 35, 36, 38, 42,
59, 60, 62, 63, 124 and 126. -/
def specials : AsciiSet :=
  AsciiSet.ofAscii
    [32, 9, 10, 13, 11, 12, 34, 39, 92, 124, 38, 59, 60, 62, 40, 41, 36, 96, 42, 63, 91, 93,
     123, 125, 35, 126, 33]

/-- The character an escape in a double-quoted segment stands for. -/
def unescape (c : Char) : Char :=
  if c = 'n' then '\n' else if c = 'r' then '\r' else if c = 't' then '\t' else c

/-- The rest of a double-quoted segment opened at `start`, from `cursor` on. -/
def doubleQuotedFrom (start cursor : Cursor) (value : String) : Scan String :=
  match _first : cursor.nextChar with
  | none => .error (start.errorToEnd .unterminatedString)
  | some (.invalid size) => .error (cursor.invalidEncoding size)
  | some (.char c width) =>
    let next := cursor.advance width
    if c = '"' then .matched value next
    else if c = '\\' then
      match _second : next.nextChar with
      | none => .error (cursor.error .trailingBackslash)
      | some (.invalid size) => .error (next.invalidEncoding size)
      | some (.char escaped w) => doubleQuotedFrom start (next.advance w) (value.push (unescape escaped))
    else doubleQuotedFrom start next (value.push c)
termination_by cursor.remaining
decreasing_by
  · exact Nat.lt_trans (Cursor.remaining_advance_nextChar _second) (Cursor.remaining_advance_nextChar _first)
  · exact Cursor.remaining_advance_nextChar _first

/-- A double-quoted segment. -/
def doubleQuoted (start : Cursor) : Scan String :=
  if start.peek = some 34 then doubleQuotedFrom start (start.advance 1) "" else .noMatch

/-- A single-quoted segment: the bytes up to the next single quote, read as text. -/
def singleQuoted (start : Cursor) : Scan String :=
  if start.peek = some 39 then
    let body := start.advance 1
    match body.rest.findIdx? (· == 39) with
    | none => .error (start.errorToEnd .unterminatedString)
    | some len => .matched (Utf8.lossy (body.rest.take len)) (body.advance (len + 1))
  else .noMatch

/-- The rest of a bare run from `cursor` on, with what was read so far; an error ends it. -/
def bareFrom (cursor : Cursor) (value : String) : Except SyntaxError (String × Cursor) :=
  match _peeked : cursor.peek with
  | none => .ok (value, cursor)
  | some b =>
    if b = 92 then
      let next := cursor.advance 1
      match _escaped : next.nextChar with
      | none => .error (cursor.error .trailingBackslash)
      | some (.invalid size) => .error (next.invalidEncoding size)
      | some (.char c w) => bareFrom (next.advance w) (value.push c)
    else if specials.contains b then .ok (value, cursor)
    else
      match _read : cursor.nextChar with
      | some (.char c w) => bareFrom (cursor.advance w) (value.push c)
      | some (.invalid size) => .error (cursor.invalidEncoding size)
      | none => .ok (value, cursor)
termination_by cursor.remaining
decreasing_by
  · exact Nat.lt_of_le_of_lt (Cursor.remaining_advance_le _ _)
      (Cursor.remaining_advance_lt (Cursor.offset_lt_of_peek _peeked) (by decide))
  · exact Cursor.remaining_advance_nextChar _read

/-- A bare run up to the first special byte that no backslash escapes; no match when it is
empty. -/
def bare (start : Cursor) : Scan String :=
  match bareFrom start "" with
  | .error e => .error e
  | .ok (value, next) => if next.offset = start.offset then .noMatch else .matched value next

/-- The segment at the cursor, and whether it is quoted. -/
def segment (cursor : Cursor) : Scan String × Bool :=
  match cursor.peek with
  | some 34 => (doubleQuoted cursor, true)
  | some 39 => (singleQuoted cursor, true)
  | _ => (bare cursor, false)

/-- The segments of a word from `cursor` on, with what was read so far and whether a quoted
segment was among them. -/
def wordFrom (cursor : Cursor) (value : String) (delimited : Bool) :
    Except SyntaxError (String × Cursor × Bool) :=
  match segment cursor with
  | (.error e, _) => .error e
  | (.noMatch, quoted) => .ok (value, cursor, delimited || quoted)
  | (.matched part next, quoted) =>
    if next.remaining < cursor.remaining then wordFrom next (value ++ part) (delimited || quoted)
    else .ok (value ++ part, next, delimited || quoted)
termination_by cursor.remaining

/-- A word: adjacent segments read as one string. It matches the empty string only when a
quoted segment was read. -/
def word (start : Cursor) : Scan String :=
  match wordFrom start "" false with
  | .error e => .error e
  | .ok (value, next, delimited) =>
    if next.offset = start.offset ∨ (value.isEmpty ∧ !delimited) then .noMatch
    else .matched value next

/-- A character as written between double quotes: quote, backslash, line feed, carriage return
and tab escaped, any other character as it is. -/
def escapeChar (c : Char) : String :=
  if c = '"' then "\\\""
  else if c = '\\' then "\\\\"
  else if c = '\n' then "\\n"
  else if c = '\r' then "\\r"
  else if c = '\t' then "\\t"
  else c.toString

/-- The string between double quotes, each character escaped as needed. -/
def doubleQuote (value : String) : String :=
  "\"" ++ String.join (value.toList.map escapeChar) ++ "\""

/-- The string as it is when it is a non-empty run without special bytes, otherwise
double-quoted. -/
def quote (value : String) : String :=
  if !value.isEmpty && !(Utf8.encode value).any specials.contains then value
  else doubleQuote value

end Shell

end DocExamples
