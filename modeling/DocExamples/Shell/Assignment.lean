import DocExamples.Shell.Word

namespace DocExamples

namespace Shell

/-- Whether a character may stand in a name, `started` telling whether it has characters
already: an ASCII letter or underscore anywhere, an ASCII digit after the first. -/
def nameChar (started : Bool) (c : Char) : Bool :=
  c = '_' || c.isAlpha || (started && c.isDigit)

/-- The rest of a name from `cursor` on, with what was read so far. A stretch that is no
character is an error, wherever it stands. -/
def identifierFrom (cursor : Cursor) (name : String) : Except SyntaxError (String × Cursor) :=
  match _read : cursor.nextChar with
  | none => .ok (name, cursor)
  | some (.invalid size) => .error (cursor.invalidEncoding size)
  | some (.char c width) =>
    if nameChar (!name.isEmpty) c then identifierFrom (cursor.advance width) (name.push c)
    else .ok (name, cursor)
termination_by cursor.remaining
decreasing_by exact Cursor.remaining_advance_nextChar _read

/-- A variable name; no match when none starts here. -/
def identifier (start : Cursor) : Scan String :=
  match identifierFrom start "" with
  | .error e => .error e
  | .ok (name, next) => if name.isEmpty then .noMatch else .matched name next

/-- An assignment `NAME=WORD`; without the `=` there is no match, so the name can be read
again as something else. -/
def assignment (start : Cursor) : Scan (String × String) :=
  match identifier start with
  | .error e => .error e
  | .noMatch => .noMatch
  | .matched name cursor =>
    if cursor.peek = some 61 then
      let cursor := cursor.advance 1
      match word cursor with
      | .matched value next => .matched (name, value) next
      | .noMatch => .matched (name, "") cursor
      | .error e => .error e
    else .noMatch

end Shell

end DocExamples
