import DocExamples.Log.Event
import DocExamples.Shell.Run

namespace DocExamples

namespace Shell

/-- The state that reading command lines with inline files threads along: the files made so
far, the number the next one gets, and the events logged while reading. -/
structure InlineState where
  files : Dict (List UInt8)
  nextId : Nat
  log : List Log.Event

/-- The name under which inline file `id` is stored. -/
def inlineFileName (id : Nat) : String :=
  s!"/dev/fd/{id}"

/-- The event of running a built-in command. -/
def runningEvent (c : Command) : Log.Event :=
  ⟨.debug, Log.targetCommand, "running builtin", [("command", .shown c.display)]⟩

/-- The event of storing an inline file. -/
def storedEvent (name : String) (size : Nat) : Log.Event :=
  ⟨.debug, Log.targetInlineFile, "materialized inline file",
    [("file", .shown name), ("bytes", .count size)]⟩

/-- Runs a command read inside an inline file: its output, or the problem of its failure. -/
def runInline (c : Command) : Except Problem String :=
  match c.run with
  | .error failure => .error (.commandFailed c.display failure.exitCode failure)
  | .ok (code, output) => if code = 0 then .ok output else .error (.exitStatus c.display code)

/-- The commands of an inline file opened at `start`, from `cursor` on, with the output written
so far; on success the output and the cursor past the closing parenthesis. -/
def inlineCommandsFrom (start cursor : Cursor) (output : String) (state : InlineState) :
    Except SyntaxError (String × Cursor) × InlineState :=
  match command cursor with
  | .error e => (.error e, state)
  | .noMatch =>
    if cursor.atEnd then (.error (start.errorToEnd .missingCloseParen), state)
    else (.error (cursor.error .expectedCommand), state)
  | .matched (c, span) next =>
    let state := if (Builtin.find? c.name).isSome then
      { state with log := state.log ++ [runningEvent c] } else state
    match runInline c with
    | .error problem => (.error (span.error problem), state)
    | .ok written =>
      let output := output ++ written
      let after := next.skipBlanks
      match after.peek with
      | some 59 =>
        let after := (after.advance 1).skipBlanks
        if after.peek = some 41 then (.ok (output, after.advance 1), state)
        else if after.remaining < cursor.remaining then inlineCommandsFrom start after output state
        else (.ok (output, after), state)
      | some 41 => (.ok (output, after.advance 1), state)
      | none => (.error (start.errorToEnd .missingCloseParen), state)
      | some _ => (.error (after.error .missingSeparator), state)
termination_by cursor.remaining

/-- An inline file at `start`, stored as file `state.nextId`; the value is its name. -/
def inlineFile (start : Cursor) (state : InlineState) : Scan String × InlineState :=
  if start.startsWith [60, 40] then
    let cursor := (start.advance 2).skipBlanks
    if cursor.peek = some 41 then
      (.error (start.errorUntil (cursor.advance 1) .emptyInlineFile), state)
    else
      match inlineCommandsFrom start cursor "" state with
      | (.error e, state) => (.error e, state)
      | (.ok (output, next), state) =>
        let name := inlineFileName state.nextId
        let bytes := Utf8.encode output
        (.matched name next,
          { state with
            files := state.files.insert name bytes
            log := state.log ++ [storedEvent name bytes.length] })
  else (.noMatch, state)

/-- An argument of an example's command line: an inline file, which takes the next number, or
else a word. -/
def invocationArg (state : InlineState) (cursor : Cursor) : Scan String × InlineState :=
  match inlineFile cursor state with
  | (.matched name next, state) => (.matched name next, { state with nextId := state.nextId + 1 })
  | (.noMatch, state) => (word cursor, state)
  | (.error e, state) => (.error e, state)

/-- An example's command line, its inline files run and stored. -/
def invocation (start : Cursor) (state : InlineState) : Scan (Command × Span) × InlineState :=
  commandWith invocationArg state start

end Shell

end DocExamples
