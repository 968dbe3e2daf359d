import DocExamples.Fence
import DocExamples.Shell.InlineFile
import DocExamples.Config.Basic
import DocExamples.Diff.Unified

namespace DocExamples

/-- A runnable example of a document. -/
structure Example where
  /-- The line of the `$ ` command line. -/
  line : Nat
  /-- The command line, each inline file replaced by its name. -/
  command : Shell.Command
  /-- The lines after the command line in the block, each followed by a line break. -/
  expectedOutput : List UInt8
  deriving DecidableEq, Repr

/-- A quoted file that was found to hold what the project's file holds. -/
structure QuotedFile where
  line : Nat
  path : String
  tag : String
  deriving DecidableEq, Repr

/-- Everything learned from one document. -/
structure Report where
  file : String
  examples : List Example
  quotedFiles : List QuotedFile
  /-- The files made by the inline files of the examples. -/
  inlineFiles : Dict (List UInt8)
  warnings : List SyntaxError

/-- The number of the first inline file of a document, as shells number them. -/
def firstInlineId : Nat := 63

/-- What a check reads: the config and the project's root directory. -/
structure Project where
  config : Config
  root : Root

/-- A block that is taking lines. -/
structure OpenBlock where
  block : FencedBlock
  /-- The line that opened it. -/
  opening : Line
  /-- The lines fed to it after the opening line. -/
  lines : List Line
  /-- The last non-blank line before it, outside any block. -/
  caption : Option Line

/-- The state of a check of one document. -/
structure Scanner where
  report : Report
  nextId : Nat
  openBlock : Option OpenBlock
  caption : Option Line
  log : List Log.Event

/-- A step of a check: it changes the scanner and may fail. -/
abbrev CheckM := ExceptT DocError (StateM Scanner)

/-- Logs an event. -/
def note (event : Log.Event) : CheckM Unit :=
  modify fun s => { s with log := s.log ++ [event] }

/-- Collects warnings, logging each. -/
def collect (warnings : List SyntaxError) : CheckM Unit :=
  modify fun s =>
    { s with
      report := { s.report with warnings := s.report.warnings ++ warnings }
      log := s.log ++ warnings.map fun w =>
        ⟨.debug, Log.targetWarnings, "collected warning", [("warning", .shown w.header)]⟩ }

/-- The first file name between backticks in the caption that is longer than the extension and
ends with it. Names stand between the first and second backtick, the third and fourth, and so on;
the caption is read as text, bad bytes becoming U+FFFD. -/
def quotedFileName (caption : List UInt8) (extension : String) : Option String :=
  let parts := (Utf8.lossy caption).splitOn "`"
  let names := ((List.range (parts.length - 1)).filter (· % 2 = 1)).filterMap (parts[·]?)
  names.find? fun name => name.utf8ByteSize > extension.utf8ByteSize && name.endsWith extension

/-- The 1-based column of the first fence of three backticks or tildes on a line, when text
other than white space stands before it. -/
def midLineFence (text : List UInt8) : Option Nat :=
  let found := [findSlice? [96, 96, 96] text, findSlice? [126, 126, 126] text].filterMap id
  match found.min? with
  | none => none
  | some at_ => if (trimAscii (text.take at_)).isEmpty then none else some (at_ + 1)

/-- The line without the carriage return at its end, when it has one. -/
def dropReturn (text : List UInt8) : List UInt8 :=
  if text.getLast? = some 13 then text.dropLast else text

/-- The lines a reader gives of bytes that it reads without failing: the bytes split at line
feeds, with no empty line after a final line feed. -/
def readerLines (bytes : List UInt8) : List (Except IoFailure (List UInt8)) :=
  let parts := bytes.splitOn 10
  let parts := if bytes.isEmpty || bytes.getLast? = some 10 then parts.dropLast else parts
  parts.map .ok

namespace Project

/-- Checks a finished block that may be an example session. -/
def checkExample (p : Project) (o : OpenBlock) : CheckM Unit := do
  match o.block.lines.head?, o.lines.head? with
  | some first, some raw =>
    let program := Utf8.encode (" " ++ p.config.program ++ " ")
    if !([36, 32].isPrefixOf first) || (findSlice? program (first ++ [32])).isNone then
      note ⟨.debug, Log.targetDocument, "shell block is not an example", [("line", .count raw.number)]⟩
    else
      let indent := spacesUpTo o.block.indent raw.text
      let stop := indent + first.length
      let commandLine := if stop = raw.length then raw else { raw with text := raw.text.take stop }
      let start := (Cursor.new commandLine (indent + 3)).skipBlanks
      let s ← get
      let (scan, st) := Shell.invocation start ⟨s.report.inlineFiles, s.nextId, []⟩
      set { s with
        report := { s.report with inlineFiles := st.files }
        nextId := st.nextId
        log := s.log ++ st.log }
      match scan with
      | .noMatch => throw (.atLine (start.error .expectedCommand))
      | .error e => throw (.atLine e)
      | .matched (command, _) rest =>
        let rest := rest.skipBlanks
        if !rest.atEnd then throw (.atLine (rest.errorToEnd .unexpectedText))
        let expected := (o.block.lines.drop 1).flatMap (· ++ [10])
        note ⟨.debug, Log.targetDocument, "extracted example",
          [("line", .count raw.number), ("command", .shown command.display)]⟩
        modify fun s => { s with
          report := { s.report with examples := s.report.examples ++ [⟨raw.number, command, expected⟩] } }
  | _, _ => pure ()

/-- Checks a finished block that may quote a file with the extension. -/
def checkQuoted (p : Project) (o : OpenBlock) (extension : String) : CheckM Unit := do
  let start := o.block.startLine
  match o.caption.bind fun caption => quotedFileName caption.text extension with
  | none =>
    note ⟨.debug, Log.targetDocument, "content block without a quoted file name",
      [("line", .count start), ("extension", .quoted extension)]⟩
  | some path =>
    let s ← get
    let layers := [FileLayer.memory s.report.inlineFiles, p.root.layer]
    let (read, events) := overlayRead layers path
    modify fun s => { s with log := s.log ++ events }
    match read with
    | .error e => throw (.files e)
    | .ok actual =>
      let expected := o.block.content
      if actual ≠ expected then
        let file := s.report.file
        throw (.quotedMismatch path s!"{file}:{start}"
          (Diff.unified (Utf8.lossy actual) (Utf8.lossy expected) path "documentation"))
      note ⟨.debug, Log.targetDocument, "quoted file matches",
        [("path", .shown path), ("line", .count start)]⟩
      modify fun s => { s with
        report := { s.report with quotedFiles := s.report.quotedFiles ++ [⟨start, path, o.block.tag⟩] } }

/-- Checks a finished block by its tag. -/
def finishBlock (p : Project) (o : OpenBlock) : CheckM Unit :=
  let tag := o.block.tag
  if p.config.isShellTag tag then p.checkExample o
  else match p.config.extensionFor tag with
    | some extension => p.checkQuoted o extension
    | none => note ⟨.trace, Log.targetDocument, "skipping block",
        [("line", .count o.block.startLine), ("tag", .quoted tag)]⟩

/-- Reads one line of the document. -/
def feed (p : Project) (line : Line) : CheckM Unit := do
  match (← get).openBlock with
  | some o =>
    let (block, state, warnings) := o.block.feedLine line 1
    collect warnings
    let o := { o with block, lines := o.lines ++ [line] }
    match state with
    | .closed =>
      modify fun s => { s with openBlock := none }
      p.finishBlock o
    | .opened => modify fun s => { s with openBlock := some o }
  | none =>
    let (atStart, warnings) := FencedBlock.openAt? line 1
    collect warnings
    let opened ← match atStart with
      | some found => pure (some found)
      | none =>
        match midLineFence line.text with
        | none => pure none
        | some column => do
          let (found, warnings) := FencedBlock.openAt? line column
          collect warnings
          pure found
    match opened with
    | none => if !line.isBlank then modify fun s => { s with caption := some line }
    | some (block, state) =>
      let s ← get
      let o : OpenBlock := ⟨block, line, [], s.caption⟩
      set { s with caption := none }
      match state with
      | .closed => p.finishBlock o
      | .opened => modify fun s => { s with openBlock := some o }

/-- Ends the document: a block still open is reported as never closed and then checked. -/
def finish (p : Project) : CheckM Unit := do
  match (← get).openBlock with
  | none => pure ()
  | some o =>
    modify fun s => { s with openBlock := none }
    collect [(Cursor.new o.opening (o.block.indent + 1)).error .unclosedFence]
    p.finishBlock o

/-- Reads the lines a reader gives, numbered from `number`, each without its carriage return. A
line that could not be read stops the reading with that failure. -/
def readLines (p : Project) (file : String) : Nat → List (Except IoFailure (List UInt8)) → CheckM Unit
  | _, [] => pure ()
  | number, .ok text :: rest => do
    p.feed ⟨dropReturn text, file, number⟩
    p.readLines file (number + 1) rest
  | _, .error cause :: _ => throw (.readFailed cause)

/-- Runs the steps of a check of the document `file` from the empty scanner: the report or the
error, with the warnings collected before it; and the events logged either way. -/
def runCheck (file : String) (steps : CheckM Unit) : Except DocError Report × List Log.Event :=
  let initial : Scanner :=
    { report := ⟨file, [], [], Dict.empty, []⟩, nextId := firstInlineId, openBlock := none,
      caption := none, log := [] }
  let (result, s) := (steps.run).run initial
  match result with
  | .ok () => (.ok s.report, s.log)
  | .error e => (.error (DocError.join s.report.warnings e), s.log)

/-- Checks a document named `file` as a reader gives its lines, then its end. -/
def checkReader (p : Project) (file : String) (reads : List (Except IoFailure (List UInt8))) :
    Except DocError Report × List Log.Event :=
  runCheck file (p.readLines file 1 reads *> p.finish)

/-- Checks a document named `file` with these bytes, read by a reader that does not fail. -/
def checkDocument (p : Project) (file : String) (bytes : List UInt8) :
    Except DocError Report × List Log.Event :=
  p.checkReader file (readerLines bytes)

/-- Checks the document at `document` below the project root. A file that opens but cannot be read
fails on its first line. -/
def checkFile (p : Project) (document : String) : Except DocError Report × List Log.Event :=
  let checking : Log.Event := ⟨.debug, Log.targetDocument, "checking document",
    [("document", .shown document)]⟩
  match p.root.layer.openPath document with
  | (.error e, log) => (.error (.files e), checking :: log)
  | (.ok opened, log) =>
    let reads := match opened with
      | .ok bytes => readerLines bytes
      | .error cause => [.error cause]
    let (result, more) := p.checkReader document reads
    (result, checking :: log ++ more)

/-- Checks every configured document in order, stopping at the first error. -/
def checkAll (p : Project) : Except DocError (List Report) × List Log.Event :=
  p.config.documents.foldl (fun (acc : Except DocError (List Report) × List Log.Event) document =>
    match acc with
    | (.error e, log) => (.error e, log)
    | (.ok reports, log) =>
      match p.checkFile document with
      | (.ok report, more) => (.ok (reports ++ [report]), log ++ more)
      | (.error e, more) => (.error e, log ++ more)) (.ok [], [])

end Project

end DocExamples
