import DocExamples.Proofs.Layout

namespace DocExamples

/-- What the blocks of a document have yielded so far: its examples and quoted files, the inline
files the examples made and the number the next one gets. -/
structure Findings where
  examples : List Example
  quotedFiles : List QuotedFile
  files : Dict (List UInt8)
  nextId : Nat

namespace Findings

/-- Nothing found yet; the first inline file gets the number shells give it. -/
def empty : Findings := ⟨[], [], Dict.empty, firstInlineId⟩

def toReport (found : Findings) (file : String) (warnings : List SyntaxError) : Report :=
  ⟨file, found.examples, found.quotedFiles, found.files, warnings⟩

end Findings

/-- The caption of a block: the last non-blank line among the lines outside blocks that stand
between it and the block before it. -/
def captionOf (before : List Line) : Option Line :=
  (before.filter fun line => !line.isBlank).getLast?

theorem captionOf_append_singleton (before : List Line) (line : Line) :
    captionOf (before ++ [line]) = if line.isBlank then captionOf before else some line := by
  cases blank : line.isBlank <;> simp [captionOf, blank]

/-- The blocks of a layout in document order, each with the lines it took after its opening line
and its caption; `before` holds the lines outside blocks since the last block. -/
def Segment.blocks (before : List Line) : List Segment → List OpenBlock
  | [] => []
  | .outside line :: rest => Segment.blocks (before ++ [line]) rest
  | .block opening (fenced, state) body :: rest =>
    ⟨(fenced.feedAll state body).1, opening, body, captionOf before⟩ :: Segment.blocks [] rest

namespace OpenBlock

/-- The command line of a block read as an example session, and the column after its `$ `: the
block's first content line starts with `$ ` and holds the program between spaces once a space is
appended. The line is the physical line the block took its first content line from, cut to the
bytes the block kept of it, which is less than the whole line when the block closed on it. -/
def commandLine? (o : OpenBlock) (program : String) : Option (Line × Nat) :=
  match o.block.lines.head?, o.lines.head? with
  | some first, some raw =>
    if !([36, 32].isPrefixOf first) ||
        (findSlice? (Utf8.encode (" " ++ program ++ " ")) (first ++ [32])).isNone then none
    else
      let indent := spacesUpTo o.block.indent raw.text
      some ({ raw with text := raw.text.take (indent + first.length) }, indent + 3)
  | _, _ => none

end OpenBlock

namespace Findings

/-- The example of a session block whose command line is `commandLine`, read from `column` on
after blanks, with the inline files made so far: the command must take the whole line up to
trailing blanks. The example has the line's number and, as its expected output, the block's
other content lines, each followed by a line feed. -/
def addSession (found : Findings) (o : OpenBlock) (commandLine : Line) (column : Nat) :
    Except DocError Findings :=
  let start := (Cursor.new commandLine column).skipBlanks
  match Shell.invocation start ⟨found.files, found.nextId, []⟩ with
  | (.noMatch, _) => .error (.atLine (start.error .expectedCommand))
  | (.error e, _) => .error (.atLine e)
  | (.matched (command, _) rest, made) =>
    if rest.skipBlanks.atEnd then
      .ok { found with
        examples := found.examples ++
          [⟨commandLine.number, command, (o.block.lines.drop 1).flatMap (· ++ [10])⟩]
        files := made.files
        nextId := made.nextId }
    else .error (.atLine (rest.skipBlanks.errorToEnd .unexpectedText))

end Findings

namespace Project

variable (p : Project)

/-- The quoted file of a block whose caption names `path` in the document `file`: the file is read
from the inline files made so far, and then from the project; it must hold the block's content. -/
def quotedFinding (file : String) (found : Findings) (o : OpenBlock) (path : String) :
    Except DocError Findings :=
  match (overlayRead [.memory found.files, p.root.layer] path).1 with
  | .error e => .error (.files e)
  | .ok actual =>
    if actual = o.block.content then
      .ok { found with quotedFiles := found.quotedFiles ++ [⟨o.block.startLine, path, o.block.tag⟩] }
    else
      .error (.quotedMismatch path s!"{file}:{o.block.startLine}"
        (Diff.unified (Utf8.lossy actual) (Utf8.lossy o.block.content) path "documentation"))

/-- What a finished block adds to the findings, by its tag: a shell tag makes an example of a
session block, a tag with a file extension a quoted file of a block whose caption names one. -/
def blockFinding (file : String) (found : Findings) (o : OpenBlock) : Except DocError Findings :=
  if p.config.isShellTag o.block.tag then
    match o.commandLine? p.config.program with
    | some (commandLine, column) => found.addSession o commandLine column
    | none => .ok found
  else
    match p.config.extensionFor o.block.tag with
    | some extension =>
      match o.caption.bind fun caption => quotedFileName caption.text extension with
      | some path => p.quotedFinding file found o path
      | none => .ok found
    | none => .ok found

/-- The findings of the blocks of the document `file`, in order, up to the first error. -/
def findings (file : String) (blocks : List OpenBlock) : Except DocError Findings :=
  blocks.foldlM (p.blockFinding file) Findings.empty

end Project

namespace Scanner

def findings (s : Scanner) : Findings :=
  ⟨s.report.examples, s.report.quotedFiles, s.report.inlineFiles, s.nextId⟩

@[simp] theorem addWarnings_findings (s : Scanner) (warnings : List SyntaxError) :
    (s.addWarnings warnings).findings = s.findings := rfl

@[simp] theorem addWarnings_file (s : Scanner) (warnings : List SyntaxError) :
    (s.addWarnings warnings).report.file = s.report.file := rfl

end Scanner

/-- The findings a run leaves, or the error it stopped at. -/
def outcome : Except DocError Unit × Scanner → Except DocError Findings
  | (.ok (), s) => .ok s.findings
  | (.error e, _) => .error e

namespace Project

variable (p : Project)

theorem commandLine_cut (raw : Line) (stop : Nat) :
    (if stop = raw.length then raw else { raw with text := raw.text.take stop }) =
      { raw with text := raw.text.take stop } := by
  split
  · rename_i whole
    simp [whole, Line.length]
  · rfl

theorem checkExample_outcome (o : OpenBlock) (s : Scanner) :
    outcome ((p.checkExample o).run.run s) =
      match o.commandLine? p.config.program with
      | some (commandLine, column) => s.findings.addSession o commandLine column
      | none => .ok s.findings := by
  unfold checkExample OpenBlock.commandLine?
  cases o.block.lines.head? with
  | none => rfl
  | some first =>
    cases o.lines.head? with
    | none => rfl
    | some raw =>
      dsimp only
      split
      · rfl
      · simp only [commandLine_cut, run_bind, run_get, run_set, Findings.addSession, Scanner.findings]
        generalize Shell.invocation _ _ = read
        rcases read with ⟨⟨⟨command, span⟩, rest⟩ | _ | e, made⟩
        · dsimp only
          cases rest.skipBlanks.atEnd <;> rfl
        · rfl
        · rfl

theorem checkQuoted_outcome (o : OpenBlock) (extension : String) (s : Scanner) :
    outcome ((p.checkQuoted o extension).run.run s) =
      match o.caption.bind fun caption => quotedFileName caption.text extension with
      | some path => p.quotedFinding s.report.file s.findings o path
      | none => .ok s.findings := by
  unfold checkQuoted
  cases o.caption.bind fun caption => quotedFileName caption.text extension with
  | none => rfl
  | some path =>
    simp only [run_bind, run_get, run_modify, quotedFinding, Scanner.findings]
    generalize overlayRead _ path = read
    rcases read with ⟨_ | actual, events⟩
    · rfl
    · dsimp only
      by_cases same : actual = o.block.content
      · simp only [same, ne_eq, not_true_eq_false, if_true, if_false]
        rfl
      · simp only [same, ne_eq, not_false_eq_true, if_true, if_false]
        rfl

theorem finishBlock_outcome (o : OpenBlock) (s : Scanner) :
    outcome ((p.finishBlock o).run.run s) = p.blockFinding s.report.file s.findings o := by
  unfold finishBlock blockFinding
  by_cases shell : p.config.isShellTag o.block.tag
  · simp only [shell, if_true]
    exact p.checkExample_outcome o s
  · simp only [shell, if_false, Bool.false_eq_true]
    cases p.config.extensionFor o.block.tag with
    | some extension => exact p.checkQuoted_outcome o extension s
    | none => rfl

end Project

namespace Segment

/-- The warnings raised while the lines of a segment are read: looking for a fence on its first
line, then feeding each later line to its block. -/
def raised : Segment → List SyntaxError
  | .outside line => openingWarnings line
  | .block opening (fenced, state) body => openingWarnings opening ++ (fenced.feedAll state body).2.2

/-- That the block of a segment was never closed, when no line of the segment closed it. -/
def unclosed : Segment → List SyntaxError
  | .outside _ => []
  | .block opening (fenced, state) body =>
    if (fenced.feedAll state body).2.1 = .opened then
      [(Cursor.new opening ((fenced.feedAll state body).1.indent + 1)).error .unclosedFence]
    else []

end Segment

namespace Project

variable (p : Project)

/-- The warnings of the segments of a document that its check reads, in order: those of every
segment up to and including the segment of the first block whose check fails. `before` holds the
lines outside blocks since the last block, and `found` what the blocks before have yielded. -/
def warningsRead (file : String) : List Line → Findings → List Segment → List SyntaxError
  | _, _, [] => []
  | before, found, .outside line :: rest =>
    openingWarnings line ++ warningsRead file (before ++ [line]) found rest
  | before, found, .block opening (fenced, state) body :: rest =>
    (Segment.block opening (fenced, state) body).raised ++
      (Segment.block opening (fenced, state) body).unclosed ++
      match p.blockFinding file found ⟨(fenced.feedAll state body).1, opening, body, captionOf before⟩ with
      | .ok found => warningsRead file [] found rest
      | .error _ => []

/-- Checking a block segment from a scanner with no open block collects the segment's warnings and
then finishes its block, which adds what `blockFinding` finds or fails with its error; it leaves no
block open and no caption. -/
theorem runSegment_block_step {opening : Line} {fenced : FencedBlock} {state : FenceState}
    {body : List Line} {s : Scanner} {before : List Line} (closed : s.openBlock = none)
    (caption : s.caption = captionOf before) :
    let segment := Segment.block opening (fenced, state) body
    let ran := (p.runSegment segment).run.run s
    ran.2.report.warnings = s.report.warnings ++ segment.raised ++ segment.unclosed ∧
      ran.2.report.file = s.report.file ∧ ran.2.openBlock = none ∧ ran.2.caption = none ∧
      outcome ran = p.blockFinding s.report.file s.findings
        ⟨(fenced.feedAll state body).1, opening, body, captionOf before⟩ := by
  intro segment ran
  have segmentRun := @runSegment_block p opening fenced state body s
  rw [caption] at segmentRun
  generalize named : ({ s.addWarnings (openingWarnings opening) with caption := none }.addWarnings _) = s'
    at segmentRun
  have keeps := p.finishBlock_keeps ⟨(fenced.feedAll state body).1, opening, body, captionOf before⟩ s'
  have found := p.finishBlock_outcome ⟨(fenced.feedAll state body).1, opening, body, captionOf before⟩ s'
  rw [← segmentRun] at keeps found
  refine ⟨?_, ?_, ?_, ?_, ?_⟩
  · rw [keeps.warnings, ← named]
    simp [Scanner.addWarnings, segment, Segment.raised, Segment.unclosed]
  · rw [keeps.file, ← named]
    rfl
  · rw [keeps.openBlock, ← named]
    exact closed
  · rw [keeps.caption, ← named]
    rfl
  · rw [found, ← named]
    rfl

/-- Checking the segments of a layout one after another, from a scanner with no open block and the
caption of the lines `before`, finds what the fold over their blocks finds and collects the
warnings of the segments it reads; the document it is about stays the same. -/
theorem runSegments_reads (segments : List Segment) :
    ∀ (before : List Line) (s : Scanner), s.openBlock = none → s.caption = captionOf before →
      outcome ((segments.forM p.runSegment).run.run s) =
          (Segment.blocks before segments).foldlM (p.blockFinding s.report.file) s.findings ∧
        ((segments.forM p.runSegment).run.run s).2.report.warnings =
          s.report.warnings ++ p.warningsRead s.report.file before s.findings segments ∧
        ((segments.forM p.runSegment).run.run s).2.report.file = s.report.file := by
  induction segments with
  | nil =>
    intro before s _ _
    refine ⟨rfl, ?_, rfl⟩
    rw [warningsRead, List.append_nil]
    rfl
  | cons segment rest ih =>
    intro before s closed caption
    cases segment with
    | outside line =>
      rw [forM_cons_eq, runSegment, run_bind_ok (run_passLine line s)]
      obtain ⟨found, warned, file⟩ :=
        ih (before ++ [line])
          { s.addWarnings (openingWarnings line) with
            caption := if line.isBlank then s.caption else some line }
          closed (by rw [captionOf_append_singleton, ← caption])
      refine ⟨found, ?_, file⟩
      rw [warned]
      simp [warningsRead, Scanner.addWarnings]
      rfl
    | block opening opened body =>
      obtain ⟨fenced, state⟩ := opened
      obtain ⟨warned, sameFile, stillClosed, noCaption, found⟩ :=
        @runSegment_block_step p opening fenced state body s before closed caption
      simp only [Segment.blocks, List.foldlM_cons, warningsRead]
      rw [forM_cons_eq, run_bind]
      rcases ran : (p.runSegment (.block opening (fenced, state) body)).run.run s with
        ⟨_ | ⟨⟩, t⟩
      all_goals rw [ran] at warned sameFile found stillClosed noCaption
      · rename_i e
        have failed : p.blockFinding s.report.file s.findings
            ⟨(fenced.feedAll state body).1, opening, body, captionOf before⟩ = .error e := found.symm
        rw [failed]
        exact ⟨rfl, by simpa using warned, sameFile⟩
      · have finished : p.blockFinding s.report.file s.findings
            ⟨(fenced.feedAll state body).1, opening, body, captionOf before⟩ = .ok t.findings :=
          found.symm
        rw [finished]
        obtain ⟨foundRest, warnedRest, fileRest⟩ := ih [] t stillClosed noCaption
        refine ⟨?_, ?_, fileRest.trans sameFile⟩
        · rw [foundRest, sameFile]
          rfl
        · rw [warnedRest, warned, sameFile]
          simp

end Project

/-- The check of a document with a layout is the fold over the blocks of the layout: it succeeds
exactly when the fold does, with the fold's findings, and otherwise fails with the fold's error;
either way with the warnings of the segments it read. -/
theorem checkDocument_findings (p : Project) {file : String} {bytes : List UInt8}
    {segments : List Segment} (layout : Layout (documentLines file bytes) segments) :
    (p.checkDocument file bytes).1 =
      match p.findings file (Segment.blocks [] segments) with
      | .ok found => .ok (found.toReport file (p.warningsRead file [] Findings.empty segments))
      | .error e => .error (DocError.join (p.warningsRead file [] Findings.empty segments) e) := by
  rw [checkDocument_of_layout p layout]
  generalize initial : (⟨⟨file, [], [], Dict.empty, []⟩, firstInlineId, none, none, []⟩ : Scanner) = s
  obtain ⟨found, warned, sameFile⟩ :=
    p.runSegments_reads segments [] s (by rw [← initial]) (by rw [← initial]; rfl)
  have start : s.findings = Findings.empty ∧ s.report.file = file ∧ s.report.warnings = [] := by
    rw [← initial]
    exact ⟨rfl, rfl, rfl⟩
  rw [start.1, start.2.1] at found
  rw [start.1, start.2.1, start.2.2, List.nil_append] at warned
  rw [start.2.1] at sameFile
  unfold Project.findings
  generalize (segments.forM p.runSegment).run.run s = ran at found warned sameFile ⊢
  rcases ran with ⟨_ | ⟨⟩, t⟩
  all_goals
    have collected : t.report.warnings = p.warningsRead file [] Findings.empty segments := warned
    rw [← found, ← collected]
  · rfl
  · have named : t.report.file = file := sameFile
    subst named
    rfl

/-- Any part of a report that its findings determine is, for the report of a successful check,
that part of the findings of the document's layout; and a check fails, with the warnings before
it, exactly when that fold fails, with the fold's error. -/
theorem checkDocument_view (p : Project) (file : String) (bytes : List UInt8) {α : Type}
    (ofReport : Report → α) (ofFindings : Findings → α)
    (agree : ∀ found warnings, ofReport (found.toReport file warnings) = ofFindings found) :
    ∃ segments, Layout (documentLines file bytes) segments ∧ ∃ warnings,
      (p.checkDocument file bytes).1.map ofReport =
        ((p.findings file (Segment.blocks [] segments)).map ofFindings).mapError
          (DocError.join warnings) := by
  obtain ⟨segments, layout⟩ := exists_layout (documentLines file bytes)
  refine ⟨segments, layout, p.warningsRead file [] Findings.empty segments, ?_⟩
  rw [checkDocument_findings p layout]
  cases p.findings file (Segment.blocks [] segments) with
  | ok found => exact congrArg Except.ok (agree found _)
  | error e => rfl

/-- The examples of a document are those of its session blocks in document order: a check that
succeeds reports the examples the fold over the blocks of the document's layout finds, and the
check fails, with the warnings before it, exactly when that fold fails. -/
theorem checkDocument_examples (p : Project) (file : String) (bytes : List UInt8) :
    ∃ segments, Layout (documentLines file bytes) segments ∧ ∃ warnings,
      (p.checkDocument file bytes).1.map Report.examples =
        ((p.findings file (Segment.blocks [] segments)).map Findings.examples).mapError
          (DocError.join warnings) :=
  checkDocument_view p file bytes Report.examples Findings.examples fun _ _ => rfl

/-- The quoted files of a document are its blocks whose caption names a file that holds their
content, in document order: a check that succeeds reports the quoted files the fold over the blocks
of the document's layout finds, and a check fails, with the warnings before it, with the fold's
error: a file that cannot be read, or one whose bytes differ from the block's content. -/
theorem checkDocument_quotedFiles (p : Project) (file : String) (bytes : List UInt8) :
    ∃ segments, Layout (documentLines file bytes) segments ∧ ∃ warnings,
      (p.checkDocument file bytes).1.map Report.quotedFiles =
        ((p.findings file (Segment.blocks [] segments)).map Findings.quotedFiles).mapError
          (DocError.join warnings) :=
  checkDocument_view p file bytes Report.quotedFiles Findings.quotedFiles fun _ _ => rfl

end DocExamples
