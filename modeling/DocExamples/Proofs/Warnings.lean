import DocExamples.Proofs.Findings

namespace DocExamples

namespace Cursor

variable (c stop : Cursor) (problem : Problem)

@[simp] theorem new_line (line : Line) (column : Nat) : (Cursor.new line column).line = line := rfl

@[simp] theorem skipBlanks_line : c.skipBlanks.line = c.line := rfl

@[simp] theorem error_line : (c.error problem).line = c.line := rfl

@[simp] theorem error_problem : (c.error problem).problem = problem := rfl

@[simp] theorem errorUntil_line : (c.errorUntil stop problem).line = c.line := rfl

@[simp] theorem errorUntil_problem : (c.errorUntil stop problem).problem = problem := rfl

@[simp] theorem errorToEnd_line : (c.errorToEnd problem).line = c.line := rfl

@[simp] theorem errorToEnd_problem : (c.errorToEnd problem).problem = problem := rfl

end Cursor

/-- A warning raised while `line` is read: it stands on that line, and it is not the warning
that a block was never closed, which only the end of a document raises. -/
def SyntaxError.RaisedOn (w : SyntaxError) (line : Line) : Prop :=
  w.line = line ∧ w.problem ≠ .unclosedFence

/-- Warnings raised while the lines are read, in the order of the lines. -/
def RaisedAlong (lines : List Line) (warnings : List SyntaxError) : Prop :=
  (∀ w ∈ warnings, ∃ line ∈ lines, w.RaisedOn line) ∧
    warnings.Pairwise fun a b => a.line.number ≤ b.line.number

namespace RaisedAlong

variable {lines more : List Line} {warnings later : List SyntaxError}

theorem nil : RaisedAlong lines [] := ⟨by simp, .nil⟩

theorem single {line : Line} (on : ∀ w ∈ warnings, w.RaisedOn line) :
    RaisedAlong [line] warnings := by
  refine ⟨fun w member => ⟨line, List.mem_singleton_self _, on w member⟩, ?_⟩
  refine List.pairwise_of_forall_mem_list fun a first b second => ?_
  rw [(on a first).1, (on b second).1]

theorem append (first : RaisedAlong lines warnings) (second : RaisedAlong more later)
    (numbers : (lines ++ more).Pairwise fun a b => a.number < b.number) :
    RaisedAlong (lines ++ more) (warnings ++ later) := by
  refine ⟨fun w member => ?_, List.pairwise_append.mpr ⟨first.2, second.2, fun a inFirst b inSecond => ?_⟩⟩
  · rcases List.mem_append.mp member with inFirst | inSecond
    · obtain ⟨line, inLines, on⟩ := first.1 w inFirst
      exact ⟨line, List.mem_append_left _ inLines, on⟩
    · obtain ⟨line, inLines, on⟩ := second.1 w inSecond
      exact ⟨line, List.mem_append_right _ inLines, on⟩
  · obtain ⟨lineA, inLinesA, onA⟩ := first.1 a inFirst
    obtain ⟨lineB, inLinesB, onB⟩ := second.1 b inSecond
    rw [onA.1, onB.1]
    exact Nat.le_of_lt ((List.pairwise_append.mp numbers).2.2 lineA inLinesA lineB inLinesB)

end RaisedAlong

namespace FencedBlock

theorem feedLine_raisedOn (b : FencedBlock) (line : Line) (column : Nat) :
    ∀ w ∈ (b.feedLine line column).2.2, w.RaisedOn line := by
  unfold feedLine
  dsimp only
  split
  · simp
  · split
    · split <;> simp
    · split_ifs <;> simp [SyntaxError.RaisedOn]

theorem openAt?_raisedOn (line : Line) (column : Nat) :
    ∀ w ∈ (openAt? line column).2, w.RaisedOn line := by
  unfold openAt?
  dsimp only
  split
  · simp
  · split
    · simp
    · split
      · simp
      · split
        · split_ifs <;> simp [SyntaxError.RaisedOn]
        · intro w member
          simp only [List.mem_append] at member
          rcases member with interrupts | fed
          · split_ifs at interrupts <;> simp_all [SyntaxError.RaisedOn]
          · exact feedLine_raisedOn _ line _ w fed

theorem feedAll_raisedAlong (b : FencedBlock) (state : FenceState) {body : List Line}
    (numbers : body.Pairwise fun a b => a.number < b.number) :
    RaisedAlong body (b.feedAll state body).2.2 := by
  induction body generalizing b state with
  | nil => exact .nil
  | cons line rest ih =>
    exact (RaisedAlong.single (feedLine_raisedOn b line 1)).append
      (ih _ _ (List.pairwise_cons.mp numbers).2) numbers

end FencedBlock

theorem openingWarnings_raisedOn (line : Line) : ∀ w ∈ openingWarnings line, w.RaisedOn line := by
  have atStart := FencedBlock.openAt?_raisedOn line 1
  unfold openingWarnings
  split
  · rename_i opened
    rw [opened] at atStart
    exact atStart
  · rename_i opened
    rw [opened] at atStart
    refine List.forall_mem_append.mpr ⟨atStart, ?_⟩
    split
    · simp
    · exact FencedBlock.openAt?_raisedOn line _

theorem Opens.feedAll_closed {line closer : Line} {block : FencedBlock} {body : List Line}
    (opens : Opens line (block, .opened)) (closerLater : line.number < closer.number)
    (closes : block.terminator <:+: closer.text) :
    (block.feedAll .opened (body ++ [closer])).2.1 = .closed := by
  have closed : ((block.feedAll .opened body).1.feedLine closer 1).2.1 = .closed :=
    opens.closes_at closerLater closes
  simp [FencedBlock.feedAll_append, FencedBlock.feedAll, closed]

namespace Segment

theorem unclosed_shape (segment : Segment) :
    segment.unclosed.length ≤ 1 ∧ ∀ w ∈ segment.unclosed, w.problem = .unclosedFence := by
  match segment with
  | .outside _ => simp [unclosed]
  | .block opening (fenced, state) body =>
    simp only [unclosed]
    split <;> simp

theorem raised_block {opening : Line} {fenced : FencedBlock} {state : FenceState} {body : List Line}
    (numbers : (opening :: body).Pairwise fun a b => a.number < b.number) :
    RaisedAlong (opening :: body) (Segment.block opening (fenced, state) body).raised :=
  (RaisedAlong.single (openingWarnings_raisedOn opening)).append
    (FencedBlock.feedAll_raisedAlong fenced state (List.pairwise_cons.mp numbers).2) numbers

end Segment

/-- Warnings in the order a check reports them: those raised along the lines, then at most the one
that a block was never closed. -/
def ReportOrder (lines : List Line) (warnings : List SyntaxError) : Prop :=
  ∃ raised tail, warnings = raised ++ tail ∧ RaisedAlong lines raised ∧
    tail.length ≤ 1 ∧ ∀ w ∈ tail, w.problem = .unclosedFence

namespace ReportOrder

variable {lines more : List Line} {raised warnings : List SyntaxError}

theorem nil : ReportOrder lines [] := ⟨[], [], rfl, .nil, by simp, by simp⟩

theorem raised_append (along : RaisedAlong lines raised)
    (numbers : (lines ++ more).Pairwise fun a b => a.number < b.number)
    (order : ReportOrder more warnings) : ReportOrder (lines ++ more) (raised ++ warnings) := by
  obtain ⟨after, tail, split, alongAfter, single, unclosed⟩ := order
  exact ⟨raised ++ after, tail, by rw [split, List.append_assoc], along.append alongAfter numbers,
    single, unclosed⟩

theorem unclosed (along : RaisedAlong lines raised) (segment : Segment) :
    ReportOrder lines (raised ++ segment.unclosed) :=
  ⟨raised, segment.unclosed, rfl, along, segment.unclosed_shape.1, segment.unclosed_shape.2⟩

end ReportOrder

namespace Project

variable (p : Project) (file : String)

theorem reportOrder_after {rest : List Line} {segments : List Segment}
    (later : ∀ found, ReportOrder rest (p.warningsRead file [] found segments))
    (result : Except DocError Findings) :
    ReportOrder rest (match result with
      | .ok found => p.warningsRead file [] found segments
      | .error _ => []) := by
  cases result with
  | ok found => exact later found
  | error _ => exact .nil

/-- The warnings the check of a layout reads come in the order of the lines they were raised on,
then at most one that the last block was never closed. Induction on the layout. -/
theorem warningsRead_order {lines : List Line} {segments : List Segment} (layout : Layout lines segments)
    (numbers : lines.Pairwise fun a b => a.number < b.number) :
    ∀ before found, ReportOrder lines (p.warningsRead file before found segments) := by
  induction layout with
  | nil => exact fun _ _ => .nil
  | @outside line rest segments opensNone tail ih =>
    intro before found
    rw [warningsRead, show line :: rest = [line] ++ rest from rfl]
    exact ReportOrder.raised_append (RaisedAlong.single (openingWarnings_raisedOn line)) numbers
      (ih (List.pairwise_cons.mp numbers).2 (before ++ [line]) found)
  | @closedOnOpening line block rest segments opens backtick tail ih =>
    intro before found
    have noUnclosed : (Segment.block line (block, .closed) []).unclosed = [] := by
      simp [Segment.unclosed, FencedBlock.feedAll]
    rw [warningsRead, noUnclosed, List.append_nil, show line :: rest = [line] ++ rest from rfl]
    exact ReportOrder.raised_append (Segment.raised_block (List.pairwise_singleton _ _)) numbers
      (p.reportOrder_after file (ih (List.pairwise_cons.mp numbers).2 [] ·) _)
  | @closedLater line block body closer rest segments opens notClosing closes tail ih =>
    intro before found
    have regroup : line :: (body ++ closer :: rest) = (line :: (body ++ [closer])) ++ rest := by simp
    rw [regroup] at numbers ⊢
    obtain ⟨blockNumbers, restNumbers, -⟩ := List.pairwise_append.mp numbers
    have later : ∀ taken ∈ body ++ [closer], line.number < taken.number :=
      (List.pairwise_cons.mp blockNumbers).1
    have noUnclosed : (Segment.block line (block, .opened) (body ++ [closer])).unclosed = [] := by
      simp [Segment.unclosed, opens.feedAll_closed (later closer (by simp)) closes]
    rw [warningsRead, noUnclosed, List.append_nil]
    exact ReportOrder.raised_append (Segment.raised_block blockNumbers) numbers
      (p.reportOrder_after file (ih restNumbers [] ·) _)
  | @unclosed line block body opens notClosing =>
    intro before found
    rw [warningsRead]
    split
    · rw [warningsRead, List.append_nil]
      exact ReportOrder.unclosed (Segment.raised_block numbers) _
    · rw [List.append_nil]
      exact ReportOrder.unclosed (Segment.raised_block numbers) _

end Project

/-- The warnings a check of a document reports are those raised on the lines it reads, in order,
then the warning that the last block was never closed, if the document ends inside one. They are
the warnings of the segments of the document's layout, up to and including the segment of the
first block whose check fails: a check that succeeds reports them all, and one that fails returns
the block's error alone when there are none, and with all of them otherwise. Each warning raised on
a line stands on that line, so their line numbers never decrease, save for the closing warning. -/
theorem checkDocument_warnings (p : Project) (file : String) (bytes : List UInt8) :
    ∃ segments, Layout (documentLines file bytes) segments ∧
      let warnings := p.warningsRead file [] Findings.empty segments
      ((p.checkDocument file bytes).1 =
        match p.findings file (Segment.blocks [] segments) with
        | .ok found => .ok (found.toReport file warnings)
        | .error e => .error (if warnings = [] then e else .withWarnings warnings e)) ∧
      ∃ raised tail, warnings = raised ++ tail ∧
        (∀ w ∈ raised, w.line ∈ documentLines file bytes ∧ w.problem ≠ .unclosedFence) ∧
        raised.Pairwise (fun a b => a.line.number ≤ b.line.number) ∧
        tail.length ≤ 1 ∧ ∀ w ∈ tail, w.problem = .unclosedFence := by
  obtain ⟨segments, layout⟩ := exists_layout (documentLines file bytes)
  refine ⟨segments, layout, ?_, ?_⟩
  · rw [checkDocument_findings p layout]
    cases p.findings file (Segment.blocks [] segments) with
    | ok found => rfl
    | error e => simp [DocError.join, List.isEmpty_iff]
  · obtain ⟨raised, tail, split, along, single, unclosed⟩ :=
      p.warningsRead_order file layout (documentLines_numbers file bytes) [] Findings.empty
    refine ⟨raised, tail, split, fun w member => ?_, along.2, single, unclosed⟩
    obtain ⟨line, inLines, sameLine, notUnclosed⟩ := along.1 w member
    exact ⟨sameLine ▸ inLines, notUnclosed⟩

namespace Project

variable (p : Project) (file : String)

/-- Reading one line adds the warnings raised on it and no others. -/
theorem feed_raised (line : Line) (s : Scanner) :
    ∃ raised, ((p.feed line).run.run s).2.report.warnings = s.report.warnings ++ raised ∧
      ∀ w ∈ raised, w.RaisedOn line := by
  cases opened : s.openBlock with
  | some o =>
    cases fed : (o.block.feedLine line 1).2.1 with
    | closed =>
      rw [p.feed_closes opened fed, (p.finishBlock_keeps _ _).warnings]
      exact ⟨_, rfl, FencedBlock.feedLine_raisedOn o.block line 1⟩
    | opened =>
      rw [p.feed_keepsOpen opened fed]
      exact ⟨_, rfl, FencedBlock.feedLine_raisedOn o.block line 1⟩
  | none =>
    rcases opensNone_or_opens line with opensNone | ⟨⟨block, state⟩, opens⟩
    · rw [p.feed_opensNone opened opensNone, run_passLine]
      exact ⟨_, rfl, openingWarnings_raisedOn line⟩
    · rw [p.feed_opens opened opens]
      cases state with
      | closed =>
        rw [(p.finishBlock_keeps _ _).warnings]
        exact ⟨_, rfl, openingWarnings_raisedOn line⟩
      | opened => exact ⟨_, rfl, openingWarnings_raisedOn line⟩

/-- Reading lines one after another adds the warnings raised on them, in the order of the lines,
whether or not a line fails. -/
theorem forM_feed_raised {lines : List Line} (numbers : lines.Pairwise fun a b => a.number < b.number)
    (s : Scanner) :
    ∃ raised, ((lines.forM p.feed).run.run s).2.report.warnings = s.report.warnings ++ raised ∧
      RaisedAlong lines raised := by
  induction lines generalizing s with
  | nil => exact ⟨[], by rw [List.append_nil]; rfl, .nil⟩
  | cons line rest ih =>
    obtain ⟨first, firstEq, on⟩ := p.feed_raised line s
    rw [forM_cons_eq, run_bind]
    rcases ran : (p.feed line).run.run s with ⟨_ | fed, t⟩
    · rw [ran] at firstEq
      have along := (RaisedAlong.single on).append (RaisedAlong.nil : RaisedAlong rest []) numbers
      rw [List.append_nil] at along
      exact ⟨first, firstEq, along⟩
    · cases fed
      rw [ran] at firstEq
      obtain ⟨more, moreEq, along⟩ := ih (List.pairwise_cons.mp numbers).2 t
      refine ⟨first ++ more, ?_, (RaisedAlong.single on).append along numbers⟩
      rw [moreEq, firstEq, List.append_assoc]

/-- The lines a reader gave before anything else are read first; a check that fails on one of them
stops there. -/
theorem checkReader_append_ok (texts : List (List UInt8)) (more : List (Except IoFailure (List UInt8))) :
    p.checkReader file (texts.map .ok ++ more) =
      match ((numberLines file 1 texts).forM p.feed).run.run
          ⟨⟨file, [], [], Dict.empty, []⟩, firstInlineId, none, none, []⟩ with
      | (.ok (), s) =>
        match ((p.readLines file (1 + texts.length) more *> p.finish).run).run s with
        | (.ok (), t) => (.ok t.report, t.log)
        | (.error e, t) => (.error (DocError.join t.report.warnings e), t.log)
      | (.error e, s) => (.error (DocError.join s.report.warnings e), s.log) := by
  rw [checkReader, runCheck, p.readLines_append_ok, seqRight_eq_bind, bind_assoc, run_bind]
  rcases ((numberLines file 1 texts).forM p.feed).run.run
      ⟨⟨file, [], [], Dict.empty, []⟩, firstInlineId, none, none, []⟩ with ⟨_ | fed, s⟩
  · rfl
  · cases fed
    rw [seqRight_eq_bind]
    dsimp only
    rcases ((p.readLines file (1 + texts.length) more >>= fun _ => p.finish).run).run s with
      ⟨_ | finished, t⟩
    · rfl
    · cases finished
      rfl

end Project

/-- A reader that fails after some lines stops the check at that failure: the document's end is
never reached and no line after it is read. The check reports the read failure with the warnings
raised on the lines read before it, or else the failure of one of those lines, which it reports
whatever the reader gives after them. -/
theorem checkReader_readFailed (p : Project) (file : String) (texts : List (List UInt8))
    (cause : IoFailure) (rest : List (Except IoFailure (List UInt8))) :
    ∃ raised, RaisedAlong (numberLines file 1 texts) raised ∧
      ((p.checkReader file (texts.map .ok ++ .error cause :: rest)).1 =
          .error (DocError.join raised (.readFailed cause)) ∨
        ∃ e, ∀ more, (p.checkReader file (texts.map .ok ++ more)).1 = .error (DocError.join raised e)) := by
  obtain ⟨raised, raisedEq, along⟩ := p.forM_feed_raised (numberLines_numbers file texts)
    ⟨⟨file, [], [], Dict.empty, []⟩, firstInlineId, none, none, []⟩
  refine ⟨raised, along, ?_⟩
  simp only [p.checkReader_append_ok]
  rcases ran : ((numberLines file 1 texts).forM p.feed).run.run
      ⟨⟨file, [], [], Dict.empty, []⟩, firstInlineId, none, none, []⟩ with ⟨result, s⟩
  rw [ran] at raisedEq
  have warningsEq : s.report.warnings = raised := by simpa using raisedEq
  cases result with
  | error e => exact .inr ⟨e, fun more => by dsimp only; rw [warningsEq]⟩
  | ok fed =>
    cases fed
    refine .inl ?_
    dsimp only
    rw [seqRight_eq_bind, Project.readLines]
    show Except.error (DocError.join s.report.warnings (.readFailed cause)) = _
    rw [warningsEq]

end DocExamples
