import DocExamples.Proofs.FenceOpening

namespace DocExamples

/-- A warning at a single column: it starts and ends there. -/
@[simp] theorem SyntaxError.new_point_colStart (line : Line) (n : Nat) (problem : Problem) :
    (SyntaxError.new line (n + 1) 0 problem).colStart = n + 1 := by
  simp [SyntaxError.new]

@[simp] theorem SyntaxError.new_point_colEnd (line : Line) (n : Nat) (problem : Problem) :
    (SyntaxError.new line (n + 1) 0 problem).colEnd = n + 1 := by
  simp [SyntaxError.new]

namespace FencedBlock

@[simp] theorem feedAll_indent (b : FencedBlock) (state : FenceState) (lines : List Line) :
    (b.feedAll state lines).1.indent = b.indent := by
  induction lines generalizing b state with
  | nil => rfl
  | cons line rest ih => simp [feedAll, ih]

theorem feedAll_raisedOn (b : FencedBlock) (state : FenceState) (body : List Line) :
    ∀ w ∈ (b.feedAll state body).2.2, ∃ line ∈ body, w.RaisedOn line := by
  induction body generalizing b state with
  | nil => simp [feedAll]
  | cons line rest ih =>
    intro w member
    rcases List.mem_append.mp member with first | later
    · exact ⟨line, List.mem_cons_self, feedLine_raisedOn b line 1 w first⟩
    · obtain ⟨taken, inRest, raised⟩ := ih _ _ w later
      exact ⟨taken, List.mem_cons_of_mem _ inRest, raised⟩

theorem openAt?_fenceRun {line : Line} {column : Nat} {found : FencedBlock × FenceState}
    (opened : (openAt? line column).1 = some found) :
    ∃ r after, FenceRun (Cursor.new line column).rest found.1.indent found.1.marker r after ∧ 3 ≤ r := by
  rcases fenceRun_or_none line column with ⟨k, m, r, after, run⟩ | none
  · by_cases short : r < 3
    · rw [openAt?_short run short] at opened
      cases opened
    · rw [openAt?_long run (Nat.le_of_not_lt short)] at opened
      cases opened
      refine ⟨r, after, ?_, Nat.le_of_not_lt short⟩
      simpa using run
  · rw [none] at opened
    cases opened

end FencedBlock

namespace Opens

variable {line : Line} {found : FencedBlock × FenceState}

/-- The column a block opened at: column 1, or a column after other text, where the fence also
interrupts a paragraph at its first mark. In both the rest of the line there is the block's indent
of spaces and a long run of its marks. -/
theorem opening_column (opens : Opens line found) :
    ∃ column r after, (FencedBlock.openAt? line column).1 = some found ∧
      FenceRun (line.text.drop (column - 1)) found.1.indent found.1.marker r after ∧ 3 ≤ r ∧
      (column = 1 ∨ 1 < column ∧
        SyntaxError.new line (column + found.1.indent) 0 .interruptsParagraph ∈ openingWarnings line) := by
  cases opens with
  | atStart atStart =>
    obtain ⟨r, after, run, long⟩ := FencedBlock.openAt?_fenceRun atStart
    rw [FencedBlock.rest_new_one] at run
    exact ⟨1, r, after, atStart, run, long, .inl rfl⟩
  | midLine i atStart first notBlank atFence =>
    obtain ⟨r, after, run, long⟩ := FencedBlock.openAt?_fenceRun atFence
    have within : i ≤ line.text.length := by
      have lengths := run.length_eq
      rw [Cursor.rest_new_succ, List.length_drop] at lengths
      omega
    have later : 0 < i := by
      by_contra atZero
      simp [Nat.eq_zero_of_not_pos atZero] at notBlank
    have offset : (Cursor.new line (i + 1)).offset = i := Cursor.offset_new_succ within
    have midLine : midLineFence line.text = some (i + 1) :=
      midLineFence_eq_some_iff.mpr ⟨i, first, notBlank, rfl⟩
    have interrupts : SyntaxError.new line (i + 1 + found.1.indent) 0 .interruptsParagraph ∈
        (FencedBlock.openAt? line (i + 1)).2 := by
      rw [FencedBlock.openAt?_long run long, offset, if_pos (by omega)]
      simp [Nat.add_right_comm]
    rw [Cursor.rest_new_succ] at run
    refine ⟨i + 1, r, after, atFence, run, long, .inr ⟨by omega, ?_⟩⟩
    rw [openingWarnings_of_none atStart, midLine]
    exact List.mem_append_right _ interrupts

end Opens

namespace Segment

theorem raised_ne_unclosedFence (segment : Segment) : ∀ w ∈ segment.raised, w.problem ≠ .unclosedFence := by
  intro w member
  match segment with
  | .outside line => exact (openingWarnings_raisedOn line w member).2
  | .block opening (fenced, state) body =>
    rcases List.mem_append.mp member with opens | fed
    · exact (openingWarnings_raisedOn opening w opens).2
    · obtain ⟨_, _, raised⟩ := fenced.feedAll_raisedOn state body w fed
      exact raised.2

theorem mem_unclosed {opening : Line} {fenced : FencedBlock} {state : FenceState} {body : List Line}
    {w : SyntaxError} (member : w ∈ (Segment.block opening (fenced, state) body).unclosed) :
    (fenced.feedAll state body).2.1 = .opened ∧
      w = (Cursor.new opening (fenced.indent + 1)).error .unclosedFence := by
  simp only [unclosed] at member
  split_ifs at member with stillOpen
  · exact ⟨stillOpen, by simpa using member⟩
  · cases member

end Segment

namespace Layout

variable {lines : List Line} {segments : List Segment}

/-- Each block of a layout opens on one of its lines, and one closed on its opening line takes no
line after it. -/
theorem mem_block (layout : Layout lines segments) {opening : Line} {block : FencedBlock}
    {state : FenceState} {body : List Line}
    (member : Segment.block opening (block, state) body ∈ segments) :
    opening ∈ lines ∧ Opens opening (block, state) ∧ (state = .closed → body = []) := by
  induction layout with
  | nil => cases member
  | outside _ _ ih =>
    obtain ⟨inRest, opens, taken⟩ := ih (List.mem_of_ne_of_mem (by simp) member)
    exact ⟨List.mem_cons_of_mem _ inRest, opens, taken⟩
  | closedOnOpening opens _ _ ih =>
    rcases List.mem_cons.mp member with here | there
    · cases here
      exact ⟨List.mem_cons_self, opens, fun _ => rfl⟩
    · obtain ⟨inRest, opens, taken⟩ := ih there
      exact ⟨List.mem_cons_of_mem _ inRest, opens, taken⟩
  | closedLater opens _ _ _ ih =>
    rcases List.mem_cons.mp member with here | there
    · cases here
      exact ⟨List.mem_cons_self, opens, fun closed => by cases closed⟩
    · obtain ⟨inRest, opens, taken⟩ := ih there
      exact ⟨by simp [inRest], opens, taken⟩
  | unclosed opens _ =>
    cases List.mem_singleton.mp member
    exact ⟨List.mem_cons_self, opens, fun closed => by cases closed⟩

/-- The warning that a block of a layout was never closed stands on the block's opening line, at
the column after its indent, for a block its opening line left open at some column: column 1, or
a later one where the segment also raised that the fence interrupts a paragraph. -/
theorem unclosed_column (layout : Layout lines segments) {segment : Segment} (member : segment ∈ segments)
    {w : SyntaxError} (closing : w ∈ segment.unclosed) :
    ∃ opening ∈ lines, ∃ column block r after,
      (FencedBlock.openAt? opening column).1 = some (block, .opened) ∧
      FenceRun (opening.text.drop (column - 1)) block.indent block.marker r after ∧ 3 ≤ r ∧
      w.line = opening ∧ w.colStart = block.indent + 1 ∧ w.colEnd = block.indent + 1 ∧
      (column = 1 ∨ 1 < column ∧
        SyntaxError.new opening (column + block.indent) 0 .interruptsParagraph ∈ segment.raised) := by
  match segment, closing with
  | .block opening (fenced, state) body, closing =>
    obtain ⟨stillOpen, rfl⟩ := Segment.mem_unclosed closing
    obtain ⟨inLines, opens, closedTakesNone⟩ := layout.mem_block member
    have opened : state = .opened := by
      cases state with
      | opened => rfl
      | closed =>
        rw [closedTakesNone rfl] at stillOpen
        cases stillOpen
    subst opened
    obtain ⟨column, r, after, atColumn, run, long, start⟩ := opens.opening_column
    dsimp only at run start
    have within : fenced.indent ≤ opening.text.length := by
      have lengths := run.length_eq
      rw [List.length_drop] at lengths
      omega
    have point : (Cursor.new opening (fenced.indent + 1)).offset = fenced.indent :=
      Cursor.offset_new_succ within
    refine ⟨opening, inLines, column, fenced, r, after, atColumn, run, long, rfl,
      by simp [Cursor.error_eq, point], by simp [Cursor.error_eq, point], ?_⟩
    rcases start with atOne | ⟨later, interrupts⟩
    · exact .inl atOne
    · exact .inr ⟨later, List.mem_append_left _ interrupts⟩

end Layout

namespace Project

variable (p : Project) (file : String)

/-- A warning the check reads comes from a segment whose raised warnings it reads too. Induction
on the segments, as the check reads them. -/
theorem mem_warningsRead {w : SyntaxError} :
    ∀ {before : List Line} {found : Findings} {segments : List Segment},
      w ∈ p.warningsRead file before found segments →
        ∃ segment ∈ segments, (w ∈ segment.raised ∨ w ∈ segment.unclosed) ∧
          ∀ v ∈ segment.raised, v ∈ p.warningsRead file before found segments
  | _, _, [], member => by simp [warningsRead] at member
  | before, found, .outside line :: rest, member => by
    rw [warningsRead] at member ⊢
    rcases List.mem_append.mp member with opens | later
    · exact ⟨.outside line, List.mem_cons_self, .inl opens, fun v raised => List.mem_append_left _ raised⟩
    · obtain ⟨segment, inRest, from_, read⟩ := mem_warningsRead later
      exact ⟨segment, List.mem_cons_of_mem _ inRest, from_,
        fun v raised => List.mem_append_right _ (read v raised)⟩
  | before, found, .block opening (fenced, state) body :: rest, member => by
    rw [warningsRead] at member ⊢
    rcases List.mem_append.mp member with inBlock | later
    · refine ⟨_, List.mem_cons_self, List.mem_append.mp inBlock, fun v raised => ?_⟩
      exact List.mem_append_left _ (List.mem_append_left _ raised)
    · split at later
      · obtain ⟨segment, inRest, from_, read⟩ := mem_warningsRead later
        exact ⟨segment, List.mem_cons_of_mem _ inRest, from_,
          fun v raised => List.mem_append_right _ (read v raised)⟩
      · cases later

end Project

/-- Where a check reports that a block was never closed. The warnings a check of a document
reports are those it reads along the document's layout. Each one saying that a block was never
closed stands on a line of the document where a fence opened, at a column `column`, a block that
its opening line left open: the rest of that line from the column is the block's indent of spaces
and a run of three or more of its marks. The warning is a single column, `indent + 1`. That is the
first mark of the run, `column + indent`, when the fence opened at column 1; when it opened after
other text, the check also reports that the fence interrupts a paragraph, at `column + indent`,
so the two warnings about the same fence name different columns. -/
theorem checkDocument_unclosedFence_column (p : Project) (file : String) (bytes : List UInt8) :
    ∃ segments, Layout (documentLines file bytes) segments ∧
      let warnings := p.warningsRead file [] Findings.empty segments
      ((p.checkDocument file bytes).1 =
        match p.findings file (Segment.blocks [] segments) with
        | .ok found => .ok (found.toReport file warnings)
        | .error e => .error (DocError.join warnings e)) ∧
      ∀ w ∈ warnings, w.problem = .unclosedFence →
        ∃ opening ∈ documentLines file bytes, ∃ column block r after,
          (FencedBlock.openAt? opening column).1 = some (block, .opened) ∧
          FenceRun (opening.text.drop (column - 1)) block.indent block.marker r after ∧ 3 ≤ r ∧
          w.line = opening ∧ w.colStart = block.indent + 1 ∧ w.colEnd = block.indent + 1 ∧
          (column = 1 ∨ 1 < column ∧ ∃ v ∈ warnings, v.line = opening ∧
            v.problem = .interruptsParagraph ∧
            v.colStart = column + block.indent ∧ v.colEnd = column + block.indent) := by
  obtain ⟨segments, layout⟩ := exists_layout (documentLines file bytes)
  refine ⟨segments, layout, checkDocument_findings p layout, ?_⟩
  intro w member unclosed
  obtain ⟨segment, inLayout, raisedOrUnclosed, raisedRead⟩ := p.mem_warningsRead file member
  rcases raisedOrUnclosed with raised | closing
  · exact absurd unclosed (segment.raised_ne_unclosedFence w raised)
  obtain ⟨opening, inLines, column, block, r, after, atColumn, run, long, onLine, start, stop, first⟩ :=
    layout.unclosed_column inLayout closing
  refine ⟨opening, inLines, column, block, r, after, atColumn, run, long, onLine, start, stop, ?_⟩
  rcases first with atOne | ⟨later, interrupts⟩
  · exact .inl atOne
  · obtain ⟨n, columnEq⟩ : ∃ n, column + block.indent = n + 1 := ⟨column + block.indent - 1, by omega⟩
    refine .inr ⟨later, _, raisedRead _ interrupts, rfl, rfl, ?_, ?_⟩
    all_goals simp [columnEq]

end DocExamples
