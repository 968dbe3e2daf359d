import Mathlib.Data.List.Infix
import Mathlib.Data.List.TakeWhile
import DocExamples.Proofs.LineEnds
import DocExamples.Proofs.Reading

namespace DocExamples

section Search

variable {needle : List UInt8}

theorem findSlice?_eq_some_iff :
    ∀ {text : List UInt8} {i : Nat}, findSlice? needle text = some i ↔
      needle <+: text.drop i ∧ ∀ j < i, ¬ needle <+: text.drop j
  | [], i => by
    cases i with
    | zero => simp [findSlice?, List.prefix_nil]
    | succ i =>
      simp only [findSlice?, List.drop_nil, List.prefix_nil]
      constructor
      · intro h
        split at h <;> simp at h
      · rintro ⟨rfl, never⟩
        exact absurd rfl (never 0 (by omega))
  | b :: rest, i => by
    rw [findSlice?]
    split
    · rename_i here
      have here : needle <+: b :: rest := List.isPrefixOf_iff_prefix.mp here
      cases i with
      | zero => simpa using here
      | succ i => simpa using fun _ => ⟨0, by omega, here⟩
    · rename_i notHere
      have notHere : ¬ needle <+: b :: rest := fun h => notHere (List.isPrefixOf_iff_prefix.mpr h)
      cases i with
      | zero => simpa using notHere
      | succ i =>
        rw [Option.map_eq_some_iff]
        constructor
        · rintro ⟨k, found, same⟩
          obtain rfl : k = i := by omega
          obtain ⟨at_, before⟩ := findSlice?_eq_some_iff.mp found
          refine ⟨by simpa using at_, fun j lt => ?_⟩
          cases j with
          | zero => simpa using notHere
          | succ j => simpa using before j (by omega)
        · rintro ⟨at_, before⟩
          refine ⟨i, findSlice?_eq_some_iff.mpr ⟨by simpa using at_, fun j lt => ?_⟩, rfl⟩
          simpa using before (j + 1) (by omega)

theorem findSlice?_isSome_iff :
    ∀ {text : List UInt8}, (findSlice? needle text).isSome ↔ needle <:+: text
  | [] => by simp [findSlice?]
  | b :: rest => by
    rw [findSlice?, List.infix_cons_iff, ← List.isPrefixOf_iff_prefix]
    split
    · simp_all
    · simp_all [findSlice?_isSome_iff]

theorem findSlice?_le {text : List UInt8} {i j : Nat} (found : findSlice? needle text = some i)
    (there : needle <+: text.drop j) : i ≤ j :=
  Nat.le_of_not_lt fun lt => (findSlice?_eq_some_iff.mp found).2 j lt there

theorem not_prefix_of_findSlice?_none {text : List UInt8} {j : Nat}
    (none : findSlice? needle text = none) : ¬ needle <+: text.drop j := fun there => by
  have inside : needle <:+: text := there.isInfix.trans (List.drop_suffix j text).isInfix
  simpa [none] using findSlice?_isSome_iff.mpr inside

end Search

theorem trimAscii_isEmpty (bytes : List UInt8) :
    (trimAscii bytes).isEmpty = bytes.all isTrimByte := by
  rw [trimAscii, List.isEmpty_reverse]
  cases kept : bytes.dropWhile isTrimByte with
  | nil =>
    have all := List.dropWhile_eq_nil_iff.mp kept
    simp [List.all_eq_true.mpr all]
  | cons first more =>
    have edge : isTrimByte first = false := by
      simpa [kept] using List.head?_dropWhile_not isTrimByte bytes
    have member : first ∈ bytes := (List.dropWhile_sublist isTrimByte).subset (by simp [kept])
    have stays : ((first :: more).reverse.dropWhile isTrimByte) ≠ [] := fun gone => by
      simpa [edge] using List.dropWhile_eq_nil_iff.mp gone first (by simp)
    have notAll : bytes.all isTrimByte = false :=
      List.all_eq_false.mpr ⟨first, member, by simp [edge]⟩
    simpa [notAll, List.isEmpty_iff] using stays

section Fences

/-- A run of three backticks or three tildes starts at byte `i` of the text. -/
def FenceAt (text : List UInt8) (i : Nat) : Prop :=
  [96, 96, 96] <+: text.drop i ∨ [126, 126, 126] <+: text.drop i

/-- Byte `i` starts the first run of three backticks or tildes of the text. -/
def FirstFenceAt (text : List UInt8) (i : Nat) : Prop :=
  FenceAt text i ∧ ∀ j < i, ¬ FenceAt text j

theorem exists_of_fenceAt {text : List UInt8} {i : Nat} (fence : FenceAt text i) :
    ∃ mark rest, (mark = 96 ∨ mark = 126) ∧ text.drop i = mark :: mark :: mark :: rest := by
  rcases fence with ⟨rest, dropped⟩ | ⟨rest, dropped⟩
  · exact ⟨96, rest, .inl rfl, dropped.symm⟩
  · exact ⟨126, rest, .inr rfl, dropped.symm⟩

variable {text : List UInt8}

theorem firstFenceAt_unique {i j : Nat} (first : FirstFenceAt text i)
    (other : FirstFenceAt text j) : i = j := by
  rcases Nat.lt_trichotomy i j with lt | same | gt
  · exact absurd first.1 (other.2 i lt)
  · exact same
  · exact absurd other.1 (first.2 j gt)

theorem mem_fences_iff {i : Nat} :
    i ∈ [findSlice? [96, 96, 96] text, findSlice? [126, 126, 126] text].filterMap id ↔
      findSlice? [96, 96, 96] text = some i ∨ findSlice? [126, 126, 126] text = some i := by
  simp [eq_comm]

theorem fenceAt_of_mem_fences {i : Nat}
    (member : i ∈ [findSlice? [96, 96, 96] text, findSlice? [126, 126, 126] text].filterMap id) :
    FenceAt text i := by
  rcases mem_fences_iff.mp member with found | found
  · exact .inl (findSlice?_eq_some_iff.mp found).1
  · exact .inr (findSlice?_eq_some_iff.mp found).1

theorem exists_mem_fences_le {j : Nat} (fence : FenceAt text j) :
    ∃ i ∈ [findSlice? [96, 96, 96] text, findSlice? [126, 126, 126] text].filterMap id, i ≤ j := by
  rcases fence with there | there
  · cases found : findSlice? [96, 96, 96] text with
    | none => exact absurd there (not_prefix_of_findSlice?_none found)
    | some i => exact ⟨i, by simp, findSlice?_le found there⟩
  · cases found : findSlice? [126, 126, 126] text with
    | none => exact absurd there (not_prefix_of_findSlice?_none found)
    | some i => exact ⟨i, by simp, findSlice?_le found there⟩

theorem min?_fences_eq_some_iff {i : Nat} :
    ([findSlice? [96, 96, 96] text, findSlice? [126, 126, 126] text].filterMap id).min? = some i ↔
      FirstFenceAt text i := by
  rw [List.min?_eq_some_iff]
  constructor
  · rintro ⟨member, least⟩
    refine ⟨fenceAt_of_mem_fences member, fun j lt fence => ?_⟩
    obtain ⟨k, found, le⟩ := exists_mem_fences_le fence
    have := least k found
    omega
  · rintro ⟨fence, before⟩
    obtain ⟨k, found, le⟩ := exists_mem_fences_le fence
    have same : k = i := by
      by_contra differ
      exact before k (by omega) (fenceAt_of_mem_fences found)
    subst same
    exact ⟨found, fun j other => Nat.le_of_not_lt fun lt => before j lt (fenceAt_of_mem_fences other)⟩

/-- A mid-line fence is the first fence of the line, when something other than ASCII white space
stands before it. -/
theorem midLineFence_eq_some_iff {column : Nat} :
    midLineFence text = some column ↔
      ∃ i, FirstFenceAt text i ∧ ¬ (text.take i).all isTrimByte ∧ column = i + 1 := by
  unfold midLineFence
  dsimp only
  cases least : ([findSlice? [96, 96, 96] text, findSlice? [126, 126, 126] text].filterMap id).min? with
  | none =>
    simp only [reduceCtorEq, false_iff, not_exists, not_and]
    intro i first
    have found := min?_fences_eq_some_iff.mpr first
    rw [least] at found
    cases found
  | some i =>
    have first := min?_fences_eq_some_iff.mp least
    dsimp only
    rw [trimAscii_isEmpty]
    constructor
    · intro found
      split at found
      · cases found
      · rename_i notBlank
        exact ⟨i, first, by simpa using notBlank, (Option.some.inj found).symm⟩
    · rintro ⟨j, other, notBlank, rfl⟩
      obtain rfl := firstFenceAt_unique first other
      simp [notBlank]

end Fences

namespace FencedBlock

theorem feedLine_frame (b : FencedBlock) (line : Line) (column : Nat) :
    ∃ info endLine lines, (b.feedLine line column).1 = { b with info, endLine, lines } := by
  unfold feedLine
  dsimp only
  split
  · exact ⟨_, _, _, rfl⟩
  · split
    · split
      · exact ⟨_, _, _, rfl⟩
      · exact ⟨_, _, _, rfl⟩
    · split
      · exact ⟨_, _, _, rfl⟩
      · split <;> exact ⟨_, _, _, rfl⟩

variable {b : FencedBlock} {line : Line} {column : Nat}

@[simp] theorem feedLine_startLine : (b.feedLine line column).1.startLine = b.startLine := by
  obtain ⟨_, _, _, fed⟩ := feedLine_frame b line column
  rw [fed]

@[simp] theorem feedLine_indent : (b.feedLine line column).1.indent = b.indent := by
  obtain ⟨_, _, _, fed⟩ := feedLine_frame b line column
  rw [fed]

@[simp] theorem feedLine_terminator : (b.feedLine line column).1.terminator = b.terminator := by
  obtain ⟨_, _, _, fed⟩ := feedLine_frame b line column
  rw [fed]
  rfl

/-- A fed line closes the block when its rest holds the terminator, except that a tilde fence
never closes on its opening line. -/
theorem feedLine_closed_iff :
    (b.feedLine line column).2.1 = .closed ↔
      ¬ (line.number = b.startLine ∧ b.marker ≠ 96) ∧
        (findSlice? b.terminator (Cursor.new line column).rest).isSome := by
  unfold feedLine
  dsimp only
  split
  · rename_i tilde
    simp [tilde]
  · rename_i notTilde
    simp only [notTilde, not_false_eq_true, true_and]
    split
    · rename_i none
      simp only [none, Option.isSome_none, Bool.false_eq_true, iff_false]
      split <;> simp
    · rename_i found
      simp only [found, Option.isSome_some]

theorem rest_new_one (line : Line) : (Cursor.new line 1).rest = line.text := by
  simp [Cursor.new, Cursor.rest]

theorem feedLine_closed_iff_contains (later : line.number ≠ b.startLine) :
    (b.feedLine line 1).2.1 = .closed ↔ b.terminator <:+: line.text := by
  rw [feedLine_closed_iff, rest_new_one, findSlice?_isSome_iff]
  simp [later]

theorem feedLine_opened (later : line.number ≠ b.startLine)
    (notClosing : ¬ b.terminator <:+: line.text) : (b.feedLine line 1).2.1 = .opened := by
  cases closes : (b.feedLine line 1).2.1 with
  | opened => rfl
  | closed => exact absurd ((feedLine_closed_iff_contains later).mp closes) notClosing

theorem marker_of_closed_on_opening (opening : line.number = b.startLine)
    (closed : (b.feedLine line column).2.1 = .closed) : b.marker = 96 := by
  simpa [opening] using (feedLine_closed_iff.mp closed).1

@[simp] theorem feedLine_marker : (b.feedLine line column).1.marker = b.marker := by
  obtain ⟨_, _, _, fed⟩ := feedLine_frame b line column
  rw [fed]

theorem openAt?_eq_some {found : FencedBlock × FenceState}
    (opened : (openAt? line column).1 = some found) :
    ∃ (fresh : FencedBlock) (after : Nat), fresh.startLine = line.number ∧ fresh.lines = [] ∧
      (fresh.feedLine line after).1 = found.1 ∧ (fresh.feedLine line after).2.1 = found.2 := by
  unfold openAt? at opened
  dsimp only at opened
  split at opened
  · cases opened
  · split at opened
    · cases opened
    · split at opened
      · cases opened
      · split at opened
        · cases opened
        · cases opened
          exact ⟨_, _, rfl, rfl, rfl, rfl⟩

theorem openAt?_isSome_of_fenceAt {i : Nat} (fence : FenceAt line.text i) :
    (openAt? line (i + 1)).1.isSome := by
  obtain ⟨mark, rest, isMark, dropped⟩ := exists_of_fenceAt fence
  have within : i < line.text.length := by
    by_contra beyond
    simp [List.drop_eq_nil_of_le (Nat.le_of_not_lt beyond)] at dropped
  have atFence : (Cursor.new line (i + 1)).rest = mark :: mark :: mark :: rest := by
    simp [Cursor.new, Cursor.rest, Nat.min_eq_left within.le, dropped]
  rcases isMark with rfl | rfl
  all_goals
    unfold openAt?
    simp [atFence, isBlankByte, Cursor.peek, Cursor.rest_advance, runLength]
    rw [if_neg (by omega)]
    rfl

end FencedBlock

section Runs

variable {α β : Type} {s : Scanner}

theorem run_bind (x : CheckM α) (f : α → CheckM β) :
    (x >>= f).run.run s = match x.run.run s with
      | (.ok a, after) => (f a).run.run after
      | (.error e, after) => (.error e, after) := by
  simp only [ExceptT.run_bind, StateT.run_bind]
  rcases x.run.run s with ⟨_ | a, after⟩ <;> rfl

theorem run_bind_ok {x : CheckM α} {a : α} {after : Scanner} (ran : x.run.run s = (.ok a, after))
    (f : α → CheckM β) : (x >>= f).run.run s = (f a).run.run after := by
  rw [run_bind, ran]

@[simp] theorem run_get : (get : CheckM Scanner).run.run s = (.ok s, s) := rfl

@[simp] theorem run_set (t : Scanner) : (set t : CheckM PUnit).run.run s = (.ok ⟨⟩, t) := rfl

@[simp] theorem run_modify (f : Scanner → Scanner) :
    (modify f : CheckM PUnit).run.run s = (.ok ⟨⟩, f s) := rfl

@[simp] theorem run_pure (a : α) : (pure a : CheckM α).run.run s = (.ok a, s) := rfl

theorem run_bind_congr {x y : CheckM α} {t : Scanner} (same : x.run.run s = y.run.run t)
    (f : α → CheckM β) : (x >>= f).run.run s = (y >>= f).run.run t := by
  rw [run_bind, run_bind, same]

theorem run_congr {x y : CheckM α} {t : Scanner} (sameStep : x = y) (sameState : s = t) :
    x.run.run s = y.run.run t := by
  rw [sameStep, sameState]

theorem forM_cons_eq {γ : Type} (a : γ) (rest : List γ) (f : γ → CheckM Unit) :
    (a :: rest).forM f = (f a >>= fun _ => rest.forM f) := rfl

theorem forM_append_eq {γ : Type} (first second : List γ) (f : γ → CheckM Unit) :
    (first ++ second).forM f = (first.forM f >>= fun _ => second.forM f) := by
  simp only [List.forM_eq_forM, List.forM_append]

end Runs

namespace Scanner

/-- The scanner with warnings collected, each logged. -/
def addWarnings (s : Scanner) (warnings : List SyntaxError) : Scanner :=
  { s with
    report := { s.report with warnings := s.report.warnings ++ warnings }
    log := s.log ++ warnings.map fun w =>
      ⟨.debug, Log.targetWarnings, "collected warning", [("warning", .shown w.header)]⟩ }

@[simp] theorem addWarnings_openBlock (s : Scanner) (warnings : List SyntaxError) :
    (s.addWarnings warnings).openBlock = s.openBlock := rfl

@[simp] theorem addWarnings_caption (s : Scanner) (warnings : List SyntaxError) :
    (s.addWarnings warnings).caption = s.caption := rfl

@[simp] theorem addWarnings_nil (s : Scanner) : s.addWarnings [] = s := by
  simp [addWarnings]

theorem addWarnings_append (s : Scanner) (first second : List SyntaxError) :
    (s.addWarnings first).addWarnings second = s.addWarnings (first ++ second) := by
  simp [addWarnings]

end Scanner

@[simp] theorem run_collect (warnings : List SyntaxError) (s : Scanner) :
    (collect warnings).run.run s = (.ok (), s.addWarnings warnings) := rfl

/-- The warnings raised by looking for a fence on a line outside blocks: at its start, and then,
when none opens there, at a mid-line fence. -/
def openingWarnings (line : Line) : List SyntaxError :=
  match FencedBlock.openAt? line 1 with
  | (some _, warnings) => warnings
  | (none, warnings) => warnings ++
    match midLineFence line.text with
    | none => []
    | some column => (FencedBlock.openAt? line column).2

theorem openingWarnings_of_atStart {line : Line} {found : FencedBlock × FenceState}
    (atStart : (FencedBlock.openAt? line 1).1 = some found) :
    openingWarnings line = (FencedBlock.openAt? line 1).2 := by
  unfold openingWarnings
  cases opened : FencedBlock.openAt? line 1 with
  | mk found warnings =>
    rw [opened] at atStart
    cases atStart
    rfl

theorem openingWarnings_of_none {line : Line} (atStart : (FencedBlock.openAt? line 1).1 = none) :
    openingWarnings line = (FencedBlock.openAt? line 1).2 ++
      match midLineFence line.text with
      | none => []
      | some column => (FencedBlock.openAt? line column).2 := by
  unfold openingWarnings
  cases opened : FencedBlock.openAt? line 1 with
  | mk found warnings =>
    rw [opened] at atStart
    cases atStart
    rfl

/-- The block a line outside blocks opens: one that opens at its start, or else one that opens at
the first run of three backticks or tildes when something other than white space stands before
it. -/
inductive Opens (line : Line) : FencedBlock × FenceState → Prop
  | atStart {found} : (FencedBlock.openAt? line 1).1 = some found → Opens line found
  | midLine {found} (i : Nat) : (FencedBlock.openAt? line 1).1 = none → FirstFenceAt line.text i →
      ¬ (line.text.take i).all isTrimByte → (FencedBlock.openAt? line (i + 1)).1 = some found →
      Opens line found

namespace Opens

variable {line : Line} {found : FencedBlock × FenceState}

theorem exists_openAt (opens : Opens line found) :
    ∃ column, (FencedBlock.openAt? line column).1 = some found := by
  cases opens with
  | atStart atStart => exact ⟨1, atStart⟩
  | midLine i _ _ _ atFence => exact ⟨i + 1, atFence⟩

theorem startLine (opens : Opens line found) : found.1.startLine = line.number := by
  obtain ⟨column, opened⟩ := opens.exists_openAt
  obtain ⟨fresh, after, start, -, block, -⟩ := FencedBlock.openAt?_eq_some opened
  rw [← block, FencedBlock.feedLine_startLine, start]

theorem marker_of_closed (opens : Opens line found) (closed : found.2 = .closed) :
    found.1.marker = 96 := by
  obtain ⟨column, opened⟩ := opens.exists_openAt
  obtain ⟨fresh, after, start, -, block, state⟩ := FencedBlock.openAt?_eq_some opened
  rw [← block, FencedBlock.feedLine_marker]
  exact FencedBlock.marker_of_closed_on_opening start.symm (state.trans closed)

theorem keeps {block : FencedBlock} {state : FenceState} {body : List Line}
    (opens : Opens line (block, state)) (later : ∀ taken ∈ body, line.number < taken.number)
    (notClosing : ∀ taken ∈ body, ¬ block.terminator <:+: taken.text) :
    ∀ taken ∈ body, taken.number ≠ block.startLine ∧ ¬ block.terminator <:+: taken.text := by
  intro taken member
  have start : block.startLine = line.number := opens.startLine
  have after := later taken member
  exact ⟨by omega, notClosing taken member⟩

end Opens

/-- A line outside blocks that opens none: no fence opens at its start, and only white space
stands before its first run of three marks. -/
def OpensNone (line : Line) : Prop :=
  (FencedBlock.openAt? line 1).1 = none ∧
    ∀ i, FirstFenceAt line.text i → (line.text.take i).all isTrimByte

/-- What a step keeps of the scanner: the open block, the caption, the document and the warnings
collected. -/
structure Scanner.Keeps (s t : Scanner) : Prop where
  openBlock : t.openBlock = s.openBlock
  caption : t.caption = s.caption
  file : t.report.file = s.report.file
  warnings : t.report.warnings = s.report.warnings

namespace Project

variable (p : Project)

/-- Reads a line that opens nothing outside blocks: its warnings are collected, and it becomes
the caption unless it is blank. -/
def passLine (line : Line) : CheckM Unit := do
  collect (openingWarnings line)
  if !line.isBlank then modify fun s => { s with caption := some line }

theorem run_passLine (line : Line) (s : Scanner) :
    (passLine line).run.run s =
      (.ok (), { s.addWarnings (openingWarnings line) with
        caption := if line.isBlank then s.caption else some line }) := by
  unfold passLine
  simp only [run_bind, run_collect]
  cases line.isBlank
  · simp only [Bool.not_false, if_true, run_modify]
    rfl
  · rfl

theorem feed_opensNone {line : Line} {s : Scanner} (closed : s.openBlock = none)
    (opensNone : OpensNone line) : (p.feed line).run.run s = (passLine line).run.run s := by
  have noMidLine : midLineFence line.text = none := by
    cases found : midLineFence line.text with
    | none => rfl
    | some column =>
      obtain ⟨i, first, notBlank, -⟩ := midLineFence_eq_some_iff.mp found
      exact absurd (opensNone.2 i first) notBlank
  have warnings : openingWarnings line = (FencedBlock.openAt? line 1).2 := by
    rw [openingWarnings_of_none opensNone.1, noMidLine, List.append_nil]
  simp only [feed, passLine, run_bind, run_get, run_collect, closed, opensNone.1, noMidLine,
    warnings, run_pure]

/-- A line outside blocks that opens a block takes the caption and hands the block on: finished
at once when it closed on its opening line, kept open otherwise. -/
theorem feed_opens {line : Line} {s : Scanner} {found : FencedBlock × FenceState}
    (closed : s.openBlock = none) (opens : Opens line found) :
    (p.feed line).run.run s =
      (match found.2 with
        | .closed => p.finishBlock ⟨found.1, line, [], s.caption⟩
        | .opened => modify fun t => { t with openBlock := some ⟨found.1, line, [], s.caption⟩ } :
        CheckM Unit).run.run { s.addWarnings (openingWarnings line) with caption := none } := by
  obtain ⟨block, state⟩ := found
  cases opens with
  | atStart atStart =>
    simp only [feed, run_bind, run_get, run_collect, closed, atStart, run_pure, run_set,
      openingWarnings_of_atStart atStart]
    cases state <;> rfl
  | midLine i atStart first notBlank atFence =>
    have midLine : midLineFence line.text = some (i + 1) :=
      midLineFence_eq_some_iff.mpr ⟨i, first, notBlank, rfl⟩
    have warnings : openingWarnings line =
        (FencedBlock.openAt? line 1).2 ++ (FencedBlock.openAt? line (i + 1)).2 := by
      rw [openingWarnings_of_none atStart, midLine]
    simp only [feed, run_bind, run_get, run_collect, closed, atStart, midLine, atFence, run_pure,
      run_set, warnings, Scanner.addWarnings_append]
    cases state <;> rfl

theorem feed_opensOpen {line : Line} {s : Scanner} {block : FencedBlock}
    (closed : s.openBlock = none) (opens : Opens line (block, .opened)) :
    (p.feed line).run.run s = (.ok (), { s.addWarnings (openingWarnings line) with
      caption := none
      openBlock := some ⟨block, line, [], s.caption⟩ }) := by
  rw [p.feed_opens closed opens]
  rfl

theorem feed_keepsOpen {line : Line} {s : Scanner} {o : OpenBlock} (opened : s.openBlock = some o)
    (keeps : (o.block.feedLine line 1).2.1 = .opened) :
    (p.feed line).run.run s =
      (.ok (), { s.addWarnings (o.block.feedLine line 1).2.2 with
        openBlock := some { o with block := (o.block.feedLine line 1).1, lines := o.lines ++ [line] } }) := by
  simp only [feed, run_bind, run_get, run_collect, opened, keeps, run_modify]

theorem feed_closes {line : Line} {s : Scanner} {o : OpenBlock} (opened : s.openBlock = some o)
    (closes : (o.block.feedLine line 1).2.1 = .closed) :
    (p.feed line).run.run s =
      (p.finishBlock { o with block := (o.block.feedLine line 1).1, lines := o.lines ++ [line] }).run.run
        { s.addWarnings (o.block.feedLine line 1).2.2 with openBlock := none } := by
  simp only [feed, run_bind, run_get, run_collect, opened, closes, run_modify]

theorem finish_none {s : Scanner} (closed : s.openBlock = none) :
    p.finish.run.run s = (.ok (), s) := by
  simp only [finish, run_bind, run_get, closed, run_pure]

theorem finish_some {s : Scanner} {o : OpenBlock} (opened : s.openBlock = some o) :
    p.finish.run.run s =
      (p.finishBlock o).run.run ({ s with openBlock := none }.addWarnings
        [(Cursor.new o.opening (o.block.indent + 1)).error .unclosedFence]) := by
  simp only [finish, run_bind, run_get, opened, run_modify, run_collect]

theorem checkExample_keeps (o : OpenBlock) (s : Scanner) :
    s.Keeps ((p.checkExample o).run.run s).2 := by
  unfold checkExample
  split
  · dsimp only
    split
    · exact ⟨rfl, rfl, rfl, rfl⟩
    · simp only [run_bind, run_get, run_set]
      split
      · exact ⟨rfl, rfl, rfl, rfl⟩
      · exact ⟨rfl, rfl, rfl, rfl⟩
      · split <;> exact ⟨rfl, rfl, rfl, rfl⟩
  · exact ⟨rfl, rfl, rfl, rfl⟩

theorem checkQuoted_keeps (o : OpenBlock) (extension : String) (s : Scanner) :
    s.Keeps ((p.checkQuoted o extension).run.run s).2 := by
  unfold checkQuoted
  dsimp only
  split
  · exact ⟨rfl, rfl, rfl, rfl⟩
  · simp only [run_bind, run_get, run_modify]
    split
    · exact ⟨rfl, rfl, rfl, rfl⟩
    · split <;> exact ⟨rfl, rfl, rfl, rfl⟩

theorem finishBlock_keeps (o : OpenBlock) (s : Scanner) :
    s.Keeps ((p.finishBlock o).run.run s).2 := by
  unfold finishBlock
  dsimp only
  split
  · exact p.checkExample_keeps o s
  · split
    · exact p.checkQuoted_keeps o _ s
    · exact ⟨rfl, rfl, rfl, rfl⟩

end Project

namespace FencedBlock

/-- Feeds lines to a block at column 1, one after another: the block after them, its state after
the last one, and the warnings raised. -/
def feedAll (b : FencedBlock) (state : FenceState) : List Line →
    FencedBlock × FenceState × List SyntaxError
  | [] => (b, state, [])
  | line :: rest =>
    let fed := b.feedLine line 1
    let after := fed.1.feedAll fed.2.1 rest
    (after.1, after.2.1, fed.2.2 ++ after.2.2)

theorem feedAll_append (b : FencedBlock) (state : FenceState) (first second : List Line) :
    b.feedAll state (first ++ second) =
      let fed := b.feedAll state first
      let after := fed.1.feedAll fed.2.1 second
      (after.1, after.2.1, fed.2.2 ++ after.2.2) := by
  induction first generalizing b state with
  | nil => simp [feedAll]
  | cons line rest ih => simp [feedAll, ih]

@[simp] theorem feedAll_startLine (b : FencedBlock) (state : FenceState) (lines : List Line) :
    (b.feedAll state lines).1.startLine = b.startLine := by
  induction lines generalizing b state with
  | nil => rfl
  | cons line rest ih => simp [feedAll, ih]

@[simp] theorem feedAll_terminator (b : FencedBlock) (state : FenceState) (lines : List Line) :
    (b.feedAll state lines).1.terminator = b.terminator := by
  induction lines generalizing b state with
  | nil => rfl
  | cons line rest ih => simp [feedAll, ih]

theorem feedAll_opened (b : FencedBlock) (lines : List Line)
    (keeps : ∀ taken ∈ lines, taken.number ≠ b.startLine ∧ ¬ b.terminator <:+: taken.text) :
    (b.feedAll .opened lines).2.1 = .opened := by
  induction lines generalizing b with
  | nil => rfl
  | cons line rest ih =>
    obtain ⟨later, notClosing⟩ := keeps line List.mem_cons_self
    simp only [feedAll, feedLine_opened later notClosing]
    exact ih _ fun taken member => by simpa using keeps taken (List.mem_cons_of_mem _ member)

end FencedBlock

/-- The first later line that holds the terminator closes a block that the lines before it left
open. -/
theorem Opens.closes_at {line : Line} {block : FencedBlock} {body : List Line} {closer : Line}
    (opens : Opens line (block, .opened)) (closerLater : line.number < closer.number)
    (closes : block.terminator <:+: closer.text) :
    ((block.feedAll .opened body).1.feedLine closer 1).2.1 = .closed := by
  have start : block.startLine = line.number := opens.startLine
  have later : closer.number ≠ (block.feedAll .opened body).1.startLine := by
    simp only [FencedBlock.feedAll_startLine]
    omega
  exact (FencedBlock.feedLine_closed_iff_contains later).mpr (by simpa using closes)

/-- A piece of the layout of a document: a line outside blocks, or a block with the line that
opens it, what that line opens, and the lines the block takes after it. -/
inductive Segment where
  | outside (line : Line)
  | block (opening : Line) (opened : FencedBlock × FenceState) (body : List Line)

/-- How the lines of a document split into lines outside blocks and blocks. A block that
stays open after its opening line takes the lines up to the first that holds its terminator, or
all the rest of the document when none does. -/
inductive Layout : List Line → List Segment → Prop
  | nil : Layout [] []
  | outside {line : Line} {rest : List Line} {segments : List Segment} :
      OpensNone line → Layout rest segments → Layout (line :: rest) (.outside line :: segments)
  | closedOnOpening {line : Line} {block : FencedBlock} {rest : List Line}
      {segments : List Segment} :
      Opens line (block, .closed) → block.marker = 96 → Layout rest segments →
      Layout (line :: rest) (.block line (block, .closed) [] :: segments)
  | closedLater {line : Line} {block : FencedBlock} {body : List Line} {closer : Line}
      {rest : List Line} {segments : List Segment} :
      Opens line (block, .opened) → (∀ taken ∈ body, ¬ block.terminator <:+: taken.text) →
      block.terminator <:+: closer.text → Layout rest segments →
      Layout (line :: (body ++ closer :: rest))
        (.block line (block, .opened) (body ++ [closer]) :: segments)
  | unclosed {line : Line} {block : FencedBlock} {body : List Line} :
      Opens line (block, .opened) → (∀ taken ∈ body, ¬ block.terminator <:+: taken.text) →
      Layout (line :: body) [.block line (block, .opened) body]

namespace Project

variable (p : Project)

/-- Checks one segment of a layout. A block collects the warnings of its opening line, takes the
caption, is fed its lines, is reported unclosed when no line closed it, and is finished. -/
def runSegment : Segment → CheckM Unit
  | .outside line => passLine line
  | .block opening (block, state) body => do
    collect (openingWarnings opening)
    let s ← get
    set { s with caption := none }
    let (block, state, warnings) := block.feedAll state body
    collect warnings
    if state = .opened then
      collect [(Cursor.new opening (block.indent + 1)).error .unclosedFence]
    p.finishBlock ⟨block, opening, body, s.caption⟩

theorem runSegment_block {opening : Line} {block : FencedBlock} {state : FenceState}
    {body : List Line} {s : Scanner} :
    (p.runSegment (.block opening (block, state) body)).run.run s =
      (p.finishBlock ⟨(block.feedAll state body).1, opening, body, s.caption⟩).run.run
        ({ s.addWarnings (openingWarnings opening) with caption := none }.addWarnings
          ((block.feedAll state body).2.2 ++
            if (block.feedAll state body).2.1 = FenceState.opened then
              [(Cursor.new opening ((block.feedAll state body).1.indent + 1)).error .unclosedFence]
            else [])) := by
  simp only [runSegment, run_bind, run_collect, run_get, run_set]
  split
  · simp only [run_bind, run_collect, Scanner.addWarnings_append, Scanner.addWarnings_caption, *]
  · simp only [Scanner.addWarnings_caption, *, List.append_nil]

theorem forM_feed_body (body : List Line) :
    ∀ (o : OpenBlock) (s : Scanner), s.openBlock = some o →
      (∀ taken ∈ body, taken.number ≠ o.block.startLine ∧ ¬ o.block.terminator <:+: taken.text) →
      (body.forM p.feed).run.run s =
        (.ok (), { s.addWarnings (o.block.feedAll .opened body).2.2 with
          openBlock := some { o with
            block := (o.block.feedAll .opened body).1
            lines := o.lines ++ body } }) := by
  induction body with
  | nil =>
    intro o s opened _
    simp [FencedBlock.feedAll, ← opened]
    rfl
  | cons line rest ih =>
    intro o s opened keeps
    obtain ⟨later, notClosing⟩ := keeps line List.mem_cons_self
    have stays := FencedBlock.feedLine_opened later notClosing
    rw [forM_cons_eq, run_bind_ok (p.feed_keepsOpen opened stays),
      ih _ _ rfl fun taken member => by simpa using keeps taken (List.mem_cons_of_mem _ member)]
    simp [FencedBlock.feedAll, stays, Scanner.addWarnings]

end Project

theorem opensNone_or_opens (line : Line) : OpensNone line ∨ ∃ found, Opens line found := by
  cases atStart : (FencedBlock.openAt? line 1).1 with
  | some found => exact .inr ⟨found, .atStart atStart⟩
  | none =>
    cases midLine : midLineFence line.text with
    | none =>
      refine .inl ⟨atStart, fun i first => ?_⟩
      by_contra notBlank
      have found := midLineFence_eq_some_iff.mpr ⟨i, first, notBlank, rfl⟩
      rw [midLine] at found
      cases found
    | some column =>
      obtain ⟨i, first, notBlank, -⟩ := midLineFence_eq_some_iff.mp midLine
      obtain ⟨found, atFence⟩ := Option.isSome_iff_exists.mp
        (FencedBlock.openAt?_isSome_of_fenceAt first.1)
      exact .inr ⟨found, .midLine i atStart first notBlank atFence⟩

theorem exists_layout : ∀ lines : List Line, ∃ segments, Layout lines segments
  | [] => ⟨[], .nil⟩
  | line :: rest => by
    rcases opensNone_or_opens line with opensNone | ⟨⟨block, state⟩, opens⟩
    · obtain ⟨segments, tail⟩ := exists_layout rest
      exact ⟨_, .outside opensNone tail⟩
    cases state with
    | closed =>
      obtain ⟨segments, tail⟩ := exists_layout rest
      exact ⟨_, .closedOnOpening opens (opens.marker_of_closed rfl) tail⟩
    | opened =>
      let holds := fun taken : Line => (findSlice? block.terminator taken.text).isSome
      have split := List.takeWhile_append_dropWhile (p := fun taken => !holds taken) (l := rest)
      have notClosing : ∀ taken ∈ rest.takeWhile (fun taken => !holds taken),
          ¬ block.terminator <:+: taken.text := by
        intro taken member
        rw [← findSlice?_isSome_iff]
        simpa [holds] using List.mem_takeWhile_imp member
      cases after : rest.dropWhile (fun taken => !holds taken) with
      | nil =>
        rw [after, List.append_nil] at split
        rw [← split]
        exact ⟨_, .unclosed opens notClosing⟩
      | cons closer more =>
        have closes : block.terminator <:+: closer.text := by
          have first := List.head?_dropWhile_not (fun taken => !holds taken) rest
          rw [after] at first
          simpa [holds, findSlice?_isSome_iff] using first
        rw [after] at split
        have shorter : more.length < rest.length + 1 := by
          have := congrArg List.length split
          simp at this
          omega
        obtain ⟨segments, tail⟩ := exists_layout more
        rw [← split]
        exact ⟨_, .closedLater opens notClosing closes tail⟩
termination_by lines => lines.length

namespace Project

variable (p : Project)

/-- Two continuations of a finished block that agree from every state with no open block agree
after it. -/
theorem finishBlock_then {o o' : OpenBlock} {t t' : Scanner} (sameBlock : o = o')
    (sameState : t = t') (closed : t.openBlock = none) {next₁ next₂ : Unit → CheckM Unit}
    (agree : ∀ t' : Scanner, t'.openBlock = none → (next₁ ()).run.run t' = (next₂ ()).run.run t') :
    (p.finishBlock o >>= next₁).run.run t = (p.finishBlock o' >>= next₂).run.run t' := by
  subst sameBlock sameState
  rw [run_bind, run_bind]
  rcases ran : (p.finishBlock o).run.run t with ⟨_ | ⟨⟩, after⟩
  · rfl
  · have kept := (p.finishBlock_keeps o t).openBlock
    rw [ran] at kept
    exact agree after (kept.trans closed)

/-- Reading the lines of a layout one by one and then ending the document checks its segments
one after another, from any state with no open block. Line numbers must increase along the
lines, as those of a document do. -/
theorem run_layout {lines : List Line} {segments : List Segment} (layout : Layout lines segments)
    (numbers : lines.Pairwise fun a b => a.number < b.number) :
    ∀ s : Scanner, s.openBlock = none →
      (lines.forM p.feed >>= fun _ => p.finish).run.run s =
        (segments.forM p.runSegment).run.run s := by
  induction layout with
  | nil =>
    intro s closed
    simp [p.finish_none closed]
    rfl
  | outside opensNone tail ih =>
    intro s closed
    rw [forM_cons_eq, bind_assoc, forM_cons_eq,
      run_bind_ok ((p.feed_opensNone closed opensNone).trans (run_passLine _ s)), runSegment,
      run_bind_ok (run_passLine _ s)]
    exact ih (List.pairwise_cons.mp numbers).2 _ closed
  | closedOnOpening opens backtick tail ih =>
    intro s closed
    rw [forM_cons_eq, bind_assoc, forM_cons_eq, run_bind_congr (p.feed_opens closed opens),
      run_bind_congr p.runSegment_block]
    simp only [FencedBlock.feedAll, List.nil_append, reduceCtorEq, if_false, Scanner.addWarnings_nil]
    refine p.finishBlock_then rfl rfl (by exact closed) fun t' closed' => ?_
    exact ih (List.pairwise_cons.mp numbers).2 t' closed'
  | @closedLater line block body closer rest segments opens notClosing closes tail ih =>
    intro s closed
    obtain ⟨later, numbersAfter⟩ := List.pairwise_cons.mp numbers
    have keeps := opens.keeps (fun taken member => later taken (List.mem_append_left _ member))
      notClosing
    have closesFed : ((block.feedAll .opened body).1.feedLine closer 1).2.1 = .closed :=
      opens.closes_at (later closer (by simp)) closes
    rw [forM_cons_eq, bind_assoc, run_bind_ok (p.feed_opensOpen closed opens), forM_append_eq,
      bind_assoc, run_bind_ok (p.forM_feed_body body _ _ rfl keeps), forM_cons_eq, bind_assoc,
      run_bind_congr (p.feed_closes rfl closesFed), forM_cons_eq, run_bind_congr p.runSegment_block]
    refine p.finishBlock_then ?_ ?_ rfl fun t' closed' => ?_
    · simp [FencedBlock.feedAll_append, FencedBlock.feedAll]
    · simp [FencedBlock.feedAll_append, FencedBlock.feedAll, closesFed, Scanner.addWarnings, closed]
    · exact ih (List.pairwise_append.mp numbersAfter).2.1.of_cons t' closed'
  | @unclosed line block body opens notClosing =>
    intro s closed
    have keeps := opens.keeps (List.pairwise_cons.mp numbers).1 notClosing
    rw [forM_cons_eq, bind_assoc, run_bind_ok (p.feed_opensOpen closed opens),
      run_bind_ok (p.forM_feed_body body _ _ rfl keeps),
      p.finish_some rfl, forM_cons_eq, show ([] : List Segment).forM p.runSegment = pure () from rfl,
      bind_pure_unit, p.runSegment_block]
    refine run_congr (congrArg p.finishBlock ?_) ?_
    · simp
    · simp [FencedBlock.feedAll_opened block body keeps, Scanner.addWarnings, closed]

end Project

theorem documentLines_numbers (file : String) (bytes : List UInt8) :
    (documentLines file bytes).Pairwise fun a b => a.number < b.number := by
  rw [documentLines_eq_numberLines]
  exact numberLines_numbers file _

/-- A layout of a document's lines gives its check: its segments are checked one after another
from the empty scanner. -/
theorem checkDocument_of_layout (p : Project) {file : String} {bytes : List UInt8}
    {segments : List Segment} (layout : Layout (documentLines file bytes) segments) :
    p.checkDocument file bytes =
      match (segments.forM p.runSegment).run.run
          ⟨⟨file, [], [], Dict.empty, []⟩, firstInlineId, none, none, []⟩ with
      | (.ok (), s) => (.ok s.report, s.log)
      | (.error e, s) => (.error (DocError.join s.report.warnings e), s.log) := by
  rw [← p.run_layout layout (documentLines_numbers file bytes) _ rfl, Project.checkDocument_eq,
    Project.runCheck, seqRight_eq_bind]
  split
  rename_i result _ ran
  rw [ran]
  cases result <;> rfl

/-- The check of a document is the check of its layout, segment by segment: the lines split into
lines outside blocks and blocks by the rules of `Layout`, and each block is fed its own lines and
finished once, in document order, until a check fails. -/
theorem checkDocument_layout (p : Project) (file : String) (bytes : List UInt8) :
    ∃ segments, Layout (documentLines file bytes) segments ∧
      p.checkDocument file bytes =
        match (segments.forM p.runSegment).run.run
            ⟨⟨file, [], [], Dict.empty, []⟩, firstInlineId, none, none, []⟩ with
        | (.ok (), s) => (.ok s.report, s.log)
        | (.error e, s) => (.error (DocError.join s.report.warnings e), s.log) := by
  obtain ⟨segments, layout⟩ := exists_layout (documentLines file bytes)
  exact ⟨segments, layout, checkDocument_of_layout p layout⟩

end DocExamples
