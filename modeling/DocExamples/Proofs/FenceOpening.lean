import DocExamples.Proofs.FenceLines
import DocExamples.Proofs.Warnings

namespace DocExamples

/-- The rest of a line is `k` spaces, a run of `r` marks `m`, then `after`: at most three
spaces, a backtick or a tilde, and a run that is not empty and that `after` does not go on. -/
structure FenceRun (rest : List UInt8) (k : Nat) (m : UInt8) (r : Nat) (after : List UInt8) : Prop where
  indent_le : k ≤ 3
  marker : m = 96 ∨ m = 126
  run_pos : 0 < r
  split : rest = List.replicate k 32 ++ List.replicate r m ++ after
  maximal : after.head? ≠ some m

theorem takeWhile_replicate_append {p : UInt8 → Bool} {a : UInt8} {n : Nat} {rest : List UInt8}
    (takes : p a = true) (stops : ∀ b, rest.head? = some b → p b = false) :
    (List.replicate n a ++ rest).takeWhile p = List.replicate n a := by
  rw [List.takeWhile_append_of_pos (by simp [takes])]
  cases rest with
  | nil => simp
  | cons b more => simp [List.takeWhile_cons_of_neg, stops b rfl]

namespace FenceRun

variable {rest after after' : List UInt8} {k k' r r' : Nat} {m m' : UInt8}

theorem marker_ne_space (run : FenceRun rest k m r after) : m ≠ 32 := by
  rcases run.marker with rfl | rfl <;> decide

theorem drop_indent (run : FenceRun rest k m r after) : rest.drop k = List.replicate r m ++ after := by
  rw [run.split, List.append_assoc, List.drop_left' (List.length_replicate ..)]

theorem drop_run (run : FenceRun rest k m r after) : rest.drop (k + r) = after := by
  rw [← List.drop_drop, run.drop_indent, List.drop_left' (List.length_replicate ..)]

theorem length_eq (run : FenceRun rest k m r after) : rest.length = k + r + after.length := by
  rw [run.split]
  simp only [List.length_append, List.length_replicate]

theorem drop_indent_cons (run : FenceRun rest k m r after) :
    rest.drop k = m :: (List.replicate (r - 1) m ++ after) := by
  obtain ⟨r', rfl⟩ : ∃ r', r = r' + 1 := ⟨r - 1, by have := run.run_pos; omega⟩
  rw [run.drop_indent]
  rfl

theorem takeWhile_blank (run : FenceRun rest k m r after) :
    rest.takeWhile isBlankByte = List.replicate k 32 := by
  have notBlank : isBlankByte m = false := by
    rcases run.marker with rfl | rfl <;> rfl
  rw [run.split, List.append_assoc, ← run.drop_indent, run.drop_indent_cons]
  exact takeWhile_replicate_append rfl fun b first => by
    cases first
    exact notBlank

theorem runLength_drop (run : FenceRun rest k m r after) : runLength (rest.drop k) m = r := by
  unfold runLength
  rw [run.drop_indent, takeWhile_replicate_append (p := fun x => x == m) (beq_self_eq_true m)
    fun b first => beq_false_of_ne fun same => run.maximal (same ▸ first), List.length_replicate]

theorem getElem?_indent (run : FenceRun rest k m r after) {i : Nat} (inside : i < k) :
    rest[i]? = some 32 := by
  rw [run.split, List.append_assoc, List.getElem?_append_left (by simpa using inside),
    List.getElem?_replicate_of_lt inside]

theorem getElem?_run (run : FenceRun rest k m r after) {j : Nat} (inside : j < r) :
    rest[k + j]? = some m := by
  rw [← List.getElem?_drop, run.drop_indent, List.getElem?_append_left (by simpa using inside),
    List.getElem?_replicate_of_lt inside]

theorem getElem?_after (run : FenceRun rest k m r after) : rest[k + r]? = after.head? := by
  rw [← Nat.add_zero (k + r), ← List.getElem?_drop, run.drop_run, List.head?_eq_getElem?]

theorem unique (run : FenceRun rest k m r after) (other : FenceRun rest k' m' r' after') :
    k = k' ∧ m = m' ∧ r = r' ∧ after = after' := by
  have sameIndent : k = k' := by
    rcases Nat.lt_trichotomy k k' with shorter | same | longer
    · have space := other.getElem?_indent shorter
      rw [← Nat.add_zero k, run.getElem?_run run.run_pos] at space
      exact absurd (Option.some.inj space) run.marker_ne_space
    · exact same
    · have space := run.getElem?_indent longer
      rw [← Nat.add_zero k', other.getElem?_run other.run_pos] at space
      exact absurd (Option.some.inj space) other.marker_ne_space
  subst sameIndent
  have sameMark : m = m' := by
    have first := run.getElem?_run run.run_pos
    rw [other.getElem?_run other.run_pos] at first
    exact (Option.some.inj first).symm
  subst sameMark
  have sameRun : r = r' := by
    rcases Nat.lt_trichotomy r r' with shorter | same | longer
    · have mark := other.getElem?_run shorter
      rw [run.getElem?_after] at mark
      exact absurd mark run.maximal
    · exact same
    · have mark := run.getElem?_run longer
      rw [other.getElem?_after] at mark
      exact absurd mark other.maximal
  subst sameRun
  exact ⟨rfl, rfl, rfl, run.drop_run.symm.trans other.drop_run⟩

theorem of_blank_prefix {rest : List UInt8} {marker : UInt8}
    (few : ¬ ((rest.takeWhile isBlankByte).length > 3 ∨ (rest.takeWhile isBlankByte).contains 9 = true))
    (markers : marker = 96 ∨ marker = 126) (head : (rest.dropWhile isBlankByte).head? = some marker) :
    FenceRun rest (rest.takeWhile isBlankByte).length marker (runLength (rest.dropWhile isBlankByte) marker)
      ((rest.dropWhile isBlankByte).dropWhile (· == marker)) := by
  generalize indentIs : rest.takeWhile isBlankByte = indent at few ⊢
  have whole := @List.takeWhile_append_dropWhile _ isBlankByte rest
  rw [indentIs] at whole
  generalize fenceIs : rest.dropWhile isBlankByte = fenceBytes at whole head ⊢
  have spaces : indent = List.replicate indent.length 32 := by
    refine List.eq_replicate_iff.mpr ⟨rfl, fun b member => ?_⟩
    have blank : isBlankByte b = true := by
      rw [← indentIs] at member
      exact List.mem_takeWhile_imp member
    have notTab : b ≠ 9 := fun tab => few (Or.inr (by simpa [tab] using member))
    simp only [isBlankByte, Bool.or_eq_true, beq_iff_eq] at blank
    exact blank.resolve_right notTab
  have runWhole := @List.takeWhile_append_dropWhile _ (· == marker) fenceBytes
  have run : fenceBytes.takeWhile (· == marker) = List.replicate (runLength fenceBytes marker) marker :=
    List.eq_replicate_iff.mpr ⟨rfl, fun b member => by simpa using List.mem_takeWhile_imp member⟩
  refine ⟨Nat.le_of_not_lt fun more => few (.inl more), markers, ?_, ?_, ?_⟩
  · obtain ⟨more, rfl⟩ : ∃ more, fenceBytes = marker :: more := by
      cases fenceBytes with
      | nil => cases head
      | cons b more => exact ⟨more, by cases head; rfl⟩
    simp [runLength]
  · calc rest = indent ++ fenceBytes := whole.symm
      _ = List.replicate indent.length 32 ++
          (fenceBytes.takeWhile (· == marker) ++ fenceBytes.dropWhile (· == marker)) := by
        rw [runWhole, ← spaces]
      _ = _ := by rw [run, List.append_assoc]
  · intro same
    have stops := List.head?_dropWhile_not (· == marker) fenceBytes
    rw [same] at stops
    simp at stops

end FenceRun

@[simp] theorem SyntaxError.new_problem (line : Line) (colStart colEnd : Nat) (problem : Problem) :
    (SyntaxError.new line colStart colEnd problem).problem = problem := rfl

namespace Cursor

theorem offset_new_succ {line : Line} {n : Nat} (within : n ≤ line.text.length) :
    (Cursor.new line (n + 1)).offset = n := by
  simp only [Cursor.new, Nat.add_sub_cancel]
  omega

theorem error_eq (c : Cursor) (problem : Problem) :
    c.error problem = SyntaxError.new c.line (c.offset + 1) 0 problem := rfl

theorem errorUntil_eq (c stop : Cursor) (problem : Problem) :
    c.errorUntil stop problem = SyntaxError.new c.line (c.offset + 1) stop.offset problem := rfl

end Cursor

namespace FencedBlock

variable {line : Line} {column k r : Nat} {m : UInt8} {after : List UInt8}

theorem drop_after (run : FenceRun (Cursor.new line column).rest k m r after) : line.text.drop ((Cursor.new line column).offset + k + r) = after := by
  rw [Nat.add_assoc, ← List.drop_drop]
  exact run.drop_run

theorem run_within (run : FenceRun (Cursor.new line column).rest k m r after) : (Cursor.new line column).offset + k + r ≤ line.text.length := by
  have within : (Cursor.new line column).offset ≤ line.text.length := Nat.min_le_right _ _
  have lengths := run.length_eq
  simp only [Cursor.rest, List.length_drop] at lengths
  change line.text.length - (Cursor.new line column).offset = _ at lengths
  omega

/-- What looking for a fence at a column does when the rest of the line there is spaces and a
run of marks: a short run opens nothing and warns when it has two marks; a long one opens a fresh
block, fed the rest of the line after the run, and interrupts a paragraph after column 1. -/
theorem openAt?_of_fenceRun (run : FenceRun (Cursor.new line column).rest k m r after) :
    let o := (Cursor.new line column).offset
    openAt? line column =
      if r < 3 then
        (none, if r = 2 then [SyntaxError.new line (o + k + 1) (o + k + 2) .shortFence] else [])
      else
        let fed := (⟨line.number, 0, "", k, m, r, []⟩ : FencedBlock).feedLine line (o + k + r + 1)
        (some (fed.1, fed.2.1),
          (if 1 < column then [SyntaxError.new line (o + k + 1) 0 .interruptsParagraph] else []) ++
            fed.2.2) := by
  intro o
  have oEq : o = min (column - 1) line.text.length := rfl
  have long : o + k + r ≤ line.text.length := run_within run
  have noTab : (List.replicate k (32 : UInt8)).contains 9 = false := by
    simp
  have fence : (Cursor.new line column).advance k = Cursor.new line (o + k + 1) :=
    Cursor.ext rfl (by simp only [Cursor.advance, Cursor.new]; omega)
  have fenceRest : (Cursor.new line (o + k + 1)).rest = m :: (List.replicate (r - 1) m ++ after) := by
    rw [← fence, Cursor.rest_advance, run.drop_indent_cons]
  have counted : runLength (m :: (List.replicate (r - 1) m ++ after)) m = r := by
    rw [← run.drop_indent_cons, run.runLength_drop]
  have fenceOffset : (Cursor.new line (o + k + 1)).offset = o + k := Cursor.offset_new_succ (by omega)
  have runEnd : ((Cursor.new line (o + k + 1)).advance r) = Cursor.new line (o + k + r + 1) :=
    Cursor.new_advance line (o + k) r
  have runOffset : (Cursor.new line (o + k + r + 1)).offset = o + k + r := Cursor.offset_new_succ long
  have markOk : ¬ (m ≠ 96 ∧ m ≠ 126) := by
    rcases run.marker with rfl | rfl <;> decide
  unfold openAt?
  simp only [run.takeWhile_blank, List.length_replicate, noTab, fence, Cursor.peek_of_rest fenceRest, fenceRest,
    counted, runEnd, if_neg markOk, Cursor.errorUntil_eq, Cursor.error_eq, Cursor.column, fenceOffset,
    runOffset, Cursor.new_line, Bool.false_eq_true, or_false, if_neg (Nat.not_lt.mpr run.indent_le)]
  split_ifs with short two interrupts
  · rw [two]
  all_goals rfl

section OpeningLine

variable {b : FencedBlock} {n : Nat}

theorem findSlice?_le_length {needle text : List UInt8} {f : Nat} (found : findSlice? needle text = some f) :
    f ≤ text.length := by
  obtain ⟨there, earliest⟩ := findSlice?_eq_some_iff.mp found
  by_contra beyond
  rw [List.drop_eq_nil_of_le (by omega), List.prefix_nil] at there
  exact earliest 0 (by omega) (by simp [there])

theorem feedLine_opening_tilde (opening : line.number = b.startLine) (tilde : b.marker ≠ 96) :
    b.feedLine line (n + 1) = ({ b with info := infoOf (line.text.drop n) }, .opened, []) := by
  simp [feedLine, opening, tilde, Cursor.rest_new_succ]

theorem feedLine_opening_none (opening : line.number = b.startLine)
    (none : findSlice? b.terminator (line.text.drop n) = none) :
    b.feedLine line (n + 1) = ({ b with info := infoOf (line.text.drop n) }, .opened, []) := by
  by_cases tilde : b.marker = 96
  · simp [feedLine, opening, tilde, Cursor.rest_new_succ, none]
  · exact feedLine_opening_tilde opening tilde

/-- A backtick fence whose terminator comes back on its opening line, first at byte `f` of the
rest, closes there: the text before it is the info string, the line closes the block, and the
closing raises that the fence begins and ends on one line, with the warnings of a closing line. -/
theorem feedLine_opening_found (opening : line.number = b.startLine) (backtick : b.marker = 96)
    {f : Nat} (found : findSlice? b.terminator (line.text.drop n) = some f) (within : n ≤ line.text.length) :
    b.feedLine line (n + 1) =
      ({ b with info := infoOf ((line.text.drop n).take f), endLine := line.number }, .closed,
        SyntaxError.new line (n + f + 1) 0 .sameLineFence ::
          b.closingWarnings line (n + f) (runLength (line.text.drop (n + f)) b.marker)) := by
  have inside : n + f ≤ line.text.length := by
    have := findSlice?_le_length found
    simp only [List.length_drop] at this
    omega
  have fenceOffset : (Cursor.new line (n + f + 1)).offset = n + f := Cursor.offset_new_succ inside
  simp only [feedLine, opening, backtick, ne_eq, not_true_eq_false, and_false, if_false, if_true,
    Cursor.rest_new_succ, found, Cursor.new_advance, Cursor.error_eq, fenceOffset, Cursor.new_line,
    trimAscii_isEmpty, closingWarnings]
  rfl

end OpeningLine

/-- Where the rest of the line at a column is no run of marks after at most three spaces,
nothing opens there and nothing is raised. -/
theorem openAt?_of_no_fenceRun (noRun : ∀ k m r after, ¬ FenceRun (Cursor.new line column).rest k m r after) :
    openAt? line column = (none, []) := by
  unfold openAt?
  dsimp only
  split
  · rfl
  · rename_i short
    cases peeked : ((Cursor.new line column).advance
        ((Cursor.new line column).rest.takeWhile isBlankByte).length).peek with
    | none => rfl
    | some marker =>
      dsimp only
      split
      · rfl
      · rename_i isMark
        have markers : marker = 96 ∨ marker = 126 := by
          by_contra neither
          exact isMark ⟨fun backtick => neither (.inl backtick), fun tilde => neither (.inr tilde)⟩
        have head : ((Cursor.new line column).rest.dropWhile isBlankByte).head? = some marker := by
          have whole := @List.takeWhile_append_dropWhile _ isBlankByte (Cursor.new line column).rest
          have dropped := congrArg
            (List.drop ((Cursor.new line column).rest.takeWhile isBlankByte).length) whole
          rw [List.drop_left] at dropped
          rw [dropped, ← Cursor.rest_advance]
          exact peeked
        exact absurd (FenceRun.of_blank_prefix short markers head) (noRun _ _ _ _)

theorem feedLine_problems (b : FencedBlock) (line : Line) (column : Nat) :
    ∀ w ∈ (b.feedLine line column).2.2, w.problem = .sameLineFence ∨
      (∃ opened closed, w.problem = .fenceLengthMismatch opened closed) ∨ w.problem = .textAfterFence := by
  unfold feedLine
  dsimp only
  split
  · simp
  · split
    · split <;> simp
    · split_ifs <;> simp

theorem fenceRun_or_none (line : Line) (column : Nat) :
    (∃ k m r after, FenceRun (Cursor.new line column).rest k m r after) ∨ openAt? line column = (none, []) := by
  by_cases exists_run : ∃ k m r after, FenceRun (Cursor.new line column).rest k m r after
  · exact .inl exists_run
  · exact .inr (openAt?_of_no_fenceRun fun k m r after run => exists_run ⟨k, m, r, after, run⟩)

section Runs

variable (run : FenceRun (Cursor.new line column).rest k m r after)
include run

theorem openAt?_short (short : r < 3) :
    openAt? line column = (none, if r = 2 then
      [SyntaxError.new line ((Cursor.new line column).offset + k + 1)
        ((Cursor.new line column).offset + k + 2) .shortFence] else []) := by
  rw [openAt?_of_fenceRun run, if_pos short]

theorem openAt?_long (long : 3 ≤ r) :
    let fed := (⟨line.number, 0, "", k, m, r, []⟩ : FencedBlock).feedLine line
      ((Cursor.new line column).offset + k + r + 1)
    openAt? line column = (some (fed.1, fed.2.1),
      (if 1 < column then
        [SyntaxError.new line ((Cursor.new line column).offset + k + 1) 0 .interruptsParagraph]
      else []) ++ fed.2.2) := by
  rw [openAt?_of_fenceRun run, if_neg (by omega)]

/-- A long run that does not come back later on the line opens a block that stays open, with the
rest of the line after the run as its info string. -/
theorem openAt?_stays_open (long : 3 ≤ r) (notClosing : ¬ (m = 96 ∧ List.replicate r m <:+: after)) :
    openAt? line column = (some (⟨line.number, 0, infoOf after, k, m, r, []⟩, .opened),
      if 1 < column then
        [SyntaxError.new line ((Cursor.new line column).offset + k + 1) 0 .interruptsParagraph]
      else []) := by
  have fed : (⟨line.number, 0, "", k, m, r, []⟩ : FencedBlock).feedLine line
      ((Cursor.new line column).offset + k + r + 1) = (⟨line.number, 0, infoOf after, k, m, r, []⟩, .opened, []) := by
    by_cases backtick : m = 96
    · have none : findSlice? (List.replicate r m) after = none := by
        cases found : findSlice? (List.replicate r m) after with
        | none => rfl
        | some f => exact absurd ⟨backtick, findSlice?_isSome_iff.mp (by simp [found])⟩ notClosing
      rw [feedLine_opening_none rfl (by rw [drop_after run]; exact none), drop_after run]
    · rw [feedLine_opening_tilde rfl backtick, drop_after run]
  rw [openAt?_long run long, fed, List.append_nil]

theorem openAt?_closes {f : Nat} (long : 3 ≤ r) (backtick : m = 96)
    (found : findSlice? (List.replicate r m) after = some f) :
    let block : FencedBlock := ⟨line.number, line.number, infoOf (after.take f), k, m, r, []⟩
    let o := (Cursor.new line column).offset
    openAt? line column = (some (block, .closed),
      (if 1 < column then [SyntaxError.new line (o + k + 1) 0 .interruptsParagraph] else []) ++
        SyntaxError.new line (o + k + r + f + 1) 0 .sameLineFence ::
          block.closingWarnings line (o + k + r + f) (runLength (after.drop f) m)) := by
  intro block o
  have fed := @feedLine_opening_found line ⟨line.number, 0, "", k, m, r, []⟩ (o + k + r) rfl backtick f
    (by rw [drop_after run]; exact found) (run_within run)
  rw [drop_after run, ← List.drop_drop, drop_after run] at fed
  rw [openAt?_long run long, fed]
  rfl

theorem openAt?_long_problems (long : 3 ≤ r) :
    ∀ w ∈ (openAt? line column).2, w.problem ≠ .shortFence ∧
      (w.problem = .interruptsParagraph → 1 < column) := by
  intro w member
  rw [openAt?_long run long] at member
  rcases List.mem_append.mp member with interrupts | fed
  · split_ifs at interrupts with after1
    · simp only [List.mem_singleton] at interrupts
      subst interrupts
      exact ⟨by simp, fun _ => after1⟩
    · cases interrupts
  · rcases feedLine_problems _ line _ w fed with same | ⟨_, _, mismatch⟩ | trailing
    all_goals simp_all

end Runs

/-- Looking for a fence at a column of a line. It opens a block exactly when the rest of the line
there is at most three spaces and a maximal run of three or more backticks or tildes. The block
starts on the line, with the spaces as its indent and the run as its terminator. A backtick run
that comes back later on the line closes it at once: the text before that first occurrence is the
info string, the block has no lines, and the closing raises that the fence begins and ends on one
line, at the occurrence, along with the warnings of a closing line. Otherwise the block stays
open, the rest of the line after the run being its info string. A fence that opens after column 1
interrupts a paragraph, at its first mark. A run of exactly two marks opens nothing and raises one
warning, over the two marks; anything else opens nothing and raises nothing. -/
theorem openAt?_spec (line : Line) (column : Nat) :
    let rest := (Cursor.new line column).rest
    let o := (Cursor.new line column).offset
    let opened := openAt? line column
    (opened.1.isSome ↔ ∃ k m r after, FenceRun rest k m r after ∧ 3 ≤ r) ∧
    (∀ k m r after, FenceRun rest k m r after → 3 ≤ r →
      let interrupts := if 1 < column then [SyntaxError.new line (o + k + 1) 0 .interruptsParagraph] else []
      (¬ (m = 96 ∧ List.replicate r m <:+: after) →
        opened = (some (⟨line.number, 0, infoOf after, k, m, r, []⟩, .opened), interrupts)) ∧
      ∀ f, m = 96 → List.replicate r m <+: after.drop f → (∀ g < f, ¬ List.replicate r m <+: after.drop g) →
        let block : FencedBlock := ⟨line.number, line.number, infoOf (after.take f), k, m, r, []⟩
        opened = (some (block, .closed), interrupts ++
          SyntaxError.new line (o + k + r + f + 1) 0 .sameLineFence ::
            block.closingWarnings line (o + k + r + f) (runLength (after.drop f) m))) ∧
    (opened.2.countP (·.problem = .shortFence) = 1 ↔ ∃ k m after, FenceRun rest k m 2 after) ∧
    (∀ k m after, FenceRun rest k m 2 after →
      opened = (none, [SyntaxError.new line (o + k + 1) (o + k + 2) .shortFence])) ∧
    ((∃ w ∈ opened.2, w.problem = .interruptsParagraph) ↔ opened.1.isSome ∧ 1 < column) ∧
    ((¬ ∃ k m r after, FenceRun rest k m r after ∧ 2 ≤ r) → opened = (none, [])) := by
  intro rest o opened
  have isSome_iff : opened.1.isSome ↔ ∃ k m r after, FenceRun rest k m r after ∧ 3 ≤ r := by
    constructor
    · intro isSome
      rcases fenceRun_or_none line column with ⟨k, m, r, after, run⟩ | none
      · by_cases long : 3 ≤ r
        · exact ⟨k, m, r, after, run, long⟩
        · simp [opened, openAt?_short run (by omega)] at isSome
      · simp [opened, none] at isSome
    · rintro ⟨k, m, r, after, run, long⟩
      simp [opened, openAt?_long run long]
  refine ⟨isSome_iff, fun k m r after run long => ⟨openAt?_stays_open run long, ?_⟩, ⟨?_, ?_⟩,
    fun k m after run => ?_, ⟨?_, ?_⟩, ?_⟩
  · intro f backtick first earliest
    exact openAt?_closes run long backtick (findSlice?_eq_some_iff.mpr ⟨first, earliest⟩)
  · intro counted
    rcases fenceRun_or_none line column with ⟨k, m, r, after, run⟩ | none
    · by_cases long : 3 ≤ r
      · have noShort : opened.2.countP (·.problem = .shortFence) = 0 :=
          List.countP_eq_zero.mpr fun w member => by simpa using (openAt?_long_problems run long w member).1
        omega
      · by_cases two : r = 2
        · subst two
          exact ⟨k, m, after, run⟩
        · simp [opened, openAt?_short run (by omega), two] at counted
    · simp [opened, none] at counted
  · rintro ⟨k, m, after, run⟩
    simp [opened, openAt?_short run (by omega)]
  · simpa using openAt?_short run (by omega)
  · rintro ⟨w, member, interrupts⟩
    rcases fenceRun_or_none line column with ⟨k, m, r, after, run⟩ | none
    · by_cases long : 3 ≤ r
      · exact ⟨isSome_iff.mpr ⟨k, m, r, after, run, long⟩, (openAt?_long_problems run long w member).2 interrupts⟩
      · rw [show opened = openAt? line column from rfl, openAt?_short run (by omega)] at member
        split_ifs at member <;> simp_all
    · simp [opened, none] at member
  · rintro ⟨isSome, after1⟩
    obtain ⟨k, m, r, after, run, long⟩ := isSome_iff.mp isSome
    refine ⟨SyntaxError.new line (o + k + 1) 0 .interruptsParagraph, ?_, rfl⟩
    rw [show opened = openAt? line column from rfl, openAt?_long run long, if_pos after1]
    exact List.mem_append_left _ (List.mem_singleton_self _)
  · intro noRun
    rcases fenceRun_or_none line column with ⟨k, m, r, after, run⟩ | none
    · have single : r = 1 := by
        by_contra more
        exact noRun ⟨k, m, r, after, run, by have := run.run_pos; omega⟩
      subst single
      simpa using openAt?_short run (by omega)
    · exact none

end FencedBlock

end DocExamples
