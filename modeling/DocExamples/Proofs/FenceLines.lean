import DocExamples.Proofs.Layout
import DocExamples.Proofs.Progress

namespace DocExamples

section Indent

/-- The spaces that `spacesUpTo n` counts are the longest common prefix of the text and `n`
spaces. -/
theorem spacesUpTo_spec (n : Nat) (text : List UInt8) :
    List.replicate (spacesUpTo n text) 32 <+: text ∧ spacesUpTo n text ≤ n ∧
      (spacesUpTo n text < n → text[spacesUpTo n text]? ≠ some 32) := by
  have run : text.takeWhile (· == 32) = List.replicate (runLength text 32) 32 :=
    List.eq_replicate_iff.mpr ⟨rfl, fun b member => by simpa using List.mem_takeWhile_imp member⟩
  have counted : spacesUpTo n text ≤ runLength text 32 := Nat.min_le_right _ _
  refine ⟨?_, Nat.min_le_left _ _, fun short => ?_⟩
  · have within := List.take_prefix (spacesUpTo n text) (List.replicate (runLength text 32) (32 : UInt8))
    rw [List.take_replicate, Nat.min_eq_left counted] at within
    have taken := List.takeWhile_prefix (l := text) (· == 32)
    rw [run] at taken
    exact within.trans taken
  · have whole : spacesUpTo n text = runLength text 32 := by
      unfold spacesUpTo at short ⊢
      omega
    have dropped : text.drop (runLength text 32) = text.dropWhile (· == 32) := by
      have split := List.takeWhile_append_dropWhile (p := (· == 32)) (l := text)
      have := @List.drop_left' _ (text.takeWhile (· == 32)) (text.dropWhile (· == 32)) (runLength text 32) rfl
      rwa [split] at this
    intro first
    have head := List.head?_dropWhile_not (· == 32) text
    rw [← dropped, List.head?_drop, ← whole, first] at head
    simp at head

end Indent

namespace Cursor

theorem rest_new_succ (line : Line) (n : Nat) : (Cursor.new line (n + 1)).rest = line.text.drop n := by
  simp only [Cursor.new, Cursor.rest, Nat.add_sub_cancel]
  by_cases within : n ≤ line.text.length
  · rw [Nat.min_eq_left within]
  · rw [Nat.min_eq_right (by omega), List.drop_length, List.drop_eq_nil_of_le (by omega)]

theorem new_advance (line : Line) (n m : Nat) :
    (Cursor.new line (n + 1)).advance m = Cursor.new line (n + m + 1) :=
  Cursor.ext rfl (by simp only [Cursor.new, Cursor.advance]; omega)

end Cursor

theorem FenceState.opened_iff_not_closed (state : FenceState) :
    state = .opened ↔ ¬ state = .closed := by
  cases state <;> simp

namespace FencedBlock

/-- What a closing line keeps, the terminator first standing at byte `f`: the text before it,
less its common prefix with the opening indent, unless it is only spaces and tabs. -/
def closingLines (b : FencedBlock) (line : Line) (f : Nat) : List (List UInt8) :=
  if isBlankBytes (line.text.take f) then []
  else [(line.text.take f).drop (spacesUpTo b.indent (line.text.take f))]

/-- The warnings a closing line raises, the terminator first standing at byte `f` in a run of
`run` marks: a length mismatch over the run when it is not as long as the opening fence, and text
after the fence, from the first byte after the run that is no blank to the end of the line, when
anything but ASCII white space follows the run. -/
def closingWarnings (b : FencedBlock) (line : Line) (f run : Nat) : List SyntaxError :=
  (if run = b.fenceLength then []
    else [(Cursor.new line (f + 1)).errorUntil (Cursor.new line (f + run + 1))
      (.fenceLengthMismatch b.fenceLength run)]) ++
  (if (line.text.drop (f + run)).all isTrimByte then []
    else [(Cursor.new line (f + run + 1)).skipBlanks.errorToEnd .textAfterFence])

variable {b : FencedBlock} {line : Line}

theorem feedLine_of_none (later : line.number ≠ b.startLine)
    (none : findSlice? b.terminator line.text = none) :
    b.feedLine line 1 = (b.pushLine line.text, .opened, []) := by
  simp [feedLine, rest_new_one, later, none]

theorem feedLine_of_found {f : Nat} (later : line.number ≠ b.startLine)
    (found : findSlice? b.terminator line.text = some f) :
    b.feedLine line 1 =
      ({ b with endLine := line.number, lines := b.lines ++ b.closingLines line f }, .closed,
        b.closingWarnings line f (runLength (line.text.drop f) b.marker)) := by
  have fence : (Cursor.new line 1).advance f = Cursor.new line (f + 1) := by
    simpa using Cursor.new_advance line 0 f
  simp only [feedLine, later, false_and, if_false, found, fence, Cursor.rest_new_succ,
    Cursor.new_advance, trimAscii_isEmpty, closingWarnings, closingLines, List.drop_zero]
  split
  · simp
  · simp only [pushLine]
    rfl

theorem feedLine_opening_opened {column : Nat} {block : FencedBlock} {raised : List SyntaxError}
    (opening : line.number = b.startLine) (fed : b.feedLine line column = (block, .opened, raised)) :
    block.startLine = b.startLine ∧ block.endLine = b.endLine ∧ block.lines = b.lines := by
  by_cases backtick : b.marker = 96
  · cases found : findSlice? b.terminator (Cursor.new line column).rest with
    | none =>
      simp only [feedLine, opening, backtick, ne_eq, not_true_eq_false, and_false, if_false, found,
        if_true, Prod.mk.injEq] at fed
      obtain ⟨rfl, -⟩ := fed
      exact ⟨rfl, rfl, rfl⟩
    | some f => simp [feedLine, opening, backtick, found] at fed
  · simp only [feedLine, opening, backtick, ne_eq, not_false_eq_true, and_self, if_true,
      Prod.mk.injEq] at fed
    obtain ⟨rfl, -⟩ := fed
    exact ⟨rfl, rfl, rfl⟩

theorem openAt?_opened {column : Nat} {warnings : List SyntaxError}
    (opened : openAt? line column = (some (b, .opened), warnings)) :
    b.startLine = line.number ∧ b.endLine = 0 ∧ b.lines = [] := by
  unfold openAt? at opened
  dsimp only at opened
  split at opened
  · cases opened
  · split at opened
    · cases opened
    · split at opened
      · cases opened
      · split at opened
        · cases opened
        · generalize fed : FencedBlock.feedLine _ line _ = result at opened
          obtain ⟨block, state, raised⟩ := result
          have same := (Prod.mk.inj opened).1
          simp only [Option.some.injEq, Prod.mk.injEq] at same
          obtain ⟨rfl, rfl⟩ := same
          exact feedLine_opening_opened rfl fed

/-- Later lines without the terminator join an open block one after another, each less its common
prefix with the opening indent, and the block stays open without warnings. Induction on the
lines; the block they are fed to varies. -/
theorem feedAll_of_open (b : FencedBlock) (body : List Line)
    (keeps : ∀ line ∈ body, line.number ≠ b.startLine ∧ ¬ b.terminator <:+: line.text) :
    b.feedAll .opened body =
      ({ b with lines := b.lines ++ body.map fun line => line.text.drop (spacesUpTo b.indent line.text) },
        .opened, []) := by
  induction body generalizing b with
  | nil => simp [feedAll]
  | cons line rest ih =>
    obtain ⟨later, notClosing⟩ := keeps line List.mem_cons_self
    have none : findSlice? b.terminator line.text = none :=
      Option.not_isSome_iff_eq_none.mp (mt findSlice?_isSome_iff.mp notClosing)
    have joined := ih (b.pushLine line.text) fun taken member => keeps taken (List.mem_cons_of_mem _ member)
    simp only [feedAll, feedLine_of_none later none, joined]
    simp [pushLine]

/-- A block that its opening line leaves open, fed later lines at column 1 up to the first that
holds its terminator: the lines before that one leave it open without warnings, each joining it
less its longest common prefix with the opening indent; a later line leaves it open exactly when
it does not hold the terminator; and the first that does closes it, recording its number,
keeping the text before the terminator's first occurrence unless that text is blank, and raising
the warnings of the run of marks there. The block is closed exactly once that line is fed, and
its content is then the lines it kept, each followed by a line break. -/
theorem feedLines_until_closed {opening : Line} {column : Nat} {b : FencedBlock}
    {warnings : List SyntaxError} (opened : openAt? opening column = (some (b, .opened), warnings))
    (body : List Line)
    (keeps : ∀ line ∈ body, line.number ≠ opening.number ∧ ¬ b.terminator <:+: line.text) :
    let kept := body.map fun line => line.text.drop (spacesUpTo b.indent line.text)
    let fed := b.feedAll .opened body
    fed = ({ b with lines := kept }, .opened, []) ∧ fed.1.isClosed = false ∧
      fed.1.content = kept.flatMap (· ++ [10]) ∧
      ∀ closer : Line, closer.number ≠ opening.number →
        ((fed.1.feedLine closer 1).2.1 = .opened ↔ ¬ b.terminator <:+: closer.text) ∧
        ∀ f, b.terminator <+: closer.text.drop f → (∀ g < f, ¬ b.terminator <+: closer.text.drop g) →
          fed.1.feedLine closer 1 =
            ({ b with endLine := closer.number, lines := kept ++ b.closingLines closer f }, .closed,
              b.closingWarnings closer f (runLength (closer.text.drop f) b.marker)) ∧
          (0 < closer.number → (fed.1.feedLine closer 1).1.isClosed = true) ∧
          (fed.1.feedLine closer 1).1.content = (kept ++ b.closingLines closer f).flatMap (· ++ [10]) := by
  intro kept fed
  obtain ⟨start, ended, empty⟩ := openAt?_opened opened
  have run := feedAll_of_open b body fun line member => start ▸ keeps line member
  rw [empty, List.nil_append] at run
  have isFed : fed = ({ b with lines := kept }, .opened, []) := run
  refine ⟨isFed, by simp [isFed, isClosed, ended], by simp [isFed, content],
    fun closer later => ⟨?_, fun f first earliest => ?_⟩⟩
  · have later' : closer.number ≠ fed.1.startLine := by
      rw [isFed, start]
      exact later
    rw [FenceState.opened_iff_not_closed, feedLine_closed_iff_contains later', isFed]
    rfl
  · have later' : closer.number ≠ ({ b with lines := kept } : FencedBlock).startLine := by
      rw [start]
      exact later
    have found : findSlice? b.terminator closer.text = some f :=
      findSlice?_eq_some_iff.mpr ⟨first, earliest⟩
    have step := feedLine_of_found later' found
    refine ⟨by rw [isFed]; exact step, fun numbered => ?_, by rw [isFed, step]; rfl⟩
    rw [isFed, step]
    simp [isClosed]
    omega

/-- A block opened by a backtick fence indented by two spaces takes a line indented by three less
two of them, and a longer fence with text after it closes the block with both warnings. -/
theorem feedLines_until_closed_sample :
    let b : FencedBlock := ⟨1, 0, infoOf [], 2, 96, 3, []⟩
    let closed := (b.feedAll .opened [⟨[32, 32, 32, 120], "README.md", 2⟩]).1.feedLine
      ⟨[32, 32, 96, 96, 96, 96, 32, 121], "README.md", 3⟩ 1
    closed.2.1 = .closed ∧ closed.1.isClosed = true ∧ closed.1.content = [32, 120, 10] ∧
      closed.2.2.length = 2 := by
  intro b closed
  have opened : openAt? ⟨[32, 32, 96, 96, 96], "README.md", 1⟩ 1 = (some (b, .opened), []) := rfl
  obtain ⟨-, -, -, closing⟩ :=
    feedLines_until_closed opened [⟨[32, 32, 32, 120], "README.md", 2⟩] (by decide)
  obtain ⟨-, step⟩ := closing ⟨[32, 32, 96, 96, 96, 96, 32, 121], "README.md", 3⟩ (by decide)
  obtain ⟨fed, closedNow, content⟩ := step 2 (by decide) (by decide)
  have result : closed = _ := fed
  exact ⟨by rw [result], closedNow (by decide), by rw [content]; rfl, by rw [result]; rfl⟩

end FencedBlock

end DocExamples
