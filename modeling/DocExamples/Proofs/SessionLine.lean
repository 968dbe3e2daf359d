import DocExamples.Proofs.Unclosed

namespace DocExamples

section Spaces

theorem runLength_take {text : List UInt8} {f : Nat} {m : UInt8} (beyond : runLength text m < f) :
    runLength (text.take f) m = runLength text m := by
  induction text generalizing f with
  | nil => simp
  | cons b rest ih =>
    obtain ⟨g, rfl⟩ : ∃ g, f = g + 1 := ⟨f - 1, by omega⟩
    by_cases same : b = m
    · subst same
      have step : ∀ bytes : List UInt8, runLength (b :: bytes) b = runLength bytes b + 1 := by
        intro bytes
        simp [runLength]
      rw [List.take_succ_cons, step, step]
      rw [step] at beyond
      rw [ih (by omega)]
    · have stops : ∀ bytes : List UInt8, runLength (b :: bytes) m = 0 := by
        intro bytes
        simp [runLength, same]
      rw [List.take_succ_cons, stops, stops]

theorem isBlankBytes_take {text : List UInt8} {f : Nat} (within : f ≤ runLength text 32) :
    isBlankBytes (text.take f) = true := by
  induction text generalizing f with
  | nil => simp [isBlankBytes]
  | cons b rest ih =>
    cases f with
    | zero => simp [isBlankBytes]
    | succ g =>
      by_cases space : b = 32
      · subst space
        have step : runLength ((32 : UInt8) :: rest) 32 = runLength rest 32 + 1 := by
          simp [runLength]
        rw [step] at within
        have inner := ih (f := g) (by omega)
        simp only [isBlankBytes, List.take_succ_cons, List.all_cons] at inner ⊢
        simp [inner, isBlankByte]
      · have stops : runLength (b :: rest) 32 = 0 := by simp [runLength, space]
        omega

theorem spacesUpTo_take {n f : Nat} {text : List UInt8} (notBlank : isBlankBytes (text.take f) = false) :
    spacesUpTo n (text.take f) = spacesUpTo n text := by
  have beyond : runLength text 32 < f := by
    by_contra within
    rw [isBlankBytes_take (Nat.le_of_not_lt within)] at notBlank
    cases notBlank
  simp only [spacesUpTo, runLength_take beyond]

/-- A line cut at `stop`, with its leading spaces skipped as far as `n` of them: when the cut keeps
as many of them as the whole line has, what is left stands in the line right after those spaces
and ends at the cut. -/
theorem cut_spec {text : List UInt8} {n stop : Nat} (within : stop ≤ text.length)
    (same : spacesUpTo n (text.take stop) = spacesUpTo n text) :
    spacesUpTo n text + ((text.take stop).drop (spacesUpTo n text)).length = stop ∧
      (text.drop (spacesUpTo n text)).take ((text.take stop).drop (spacesUpTo n text)).length =
        (text.take stop).drop (spacesUpTo n text) := by
  have counted : spacesUpTo n text ≤ stop := by
    have atMostRun : spacesUpTo n (text.take stop) ≤ runLength (text.take stop) 32 := Nat.min_le_right _ _
    have runShort : runLength (text.take stop) 32 ≤ (text.take stop).length :=
      (List.takeWhile_sublist _).length_le
    rw [List.length_take] at runShort
    omega
  have length : ((text.take stop).drop (spacesUpTo n text)).length = stop - spacesUpTo n text := by
    simp only [List.length_drop, List.length_take]
    omega
  refine ⟨by omega, ?_⟩
  rw [length, List.drop_take]

end Spaces

namespace FencedBlock

/-- The bytes a block keeps of a line fed to it after its opening one: the whole line, or the text
before the first occurrence of its terminator when the line holds it. -/
def keptOf (b : FencedBlock) (text : List UInt8) : List UInt8 :=
  match findSlice? b.terminator text with
  | none => text
  | some f => text.take f

theorem keptOf_feedAll (b : FencedBlock) (state : FenceState) (lines : List Line) (text : List UInt8) :
    (b.feedAll state lines).1.keptOf text = b.keptOf text := by
  simp only [keptOf, feedAll_terminator]

theorem lines_prefix_feedLine (b : FencedBlock) (line : Line) (column : Nat) :
    b.lines <+: (b.feedLine line column).1.lines := by
  have pushed : ∀ text, b.lines <+: (b.pushLine text).lines := fun text => List.prefix_append _ _
  unfold feedLine
  dsimp only
  split
  · exact List.prefix_refl _
  · split
    · split
      · exact List.prefix_refl _
      · exact pushed _
    · split
      · exact List.prefix_refl _
      · split
        · exact List.prefix_refl _
        · exact pushed _

theorem lines_prefix_feedAll (b : FencedBlock) (state : FenceState) (lines : List Line) :
    b.lines <+: (b.feedAll state lines).1.lines := by
  induction lines generalizing b state with
  | nil => exact List.prefix_refl _
  | cons line rest ih => exact (b.lines_prefix_feedLine line 1).trans (ih _ _)

/-- The first content line of a block that had none comes from the first line fed to it after its
opening one, the last it is fed when it closes the block: it is what the block kept of that line,
less its common prefix with the indent, and what it kept is not blank when that line closed the
block. -/
theorem first_of_fed {b : FencedBlock} {raw : Line} {rest : List Line} {first : List UInt8}
    (empty : b.lines = []) (later : raw.number ≠ b.startLine)
    (last : b.terminator <:+: raw.text → rest = [])
    (head : (b.feedAll .opened (raw :: rest)).1.lines.head? = some first) :
    first = (b.keptOf raw.text).drop (spacesUpTo b.indent (b.keptOf raw.text)) ∧
      (b.terminator <:+: raw.text → isBlankBytes (b.keptOf raw.text) = false) := by
  have fedFirst : ∀ fed : FencedBlock × FenceState × List SyntaxError, b.feedLine raw 1 = fed →
      (b.feedAll .opened (raw :: rest)).1 = (fed.1.feedAll fed.2.1 rest).1 := by
    intro fed step
    simp [feedAll, step]
  cases found : findSlice? b.terminator raw.text with
  | none =>
    have kept : b.keptOf raw.text = raw.text := by simp [keptOf, found]
    have notClosing : ¬ b.terminator <:+: raw.text := by
      rw [← findSlice?_isSome_iff, found]
      simp
    have grown := lines_prefix_feedAll (b.pushLine raw.text) .opened rest
    rw [← fedFirst _ (feedLine_of_none later found)] at grown
    simp only [pushLine, empty, List.nil_append] at grown
    obtain ⟨after, grownEq⟩ := grown
    rw [← grownEq] at head
    cases head
    exact ⟨by rw [kept], fun closes => absurd closes notClosing⟩
  | some f =>
    have kept : b.keptOf raw.text = raw.text.take f := by simp [keptOf, found]
    have closes : b.terminator <:+: raw.text := findSlice?_isSome_iff.mp (by simp [found])
    rw [fedFirst _ (feedLine_of_found later found), last closes] at head
    simp only [feedAll, empty, List.nil_append, closingLines] at head
    split at head
    · cases head
    · rename_i notBlank
      cases head
      exact ⟨by rw [kept], fun _ => by rw [kept]; simpa using notBlank⟩

/-- What a block keeps of a line is the line cut at some `stop`, at its end exactly when the line
does not hold the terminator. When what is kept of a closing line is not blank, the cut keeps all
of the line's leading spaces. -/
theorem keptOf_eq_take (b : FencedBlock) {text : List UInt8} (long : 0 < b.terminator.length)
    (keptNotBlank : b.terminator <:+: text → isBlankBytes (b.keptOf text) = false) :
    ∃ stop, b.keptOf text = text.take stop ∧ stop ≤ text.length ∧
      spacesUpTo b.indent (text.take stop) = spacesUpTo b.indent text ∧
      (stop = text.length ↔ ¬ b.terminator <:+: text) := by
  cases found : findSlice? b.terminator text with
  | none =>
    have notClosing : ¬ b.terminator <:+: text := by
      rw [← findSlice?_isSome_iff, found]
      simp
    refine ⟨text.length, by simp [keptOf, found], le_refl _, by simp, ?_⟩
    simp [notClosing]
  | some f =>
    have closes : b.terminator <:+: text := findSlice?_isSome_iff.mp (by simp [found])
    have cutAt : b.keptOf text = text.take f := by simp [keptOf, found]
    have notBlank := keptNotBlank closes
    rw [cutAt] at notBlank
    have room : f + b.terminator.length ≤ text.length := by
      have there := (findSlice?_eq_some_iff.mp found).1.length_le
      rw [List.length_drop] at there
      have := findSlice?_le_length found
      omega
    refine ⟨f, cutAt, by omega, spacesUpTo_take notBlank, ?_⟩
    simp only [closes, not_true_eq_false, iff_false]
    omega

theorem openAt?_terminator_length {line : Line} {column : Nat} {found : FencedBlock × FenceState}
    (opened : (openAt? line column).1 = some found) : 3 ≤ found.1.terminator.length := by
  rcases fenceRun_or_none line column with ⟨k, m, r, after, run⟩ | none
  · by_cases short : r < 3
    · rw [openAt?_short run short] at opened
      cases opened
    · rw [openAt?_long run (Nat.le_of_not_lt short)] at opened
      cases opened
      rw [feedLine_terminator]
      simp only [terminator, List.length_replicate]
      omega
  · rw [none] at opened
    cases opened

end FencedBlock

namespace Segment

theorem mem_blocks {o : OpenBlock} :
    ∀ {before : List Line} {segments : List Segment}, o ∈ Segment.blocks before segments →
      ∃ opening fenced state body caption, Segment.block opening (fenced, state) body ∈ segments ∧
        o = ⟨(fenced.feedAll state body).1, opening, body, caption⟩
  | _, [], member => by cases member
  | before, .outside line :: rest, member => by
    obtain ⟨opening, fenced, state, body, caption, inRest, rfl⟩ := @mem_blocks o (before ++ [line]) rest member
    exact ⟨opening, fenced, state, body, caption, List.mem_cons_of_mem _ inRest, rfl⟩
  | before, .block opening (fenced, state) body :: rest, member => by
    rcases List.mem_cons.mp member with here | there
    · exact ⟨opening, fenced, state, body, captionOf before, List.mem_cons_self, here⟩
    · obtain ⟨opening', fenced', state', body', caption', inRest, rfl⟩ := mem_blocks there
      exact ⟨opening', fenced', state', body', caption', List.mem_cons_of_mem _ inRest, rfl⟩

end Segment

namespace Layout

variable {lines : List Line} {segments : List Segment}

/-- The lines a block of a layout takes come after its opening line, and none of them but the last
holds its terminator. Induction on the layout. -/
theorem mem_block_body (layout : Layout lines segments)
    (numbers : lines.Pairwise fun a b => a.number < b.number) {opening : Line} {block : FencedBlock}
    {state : FenceState} {body : List Line} (member : Segment.block opening (block, state) body ∈ segments) :
    (∀ taken ∈ body, opening.number < taken.number) ∧
      ∀ taken ∈ body.dropLast, ¬ block.terminator <:+: taken.text := by
  induction layout with
  | nil => cases member
  | outside _ _ ih =>
    exact ih numbers.of_cons (List.mem_of_ne_of_mem (by simp) member)
  | closedOnOpening _ _ _ ih =>
    rcases List.mem_cons.mp member with here | there
    · cases here
      simp
    · exact ih numbers.of_cons there
  | @closedLater line fenced taken closer rest segments _ notClosing _ _ ih =>
    obtain ⟨later, numbersAfter⟩ := List.pairwise_cons.mp numbers
    rcases List.mem_cons.mp member with here | there
    · cases here
      refine ⟨fun t member => later t ?_, ?_⟩
      · rcases List.mem_append.mp member with inTaken | isCloser
        · exact List.mem_append_left _ inTaken
        · rw [List.mem_singleton.mp isCloser]
          simp
      · rw [List.dropLast_concat]
        exact notClosing
    · exact ih (List.pairwise_append.mp numbersAfter).2.1.of_cons there
  | unclosed _ notClosing =>
    cases List.mem_singleton.mp member
    exact ⟨(List.pairwise_cons.mp numbers).1,
      fun t member => notClosing t (List.dropLast_subset _ member)⟩

end Layout

/-- A session's command line is its first physical line cut after the first content line, read
from three columns past the spaces the indent took off it. -/
theorem OpenBlock.commandLine?_eq_some {o : OpenBlock} {program : String} {first : List UInt8}
    {raw commandLine : Line} {column : Nat} (head : o.block.lines.head? = some first)
    (rawHead : o.lines.head? = some raw) (session : o.commandLine? program = some (commandLine, column)) :
    commandLine = { raw with text := raw.text.take (spacesUpTo o.block.indent raw.text + first.length) } ∧
      column = spacesUpTo o.block.indent raw.text + 3 := by
  unfold OpenBlock.commandLine? at session
  rw [head, rawHead] at session
  dsimp only at session
  split at session
  · cases session
  · cases session
    exact ⟨rfl, rfl⟩

/-- What an example session reads as its command line. For every block of a document that has a
first content line `first`, let `raw` be the first line it took after its opening one and `p` the
number of spaces at the front of `raw`, up to as many as the opening indent has: its longest
common prefix with the indent. Then `first` is what the block kept of `raw`, less that prefix; it
stands in `raw` at `p` and ends by the end of `raw`, so cutting `raw` after it gives exactly what the
block kept: the whole line, unless the line closed the block, and then the text before its
terminator. That cut is the line the session's command is read from, at column `p + 3`. -/
theorem commandLine_kept (file : String) (bytes : List UInt8) (segments : List Segment)
    (layout : Layout (documentLines file bytes) segments) :
    ∀ o ∈ Segment.blocks [] segments, ∀ first raw,
      o.block.lines.head? = some first → o.lines.head? = some raw →
      let p := spacesUpTo o.block.indent raw.text
      let kept := o.block.keptOf raw.text
      (List.replicate p 32 <+: raw.text ∧ p ≤ o.block.indent ∧
        (p < o.block.indent → raw.text[p]? ≠ some 32)) ∧
      first = kept.drop (spacesUpTo o.block.indent kept) ∧
      p + first.length ≤ raw.text.length ∧
      (raw.text.drop p).take first.length = first ∧
      raw.text.take (p + first.length) = kept ∧
      (p + first.length = raw.text.length ↔ ¬ o.block.terminator <:+: raw.text) ∧
      ∀ program commandLine column, o.commandLine? program = some (commandLine, column) →
        commandLine = { raw with text := kept } ∧ column = p + 3 := by
  intro o member first raw head rawHead p kept
  obtain ⟨opening, fenced, state, body, caption, inSegments, rfl⟩ := Segment.mem_blocks member
  obtain ⟨-, opens, closedTakesNone⟩ := layout.mem_block inSegments
  obtain ⟨later, notClosing⟩ := layout.mem_block_body (documentLines_numbers file bytes) inSegments
  obtain ⟨rest, rfl⟩ : ∃ rest, body = raw :: rest := List.head?_eq_some_iff.mp rawHead
  cases state with
  | closed => cases closedTakesNone rfl
  | opened => ?_
  obtain ⟨column, atColumn⟩ := opens.exists_openAt
  obtain ⟨start, -, empty⟩ := FencedBlock.openAt?_opened (Prod.ext atColumn rfl :
    FencedBlock.openAt? opening column = (some (fenced, .opened), (FencedBlock.openAt? opening column).2))
  have rawLater : raw.number ≠ fenced.startLine := by
    have := later raw List.mem_cons_self
    omega
  have last : fenced.terminator <:+: raw.text → rest = [] := by
    intro closes
    cases rest with
    | nil => rfl
    | cons next more => exact absurd closes (notClosing raw (by simp))
  obtain ⟨produced, keptNotBlank⟩ := FencedBlock.first_of_fed empty rawLater last head
  have indent : p = spacesUpTo fenced.indent raw.text := by simp [p]
  have keptEq : kept = fenced.keptOf raw.text := FencedBlock.keptOf_feedAll _ _ _ _
  have terminatorEq : (fenced.feedAll .opened (raw :: rest)).1.terminator = fenced.terminator :=
    FencedBlock.feedAll_terminator _ _ _
  have long : 3 ≤ fenced.terminator.length := FencedBlock.openAt?_terminator_length atColumn
  obtain ⟨stop, cut, within, same, whole⟩ := fenced.keptOf_eq_take (by omega) keptNotBlank
  obtain ⟨ends, stands⟩ := cut_spec within same
  have firstEq : first = (raw.text.take stop).drop (spacesUpTo fenced.indent raw.text) := by
    rw [produced, cut, same]
  simp only [FencedBlock.feedAll_indent] at indent ⊢
  rw [indent, keptEq, terminatorEq, cut, firstEq]
  refine ⟨spacesUpTo_spec fenced.indent raw.text, by rw [same], by omega, stands, by rw [ends], by rw [ends, whole], ?_⟩
  intro program commandLine column session
  obtain ⟨rfl, rfl⟩ := OpenBlock.commandLine?_eq_some head rawHead session
  simp only [FencedBlock.feedAll_indent]
  rw [firstEq, ends]
  exact ⟨rfl, trivial⟩

/-- A session block whose command line `$ x` is closed by the next line: the session's command
line is that whole line, read from column 3. -/
theorem commandLine_kept_session :
    let opening : Line := ⟨[96, 96, 96], "README.md", 1⟩
    let raw : Line := ⟨[36, 32, 120], "README.md", 2⟩
    let block : FencedBlock := ⟨1, 0, FencedBlock.infoOf [], 0, 96, 3, []⟩
    let segments := [Segment.block opening (block, .opened) [raw, ⟨[96, 96, 96], "README.md", 3⟩]]
    Layout (documentLines "README.md" [96, 96, 96, 10, 36, 32, 120, 10, 96, 96, 96]) segments ∧
      ∃ o ∈ Segment.blocks [] segments, o.block.lines.head? = some [36, 32, 120] ∧
        o.lines.head? = some raw ∧
        ∀ program commandLine column, o.commandLine? program = some (commandLine, column) →
          commandLine = raw ∧ column = 3 := by
  intro opening raw block segments
  have lines : documentLines "README.md" [96, 96, 96, 10, 36, 32, 120, 10, 96, 96, 96] =
      opening :: ([raw] ++ ⟨[96, 96, 96], "README.md", 3⟩ :: []) := by
    decide
  have layout : Layout (documentLines "README.md" [96, 96, 96, 10, 36, 32, 120, 10, 96, 96, 96]) segments := by
    have opens : Opens opening (block, .opened) := .atStart (by unfold opening block; rfl)
    rw [lines]
    exact .closedLater opens (by decide) (by decide) .nil
  let o : OpenBlock := ⟨(block.feedAll .opened [raw, ⟨[96, 96, 96], "README.md", 3⟩]).1, opening,
    [raw, ⟨[96, 96, 96], "README.md", 3⟩], captionOf []⟩
  have member : o ∈ Segment.blocks [] segments := List.mem_singleton.mpr rfl
  refine ⟨layout, o, member, rfl, rfl, fun program commandLine column read => ?_⟩
  obtain ⟨-, -, -, -, -, -, session⟩ :=
    commandLine_kept "README.md" _ segments layout o member [36, 32, 120] raw rfl rfl
  obtain ⟨rfl, rfl⟩ := session program commandLine column read
  exact ⟨rfl, rfl⟩

end DocExamples
