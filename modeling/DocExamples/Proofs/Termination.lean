import DocExamples.Proofs.Invocation
import DocExamples.Proofs.WordGrammar

namespace DocExamples

namespace Shell

/-- A parser moves on: whatever it matches ends on the line it began on, past where it began. -/
def Advances {α : Type} (parse : Cursor → Scan α) : Prop :=
  ∀ start value stop, parse start = .matched value stop → start.Passes stop

/-- A parser that threads a state leaves it as it was whenever it does not match. -/
def KeepsOnNoMatch {σ α : Type} (parse : Cursor → σ → Scan α × σ) : Prop :=
  ∀ start state, (parse start state).1 = .noMatch → (parse start state).2 = state

section InlineFile

variable {cursor next after stop : Cursor}

theorem Closes.reaches (closes : Closes next stop) : next.Reaches stop := by
  rcases closes with ⟨-, rfl⟩ | ⟨-, -, rfl⟩
  · exact next.reaches_skipBlanks.trans (Cursor.reaches_advance _ _)
  · exact ((next.reaches_skipBlanks.trans (Cursor.reaches_advance _ _)).trans
      (Cursor.reaches_skipBlanks _)).trans (Cursor.reaches_advance _ _)

theorem Separated.reaches (separated : Separated next after) : next.Reaches after := by
  obtain ⟨-, rfl, -⟩ := separated
  exact (next.reaches_skipBlanks.trans (Cursor.reaches_advance _ _)).trans (Cursor.reaches_skipBlanks _)

/-- The commands of an inline file end past where they begin: each command does, and what
follows it never moves back. -/
theorem InlineCommands.passes {commands : List Command} (read : InlineCommands cursor commands stop) :
    cursor.Passes stop := by
  induction read with
  | last parsed closes => exact (command_passes parsed).trans_reaches closes.reaches
  | more parsed separated _ ih => exact ((command_passes parsed).trans_reaches separated.reaches).trans ih

theorem inlineFile_passes {state : InlineState} {name : String}
    (read : (inlineFile cursor state).1 = .matched name stop) : cursor.Passes stop := by
  obtain ⟨-, ⟨t, opened⟩, commands, commandsRead, -⟩ := inlineFile_matched_iff.mp read
  have peeked : cursor.peek = some 60 := Cursor.peek_of_rest opened.symm
  exact ((Cursor.passes_advance (Cursor.offset_lt_of_peek peeked) (by decide)).trans_reaches
    (Cursor.reaches_skipBlanks _)).trans commandsRead.passes

end InlineFile

theorem invocationArg_passes {state state' : InlineState} {cursor stop : Cursor} {arg : String}
    (read : invocationArg state cursor = (.matched arg stop, state')) : cursor.Passes stop := by
  unfold invocationArg at read
  rcases file : inlineFile cursor state with ⟨result, after⟩
  rw [file] at read
  cases result with
  | matched name next =>
    obtain ⟨-, rfl⟩ := Scan.matched.inj (Prod.mk.inj read).1
    exact inlineFile_passes (by rw [file])
  | noMatch => exact word_passes (Prod.mk.inj read).1
  | error e => cases read

theorem invocation_passes {state : InlineState} {start stop : Cursor} {read : Command × Span}
    (parsed : (invocation start state).1 = .matched read stop) : start.Passes stop :=
  commandWith_passes (fun _ _ _ _ _ argument => (invocationArg_passes argument).reaches) parsed

/-- A command line that reads no command leaves the state as it was, whatever its arguments
would do: no match means no name, and arguments are read only after a name. -/
theorem commandWith_keeps {σ : Type} (parseArg : σ → Cursor → Scan String × σ) (state : σ)
    (start : Cursor) (none : (commandWith parseArg state start).1 = .noMatch) :
    (commandWith parseArg state start).2 = state := by
  unfold commandWith at none ⊢
  split
  · rfl
  · rename_i assigned
    split
    · rfl
    · split <;> rfl
    · rename_i named
      rw [assigned] at none
      dsimp only at none
      rw [named] at none
      dsimp only at none
      split at none <;> cases none

theorem inlineFile_keeps : KeepsOnNoMatch inlineFile := by
  intro start state none
  rw [inlineFile_without_opening (inlineFile_noMatch_iff.mp none)]

theorem invocationArg_noMatch_keeps : KeepsOnNoMatch fun cursor state => invocationArg state cursor := by
  intro cursor state none
  dsimp only at none ⊢
  unfold invocationArg at none ⊢
  rcases file : inlineFile cursor state with ⟨result, after⟩
  have kept := inlineFile_keeps cursor state
  rw [file] at none kept
  cases result with
  | matched name next => cases none
  | noMatch => exact kept rfl
  | error e => cases none

theorem WordPieces.head_quoted {bytes : List UInt8} {chars : List Char}
    (pieces : WordPieces bytes chars) (empty : chars = []) (filled : bytes ≠ []) :
    bytes.head? = some 34 ∨ bytes.head? = some 39 := by
  cases pieces with
  | nil => exact absurd rfl filled
  | cons first others =>
    obtain ⟨unvalued, -⟩ := List.append_eq_nil_iff.mp empty
    cases first with
    | double => simp
    | single => simp
    | plain => cases unvalued
    | escaped => cases unvalued

theorem word_empty_quoted {c next : Cursor} (read : word c = .matched "" next) :
    c.peek = some 34 ∨ c.peek = some 39 := by
  obtain ⟨-, bytes, chars, pieces, filled, split, -, empty⟩ := pieces_of_word_matched read
  have noChars : chars = [] := by
    simpa using (congrArg String.toList empty).symm
  obtain ⟨b, t, rfl⟩ := List.exists_cons_of_ne_nil filled
  rw [Cursor.peek, split, List.cons_append, List.head?_cons]
  simpa using pieces.head_quoted noChars (List.cons_ne_nil b t)

/-- Every parser of a command line that matches ends on its line past where it began, a bare run
and a name never being empty and a word being empty only when it starts with a quote; those that
thread the inline files along leave them as they were when they do not match; and every loop
goes round only from a cursor past where the round before began, so that what is left of the line
shrinks: after a segment of a word, after an assignment and its blanks, after an argument
following blanks, and after a command of an inline file and its `;`. -/
theorem parsers_move_on :
    (Advances doubleQuoted ∧ Advances singleQuoted ∧ Advances bare ∧ Advances word ∧
      Advances identifier ∧ Advances assignment ∧ Advances command ∧
      (∀ state, Advances fun c => (inlineFile c state).1) ∧
      ∀ state, Advances fun c => (invocation c state).1) ∧
    (∀ c value next, bare c = .matched value next → value ≠ "") ∧
    (∀ c name next, identifier c = .matched name next → name ≠ "") ∧
    (∀ c next, word c = .matched "" next → c.peek = some 34 ∨ c.peek = some 39) ∧
    (KeepsOnNoMatch inlineFile ∧ KeepsOnNoMatch (fun c state => invocationArg state c) ∧
      KeepsOnNoMatch invocation) ∧
    (∀ c part next quoted, segment c = (.matched part next, quoted) → next.remaining < c.remaining) ∧
    (∀ c binding next, assignment c = .matched binding next → next.skipBlanks.remaining < c.remaining) ∧
    (∀ state (c : Cursor) arg next state', invocationArg state c.skipBlanks = (.matched arg next, state') →
      next.remaining < c.remaining) ∧
    (∀ (c : Cursor) arg next, word c.skipBlanks = .matched arg next → next.remaining < c.remaining) ∧
    (∀ c read next, command c = .matched read next → next.skipBlanks.peek = some 59 →
      (next.skipBlanks.advance 1).skipBlanks.remaining < c.remaining) := by
  refine ⟨⟨fun _ _ _ => doubleQuoted_passes, fun _ _ _ => singleQuoted_passes,
      fun _ _ _ read => (bare_passes read).1, fun _ _ _ => word_passes,
      fun _ _ _ read => (identifier_passes read).1, fun _ _ _ => assignment_passes,
      fun _ _ _ => command_passes, fun state c _ _ read => inlineFile_passes read,
      fun state c _ _ read => invocation_passes read⟩,
    fun _ _ _ read => (bare_passes read).2, fun _ _ _ read => (identifier_passes read).2,
    fun _ _ => word_empty_quoted, ⟨inlineFile_keeps, invocationArg_noMatch_keeps,
      fun c state => commandWith_keeps invocationArg state c⟩,
    fun _ _ _ _ read => (segment_passes read).remaining_lt, ?_, ?_, ?_, fun _ _ _ => remaining_after_separator⟩
  · intro c binding next read
    exact ((assignment_passes read).trans_reaches next.reaches_skipBlanks).remaining_lt
  · intro state c arg next state' read
    exact (c.reaches_skipBlanks.trans_passes (invocationArg_passes read)).remaining_lt
  · intro c arg next read
    exact (c.reaches_skipBlanks.trans_passes (word_passes read)).remaining_lt

/-- An empty double-quoted word followed by a space is read past its two quotes. -/
theorem parsers_move_on_emptyWord :
    ∃ next, word (Cursor.new ⟨[34, 34, 32], "README.md", 1⟩ 1) = .matched "" next ∧
      (Cursor.new ⟨[34, 34, 32], "README.md", 1⟩ 1).Passes next ∧
      ((Cursor.new ⟨[34, 34, 32], "README.md", 1⟩ 1).peek = some 34 ∨
        (Cursor.new ⟨[34, 34, 32], "README.md", 1⟩ 1).peek = some 39) := by
  obtain ⟨next, read, -, -⟩ := word_doubleQuote (c := Cursor.new ⟨[34, 34, 32], "README.md", 1⟩ 1)
    (s := "") (t := [32]) (by rw [encode_doubleQuote]; rfl) ⟨by decide, by decide, by decide, by decide⟩
  exact ⟨next, read, parsers_move_on.1.2.2.2.1 _ _ _ read, parsers_move_on.2.2.2.1 _ _ read⟩

end Shell

end DocExamples
