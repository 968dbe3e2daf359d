import DocExamples.Proofs.Termination
import DocExamples.Proofs.Warnings

namespace DocExamples

/-- An error lies within `line`: it stands on that line, its columns end at most one past the
line's last byte, and only a point error at the end of the line ends there. That its columns start
at 1 or later and do not run backwards, every error carries itself. -/
structure SyntaxError.Within (e : SyntaxError) (line : Line) : Prop where
  line_eq : e.line = line
  colEnd_le : e.colEnd ≤ line.length + 1
  pastEnd : e.colEnd = line.length + 1 → e.colStart = line.length + 1

theorem SyntaxError.new_within {line : Line} {start stop : Nat} (problem : Problem)
    (startLe : start ≤ line.length + 1) (stopLe : stop ≤ line.length) :
    (SyntaxError.new line start stop problem).Within line := by
  refine ⟨rfl, ?_, ?_⟩
  all_goals
    simp only [SyntaxError.new]
    split <;> omega

namespace Cursor

variable (c : Cursor) (problem : Problem)

theorem column_le : c.column ≤ c.line.length + 1 := by
  have := c.offset_le
  simp only [column, Line.length]
  omega

theorem error_within : (c.error problem).Within c.line :=
  SyntaxError.new_within problem c.column_le (Nat.zero_le _)

theorem errorUntil_within {stop : Cursor} (same : stop.line = c.line) :
    (c.errorUntil stop problem).Within c.line := by
  have within := stop.offset_le
  rw [same] at within
  exact SyntaxError.new_within problem c.column_le within

theorem errorToEnd_within : (c.errorToEnd problem).Within c.line :=
  SyntaxError.new_within problem c.column_le (Nat.le_refl _)

theorem invalidEncoding_within (size : Nat) : (c.invalidEncoding size).Within c.line :=
  c.errorUntil_within _ rfl

end Cursor

theorem Span.error_within {span : Span} (problem : Problem) (same : span.stop.line = span.start.line) :
    (span.error problem).Within span.start.line :=
  span.start.errorUntil_within problem same

namespace Shell

/-- A parser's errors lie within the line it reads. -/
def ErrsWithin {α : Type} (parse : Cursor → Scan α) : Prop :=
  ∀ start e, parse start = .error e → e.Within start.line

variable {start cursor : Cursor} {e : SyntaxError}

theorem doubleQuotedFrom_within {value : String} (same : cursor.line = start.line)
    (read : doubleQuotedFrom start cursor value = .error e) : e.Within start.line := by
  fun_induction doubleQuotedFrom start cursor value with
  | case1 =>
    cases read
    exact start.errorToEnd_within _
  | case2 cursor value size =>
    cases read
    rw [← same]
    exact cursor.invalidEncoding_within size
  | case3 => cases read
  | case4 cursor value width next =>
    cases read
    rw [← same]
    exact cursor.error_within _
  | case5 cursor value width next size =>
    cases read
    rw [← same]
    exact next.invalidEncoding_within size
  | case6 _ _ _ _ _ _ _ _ _ ih => exact ih same read
  | case7 _ _ _ _ _ _ _ _ ih => exact ih same read

theorem doubleQuoted_within : ErrsWithin doubleQuoted := by
  intro start e read
  unfold doubleQuoted at read
  split at read
  · exact doubleQuotedFrom_within (Cursor.advance_line start 1) read
  · cases read

theorem singleQuoted_within : ErrsWithin singleQuoted := by
  intro start e read
  unfold singleQuoted at read
  split at read
  · dsimp only at read
    split at read
    · cases read
      exact start.errorToEnd_within _
    · cases read
  · cases read

theorem bareFrom_within {value : String} (read : bareFrom cursor value = .error e) :
    e.Within cursor.line := by
  fun_induction bareFrom cursor value with
  | case1 | case5 | case8 => cases read
  | case2 cursor value next =>
    cases read
    exact cursor.error_within _
  | case3 cursor value next size =>
    cases read
    exact next.invalidEncoding_within size
  | case4 _ _ _ _ _ _ _ ih => exact ih read
  | case6 _ _ _ _ _ _ _ _ _ ih => exact ih read
  | case7 cursor value b _ _ _ size =>
    cases read
    exact cursor.invalidEncoding_within size

theorem bare_within : ErrsWithin bare := by
  intro start e read
  unfold bare at read
  split at read
  · cases read
    exact bareFrom_within ‹_›
  · split at read <;> cases read

theorem CharFault.within {here : Cursor} (fault : CharFault here e) : e.Within here.line := by
  cases fault with
  | trailing => exact here.error_within _
  | badEscape => exact (here.advance 1).invalidEncoding_within _
  | bad => exact here.invalidEncoding_within _

theorem WordFault.within {here : Cursor} (fault : WordFault here e) : e.Within here.line := by
  cases fault with
  | bare fault => exact fault.within
  | double _ _ fault => exact fault.within
  | unterminated => exact here.errorToEnd_within _
  | single => exact here.errorToEnd_within _

/-- A word fails where the grammar says it does: at the first piece that cannot be read, which
stands on the line. -/
theorem word_within : ErrsWithin word := by
  intro start e read
  obtain ⟨bytes, chars, r, -, -, fault⟩ := fault_of_word_error read
  exact fault.within

theorem identifierFrom_within {name : String} (read : identifierFrom cursor name = .error e) :
    e.Within cursor.line := by
  fun_induction identifierFrom cursor name with
  | case1 | case4 => cases read
  | case2 cursor name size =>
    cases read
    exact cursor.invalidEncoding_within size
  | case3 _ _ _ _ _ _ ih => exact ih read

theorem identifier_within : ErrsWithin identifier := by
  intro start e read
  unfold identifier at read
  split at read
  · cases read
    exact identifierFrom_within ‹_›
  · split at read <;> cases read

theorem assignment_within : ErrsWithin assignment := by
  intro start e read
  unfold assignment at read
  split at read
  · cases read
    exact identifier_within start _ ‹_›
  · cases read
  · rename_i name cursor named
    have same : (cursor.advance 1).line = start.line := (identifier_passes named).1.1
    split at read
    · dsimp only at read
      split at read
      · cases read
      · cases read
      · rename_i valueError
        cases read
        exact same ▸ word_within _ _ valueError
    · cases read

theorem envsFrom_within {envs : Vars} (read : envsFrom cursor envs = .error e) :
    e.Within cursor.line := by
  fun_induction envsFrom cursor envs with
  | case1 cursor envs e assigned =>
    cases read
    exact assignment_within cursor _ assigned
  | case2 | case4 => cases read
  | case3 cursor envs name value after assigned next _ ih =>
    have same : next.line = cursor.line := (assignment_passes assigned).1
    exact same ▸ ih read

section Arguments

variable {σ : Type} {parseArg : σ → Cursor → Scan String × σ}

theorem argsFrom_within
    (errs : ∀ state cursor e state', parseArg state cursor = (.error e, state') → e.Within cursor.line)
    (forward : ∀ state cursor arg after state', parseArg state cursor = (.matched arg after, state') →
      cursor.Reaches after)
    {state : σ} {args : List String} (read : (argsFrom parseArg state cursor args).1 = .error e) :
    e.Within cursor.line := by
  fun_induction argsFrom parseArg state cursor args with
  | case1 | case3 | case5 => cases read
  | case2 state cursor args next _ e state' parsed =>
    cases read
    have within := errs _ _ _ _ parsed
    exact within
  | case4 state cursor args next _ arg after state' parsed _ ih =>
    have same : after.line = cursor.line := (cursor.reaches_skipBlanks.trans (forward _ _ _ _ _ parsed)).1
    exact same ▸ ih read

/-- A command fails where its assignments, its name or its arguments fail, or, when assignments
stand with no name after them, at the place the name was looked for. -/
theorem commandWith_within
    (errs : ∀ state cursor e state', parseArg state cursor = (.error e, state') → e.Within cursor.line)
    (forward : ∀ state cursor arg after state', parseArg state cursor = (.matched arg after, state') →
      cursor.Reaches after)
    {state : σ} (read : (commandWith parseArg state start).1 = .error e) : e.Within start.line := by
  unfold commandWith at read
  split at read
  · cases read
    exact envsFrom_within ‹_›
  · rename_i envs cursor assigned
    have same : cursor.line = start.line := (envsFrom_reaches assigned).1
    split at read
    · cases read
      exact same ▸ word_within _ _ ‹_›
    · split at read
      · cases read
      · cases read
        exact same ▸ cursor.error_within _
    · rename_i name afterName named
      have sameAfter : afterName.line = start.line := (word_passes named).1.trans same
      split at read
      · rename_i argError state' ran
        cases read
        exact sameAfter ▸ argsFrom_within errs forward (by rw [ran])
      · cases read

end Arguments

theorem command_within : ErrsWithin command := by
  intro start e read
  unfold command at read
  refine commandWith_within ?_ ?_ read
  · intro _ cursor e _ parsed
    exact word_within cursor e (Prod.mk.inj parsed).1
  · intro _ cursor _ _ _ parsed
    exact (word_passes (Prod.mk.inj parsed).1).reaches

/-- The errors of an inline file's commands: where a command fails to be read or run, where no
command or no separator stands, and, when the line ends first, from the file's `<(` to the end of
the line. Induction on the loop over its commands; each round starts on the line. -/
theorem inlineCommandsFrom_within {output : String} {state : InlineState}
    (same : cursor.line = start.line)
    (read : (inlineCommandsFrom start cursor output state).1 = .error e) : e.Within start.line := by
  fun_induction inlineCommandsFrom start cursor output state with
  | case1 cursor output state e parsed =>
    cases read
    exact same ▸ command_within cursor _ parsed
  | case2 =>
    cases read
    exact start.errorToEnd_within _
  | case3 cursor =>
    cases read
    exact same ▸ cursor.error_within _
  | case4 cursor output state c span next parsed =>
    cases read
    obtain ⟨envs, assigned, named⟩ := command_span parsed
    have nameLine : span.start.line = cursor.line := (envsFrom_reaches assigned).1
    exact same ▸ nameLine ▸ span.error_within _ (word_passes named).1
  | case5 | case7 | case8 => cases read
  | case6 cursor output state c span next parsed _ _ _ _ _ _ _ _ _ ih =>
    exact ih ((command_passes parsed).1.trans same) read
  | case9 =>
    cases read
    exact start.errorToEnd_within _
  | case10 cursor output state c span next parsed =>
    cases read
    have moved : next.skipBlanks.line = cursor.line := (command_passes parsed).1
    exact same ▸ moved ▸ next.skipBlanks.error_within _

theorem inlineFile_within (state : InlineState) : ErrsWithin fun c => (inlineFile c state).1 := by
  intro start e read
  dsimp only at read
  unfold inlineFile at read
  split at read
  · dsimp only at read
    split at read
    · cases read
      exact start.errorUntil_within _ rfl
    · split at read
      · rename_i e' state' ran
        cases read
        exact inlineCommandsFrom_within (show ((start.advance 2).skipBlanks).line = start.line from rfl)
          (by rw [ran])
      · cases read
  · cases read

theorem invocationArg_within {state state' : InlineState}
    (read : invocationArg state cursor = (.error e, state')) : e.Within cursor.line := by
  unfold invocationArg at read
  rcases file : inlineFile cursor state with ⟨result, after⟩
  rw [file] at read
  cases result with
  | matched => cases read
  | noMatch => exact word_within cursor e (Prod.mk.inj read).1
  | error e' =>
    cases read
    exact inlineFile_within state cursor e (by dsimp only; rw [file])

theorem invocation_within (state : InlineState) : ErrsWithin fun c => (invocation c state).1 :=
  fun _ _ read => commandWith_within (fun _ _ _ _ => invocationArg_within)
    (fun _ _ _ _ _ parsed => (invocationArg_passes parsed).reaches) read

end Shell

namespace Findings

theorem addSession_error {found : Findings} {o : OpenBlock} {commandLine : Line} {column : Nat}
    {err : DocError} (failed : found.addSession o commandLine column = .error err) :
    ∃ e, err = .atLine e ∧ e.Within commandLine := by
  unfold addSession at failed
  dsimp only at failed
  generalize start : (Cursor.new commandLine column).skipBlanks = c at failed
  have onLine : c.line = commandLine := by rw [← start]; rfl
  split at failed
  · cases failed
    exact ⟨_, rfl, onLine ▸ c.error_within _⟩
  · rename_i e state parsed
    cases failed
    exact ⟨e, rfl, onLine ▸ Shell.invocation_within _ c e (by dsimp only; rw [parsed])⟩
  · rename_i command span rest made parsed
    have passes := Shell.invocation_passes
      (show (Shell.invocation c ⟨found.files, found.nextId, []⟩).1 = .matched (command, span) rest by
        rw [parsed])
    have restLine : rest.skipBlanks.line = commandLine := passes.1.trans onLine
    split at failed
    · cases failed
    · cases failed
      exact ⟨_, rfl, restLine ▸ rest.skipBlanks.errorToEnd_within _⟩

end Findings

/-- A fold by a step that may fail fails with the error of one of its steps. Induction on the
items; the value the fold starts from varies. -/
theorem exists_step_of_foldlM_error {α β ε : Type} {step : β → α → Except ε β} {err : ε} :
    ∀ {items : List α} {initial : β}, items.foldlM step initial = .error err →
      ∃ item ∈ items, ∃ before, step before item = .error err
  | [], _, failed => by cases failed
  | item :: rest, initial, failed => by
    rw [List.foldlM_cons] at failed
    rcases first : step initial item with e | next
    · rw [first] at failed
      cases failed
      exact ⟨item, List.mem_cons_self, initial, first⟩
    · rw [first] at failed
      obtain ⟨later, member, before, failedLater⟩ := exists_step_of_foldlM_error failed
      exact ⟨later, List.mem_cons_of_mem _ member, before, failedLater⟩

namespace Project

variable (p : Project)

/-- How finishing a block can fail: at its command line, within it, when it is an example session;
and otherwise, when it quotes a file, with a file that cannot be read or one that differs. -/
theorem blockFinding_error {file : String} {found : Findings} {o : OpenBlock} {err : DocError}
    (failed : p.blockFinding file found o = .error err) :
    (∃ e commandLine column, err = .atLine e ∧
      o.commandLine? p.config.program = some (commandLine, column) ∧ e.Within commandLine) ∨
    (∃ cause, err = .files cause) ∨ ∃ path location diff, err = .quotedMismatch path location diff := by
  unfold blockFinding at failed
  split at failed
  · split at failed
    · rename_i commandLine column session
      obtain ⟨e, rfl, within⟩ := Findings.addSession_error failed
      exact .inl ⟨e, commandLine, column, rfl, session, within⟩
    · cases failed
  · split at failed
    · split at failed
      · unfold quotedFinding at failed
        split at failed
        · cases failed
          exact .inr (.inl ⟨_, rfl⟩)
        · split at failed
          · cases failed
          · cases failed
            exact .inr (.inr ⟨_, _, _, rfl⟩)
      · cases failed
    · cases failed

end Project

/-- An error raised at a line: on its own, or with the warnings collected before it. -/
def DocError.AtLine (err : DocError) (e : SyntaxError) : Prop :=
  err = .atLine e ∨ ∃ warnings, err = .withWarnings warnings (.atLine e)

theorem DocError.atLine_of_join {warnings : List SyntaxError} {err : DocError} {e : SyntaxError}
    (joined : (DocError.join warnings err).AtLine e) : err.AtLine e := by
  unfold DocError.join at joined
  split at joined
  · exact joined
  · rcases joined with joined | ⟨ws, joined⟩
    · cases joined
    · cases joined
      exact .inl rfl

open Shell in
/-- Every parser of a command line that fails does so within the line it reads: its error stands
on that line, from a column of it up to at most one past its last byte, and only a point error at
the end of the line reaches that far. An error that stops the check of a document at a line is
one raised on the command line of one of the document's example blocks, and lies within the bytes
of that line the block kept. -/
theorem parser_errors_within :
    (ErrsWithin doubleQuoted ∧ ErrsWithin singleQuoted ∧ ErrsWithin bare ∧ ErrsWithin word ∧
      ErrsWithin identifier ∧ ErrsWithin assignment ∧ ErrsWithin command ∧
      (∀ state, ErrsWithin fun c => (inlineFile c state).1) ∧
      ∀ state, ErrsWithin fun c => (invocation c state).1) ∧
    ∀ (p : Project) (file : String) (bytes : List UInt8) (err : DocError) (e : SyntaxError),
      (p.checkDocument file bytes).1 = .error err → err.AtLine e →
      ∃ segments, Layout (documentLines file bytes) segments ∧
        ∃ o ∈ Segment.blocks [] segments, ∃ commandLine column,
          o.commandLine? p.config.program = some (commandLine, column) ∧ e.Within commandLine := by
  refine ⟨⟨doubleQuoted_within, singleQuoted_within, bare_within, word_within, identifier_within,
    assignment_within, command_within, inlineFile_within, invocation_within⟩, ?_⟩
  intro p file bytes err e failed atLine
  obtain ⟨segments, layout⟩ := exists_layout (documentLines file bytes)
  refine ⟨segments, layout, ?_⟩
  have checked := checkDocument_findings p layout
  rw [failed] at checked
  split at checked
  · cases checked
  · rename_i foldError fold
    cases checked
    have rootAtLine := DocError.atLine_of_join atLine
    obtain ⟨o, member, before, failedBlock⟩ := exists_step_of_foldlM_error fold
    rcases p.blockFinding_error failedBlock with ⟨e', commandLine, column, rfl, session, within⟩ |
      ⟨cause, rfl⟩ | ⟨path, location, diff, rfl⟩
    · have same : e' = e := by
        rcases rootAtLine with raised | ⟨warnings, raised⟩
        · cases raised
          rfl
        · cases raised
      exact ⟨o, member, commandLine, column, session, same ▸ within⟩
    all_goals
      rcases rootAtLine with raised | ⟨warnings, raised⟩ <;> cases raised

/-- A single quote with no closing quote is unterminated from the quote to the end of the line,
and a session whose command line leaves one open fails the check of its document there, within
the command line of the block. -/
theorem parser_errors_within_unclosedQuote :
    (let c := Cursor.new ⟨[39, 97], "README.md", 1⟩ 1
     Shell.singleQuoted c = .error (c.errorToEnd .unterminatedString) ∧
       (c.errorToEnd .unterminatedString).Within c.line) ∧
    (let p : Project := ⟨Config.default, ⟨⟨Dict.empty, []⟩, some [], "."⟩⟩
     let bytes : List UInt8 :=
       [96, 96, 96, 115, 104, 10, 36, 32, 104, 101, 98, 102, 109, 116, 32, 39, 97, 10, 96, 96, 96, 10]
     let e := (Cursor.new ⟨[36, 32, 104, 101, 98, 102, 109, 116, 32, 39, 97], "README.md", 2⟩ 10).errorToEnd
       .unterminatedString
     (p.checkDocument "README.md" bytes).1 = .error (.atLine e) ∧ (DocError.atLine e).AtLine e ∧
       ∃ segments, Layout (documentLines "README.md" bytes) segments ∧
         ∃ o ∈ Segment.blocks [] segments, ∃ commandLine column,
           o.commandLine? p.config.program = some (commandLine, column) ∧ e.Within commandLine) := by
  refine ⟨⟨rfl, parser_errors_within.1.2.1 _ _ rfl⟩, ?_⟩
  intro p bytes e
  have found : (match (p.checkDocument "README.md" bytes).1 with
      | .error err => decide (err = .atLine e)
      | .ok _ => false) = true := by
    decide +kernel
  have run : (p.checkDocument "README.md" bytes).1 = .error (.atLine e) := by
    split at found
    · rename_i err ran
      rw [ran, of_decide_eq_true found]
    · cases found
  exact ⟨run, .inl rfl, parser_errors_within.2 p "README.md" bytes _ e run (.inl rfl)⟩

end DocExamples
