import DocExamples.Proofs.Progress
import DocExamples.Shell.InlineFile

namespace DocExamples

theorem Cursor.startsWith_iff (c : Cursor) (lead : List UInt8) :
    c.startsWith lead = true ↔ lead <+: c.rest := by
  simp [Cursor.startsWith, List.isPrefixOf_iff_prefix]

namespace Shell

theorem command_of_close {c : Cursor} {t : List UInt8} (h : c.rest = 41 :: t) : command c = .noMatch := by
  have paren : c.rest = String.utf8EncodeChar ')' ++ t := h
  have noName : identifierFrom c "" = .ok ("", c) := by
    rw [identifierFrom]
    split
    · rfl
    · next read => rw [Cursor.nextChar_of_rest paren] at read; cases read
    · next ch width read =>
      rw [Cursor.nextChar_of_rest paren] at read
      cases read
      rfl
  have noEnvs : envsFrom c Dict.empty = .ok (Dict.empty, c) := by
    rw [envsFrom, assignment, identifier, noName]
    rfl
  have noWord : word c = .noMatch := by
    rw [word, wordFrom_end h ⟨by decide, by decide, by decide, by decide⟩]
    simp
  unfold command commandWith
  rw [noEnvs]
  dsimp only
  rw [noWord]
  rfl

theorem peek_ne_close_of_command {c next : Cursor} {read : Command × Span}
    (parsed : command c = .matched read next) : c.peek ≠ some 41 := by
  intro close
  have atClose : c.rest = 41 :: c.rest.tail := by
    unfold Cursor.peek at close
    cases rest : c.rest with
    | nil => simp [rest] at close
    | cons b t =>
      rw [rest] at close
      cases close
      rfl
  rw [command_of_close atClose] at parsed
  cases parsed

/-- The span of a command covers its name: the assignments before it are read up to its start,
and the name is read from its start to its stop. -/
theorem command_span {c next : Cursor} {cmd : Command} {span : Span}
    (parsed : command c = .matched (cmd, span) next) :
    ∃ envs, envsFrom c Dict.empty = .ok (envs, span.start) ∧ word span.start = .matched cmd.name span.stop := by
  unfold command commandWith at parsed
  split at parsed
  · cases parsed
  · rename_i envs cursor assigned
    split at parsed
    · cases parsed
    · split at parsed <;> cases parsed
    · rename_i name afterName named
      split at parsed
      · cases parsed
      · cases parsed
        exact ⟨envs, assigned, named⟩

/-- What `echo` writes for a command: its arguments joined by spaces, then a line break. -/
def echoText (c : Command) : String :=
  " ".intercalate c.args ++ "\n"

/-- What a run of `echo` commands writes, one after another. -/
def echoOutput (commands : List Command) : String :=
  String.join (commands.map echoText)

/-- After a command ending at `next`: blanks, a `;` and blanks lead to `after`, where no `)`
stands. -/
def Separated (next after : Cursor) : Prop :=
  next.skipBlanks.peek = some 59 ∧ after = (next.skipBlanks.advance 1).skipBlanks ∧
    after.peek ≠ some 41

/-- After the last command, ending at `next`: blanks and `)`, or blanks, `;`, blanks and `)`,
with `stop` just past the parenthesis. -/
def Closes (next stop : Cursor) : Prop :=
  (next.skipBlanks.peek = some 41 ∧ stop = next.skipBlanks.advance 1) ∨
    (next.skipBlanks.peek = some 59 ∧ (next.skipBlanks.advance 1).skipBlanks.peek = some 41 ∧
      stop = (next.skipBlanks.advance 1).skipBlanks.advance 1)

/-- The commands of an inline file from `cursor` on, one or more, up to `stop` just past its
closing parenthesis. -/
inductive InlineCommands : Cursor → List Command → Cursor → Prop
  | last {cursor next stop : Cursor} {c : Command} {span : Span} :
      command cursor = .matched (c, span) next → Closes next stop → InlineCommands cursor [c] stop
  | more {cursor next after stop : Cursor} {c : Command} {span : Span} {rest : List Command} :
      command cursor = .matched (c, span) next → Separated next after →
        InlineCommands after rest stop → InlineCommands cursor (c :: rest) stop

/-- The commands of an inline file from `cursor` on that come before the one at `reached`. -/
inductive ReachesCommand : Cursor → List Command → Cursor → Prop
  | here {cursor : Cursor} : ReachesCommand cursor [] cursor
  | more {cursor next after reached : Cursor} {c : Command} {span : Span} {rest : List Command} :
      command cursor = .matched (c, span) next → Separated next after →
        ReachesCommand after rest reached → ReachesCommand cursor (c :: rest) reached

theorem runInline_echo {c : Command} (echo : c.name = "echo") : runInline c = .ok (echoText c) := by
  simp [runInline, Command.run, Builtin.find?, echo, Builtin.run, echoText]

theorem runInline_ok {c : Command} {written : String} (ran : runInline c = .ok written) :
    c.name = "echo" ∧ written = echoText c := by
  by_cases echo : c.name = "echo"
  · rw [runInline_echo echo] at ran
    exact ⟨echo, (Except.ok.inj ran).symm⟩
  · simp [runInline, Command.run, Builtin.find?, echo] at ran

theorem runInline_unknown {c : Command} (unknown : Builtin.find? c.name = none) :
    runInline c = .error (.commandFailed c.display 127 (.unknownCommand c.name)) := by
  simp [runInline, Command.run, unknown, ShellError.exitCode]

theorem remaining_after_separator {cursor next : Cursor} {read : Command × Span}
    (parsed : command cursor = .matched read next) (semicolon : next.skipBlanks.peek = some 59) :
    (next.skipBlanks.advance 1).skipBlanks.remaining < cursor.remaining :=
  calc (next.skipBlanks.advance 1).skipBlanks.remaining
      _ ≤ (next.skipBlanks.advance 1).remaining := Cursor.remaining_skipBlanks_le _
      _ < next.skipBlanks.remaining :=
        Cursor.remaining_advance_lt (Cursor.offset_lt_of_peek semicolon) Nat.one_pos
      _ ≤ next.remaining := Cursor.remaining_skipBlanks_le _
      _ ≤ cursor.remaining := command_remaining parsed

theorem inlineCommandsFrom_ok {start cursor stop : Cursor} {output out : String}
    {state : InlineState} (read : (inlineCommandsFrom start cursor output state).1 = .ok (out, stop)) :
    ∃ commands, InlineCommands cursor commands stop ∧ (∀ c ∈ commands, c.name = "echo") ∧
      out = output ++ echoOutput commands := by
  fun_induction inlineCommandsFrom start cursor output state with
  | case1 | case2 | case3 | case4 | case9 | case10 => cases read
  | case5 _ _ _ c _ _ parsed _ _ ran _ _ semicolon _ close =>
    obtain ⟨echo, rfl⟩ := runInline_ok ran
    obtain ⟨rfl, rfl⟩ := Prod.mk.inj (Except.ok.inj read)
    exact ⟨[c], .last parsed (.inr ⟨semicolon, close, rfl⟩), List.forall_mem_singleton.mpr echo,
      by simp +zetaDelta [echoOutput]⟩
  | case6 _ _ _ c _ _ parsed _ _ ran _ _ semicolon _ notClose _ ih =>
    obtain ⟨echo, rfl⟩ := runInline_ok ran
    obtain ⟨commands, rest, echoes, rfl⟩ := ih read
    exact ⟨c :: commands, .more parsed ⟨semicolon, rfl, notClose⟩ rest,
      List.forall_mem_cons.mpr ⟨echo, echoes⟩, by simp +zetaDelta [echoOutput, String.append_assoc]⟩
  | case7 _ _ _ _ _ _ parsed _ _ _ _ _ semicolon _ _ notMoved =>
    exact absurd (remaining_after_separator parsed semicolon) notMoved
  | case8 _ _ _ c _ _ parsed _ _ ran _ _ close =>
    obtain ⟨echo, rfl⟩ := runInline_ok ran
    obtain ⟨rfl, rfl⟩ := Prod.mk.inj (Except.ok.inj read)
    exact ⟨[c], .last parsed (.inl ⟨close, rfl⟩), List.forall_mem_singleton.mpr echo,
      by simp +zetaDelta [echoOutput]⟩

theorem inlineCommandsFrom_keeps (start cursor : Cursor) (output : String) (state : InlineState) :
    (inlineCommandsFrom start cursor output state).2.files = state.files ∧
      (inlineCommandsFrom start cursor output state).2.nextId = state.nextId := by
  fun_induction inlineCommandsFrom start cursor output state <;> simp_all +zetaDelta [apply_ite]

/-- After an `echo` command, a `;` and no `)`, the loop goes on past the separator with what the
command wrote. -/
theorem inlineCommandsFrom_separated {start cursor next after : Cursor} {c : Command} {span : Span}
    (parsed : command cursor = .matched (c, span) next) (echo : c.name = "echo")
    (separated : Separated next after) (output : String) (state : InlineState) :
    ∃ state', (inlineCommandsFrom start cursor output state).1 =
      (inlineCommandsFrom start after (output ++ echoText c) state').1 := by
  obtain ⟨semicolon, rfl, notClose⟩ := separated
  rw [inlineCommandsFrom, parsed]
  dsimp only
  rw [runInline_echo echo]
  simp only [semicolon, notClose, remaining_after_separator parsed semicolon, if_false, if_true]
  exact ⟨_, rfl⟩

theorem inlineCommandsFrom_of_commands {start cursor stop : Cursor} {commands : List Command}
    (read : InlineCommands cursor commands stop) (echo : ∀ c ∈ commands, c.name = "echo")
    (output : String) (state : InlineState) :
    (inlineCommandsFrom start cursor output state).1 = .ok (output ++ echoOutput commands, stop) := by
  induction read generalizing output state with
  | last parsed closes =>
    rw [inlineCommandsFrom, parsed]
    dsimp only
    rw [runInline_echo (echo _ List.mem_cons_self)]
    dsimp only
    rcases closes with ⟨close, rfl⟩ | ⟨semicolon, close, rfl⟩
    · simp [close, echoOutput]
    · simp [semicolon, close, echoOutput]
  | more parsed separated rest ih =>
    obtain ⟨state', step⟩ :=
      inlineCommandsFrom_separated parsed (echo _ List.mem_cons_self) separated output state
    rw [step, ih (fun c member => echo c (List.mem_cons_of_mem _ member))]
    simp [echoOutput, String.append_assoc]

/-- Once the `echo` commands before it have run, a command of an inline file that is no built-in
fails under its name with status 127. -/
theorem inlineCommandsFrom_unknown {start cursor reached next : Cursor} {ran : List Command}
    {c : Command} {span : Span} (reach : ReachesCommand cursor ran reached)
    (echo : ∀ c ∈ ran, c.name = "echo") (parsed : command reached = .matched (c, span) next)
    (unknown : Builtin.find? c.name = none) (output : String) (state : InlineState) :
    (inlineCommandsFrom start cursor output state).1 =
      .error (span.error (.commandFailed c.display 127 (.unknownCommand c.name))) := by
  induction reach generalizing output state with
  | here =>
    rw [inlineCommandsFrom, parsed]
    simp [runInline_unknown unknown]
  | more parsedFirst separated rest ih =>
    obtain ⟨state', step⟩ :=
      inlineCommandsFrom_separated parsedFirst (echo _ List.mem_cons_self) separated output state
    rw [step, ih (fun c member => echo c (List.mem_cons_of_mem _ member)) parsed]

theorem InlineCommands.starts {cursor stop : Cursor} {commands : List Command}
    (read : InlineCommands cursor commands stop) : cursor.peek ≠ some 41 := by
  cases read with
  | last parsed _ => exact peek_ne_close_of_command parsed
  | more parsed _ _ => exact peek_ne_close_of_command parsed

theorem ReachesCommand.starts {cursor reached next : Cursor} {ran : List Command}
    {read : Command × Span} (reach : ReachesCommand cursor ran reached)
    (parsed : command reached = .matched read next) : cursor.peek ≠ some 41 := by
  cases reach with
  | here => exact peek_ne_close_of_command parsed
  | more parsedFirst _ _ => exact peek_ne_close_of_command parsedFirst

theorem Closes.unique {next stop stop' : Cursor} (closes : Closes next stop)
    (closes' : Closes next stop') : stop = stop' := by
  rcases closes with ⟨close, rfl⟩ | ⟨semicolon, _, rfl⟩ <;>
    rcases closes' with ⟨close', rfl⟩ | ⟨semicolon', _, rfl⟩
  all_goals simp_all

theorem Separated.not_closes {next after stop : Cursor} (separated : Separated next after)
    (closes : Closes next stop) : False := by
  obtain ⟨semicolon, rfl, notClose⟩ := separated
  rcases closes with ⟨close, -⟩ | ⟨-, close, -⟩
  · rw [semicolon] at close
    cases close
  · exact notClose close

theorem InlineCommands.unique {cursor stop stop' : Cursor} {commands commands' : List Command}
    (read : InlineCommands cursor commands stop) (read' : InlineCommands cursor commands' stop') :
    commands = commands' ∧ stop = stop' := by
  induction read generalizing commands' stop' with
  | last parsed closes =>
    cases read' with
    | last parsed' closes' =>
      rw [parsed] at parsed'
      cases parsed'
      exact ⟨rfl, closes.unique closes'⟩
    | more parsed' separated' _ =>
      rw [parsed] at parsed'
      cases parsed'
      exact (separated'.not_closes closes).elim
  | more parsed separated _ ih =>
    cases read' with
    | last parsed' closes' =>
      rw [parsed] at parsed'
      cases parsed'
      exact (separated.not_closes closes').elim
    | more parsed' separated' rest' =>
      rw [parsed] at parsed'
      cases parsed'
      obtain ⟨-, rfl, -⟩ := separated
      obtain ⟨-, rfl, -⟩ := separated'
      obtain ⟨rfl, rfl⟩ := ih rest'
      exact ⟨rfl, rfl⟩

theorem InlineCommands.remaining_le {cursor stop : Cursor} {commands : List Command}
    (read : InlineCommands cursor commands stop) : stop.remaining ≤ cursor.remaining := by
  induction read with
  | @last cursor next stop c span parsed closes =>
    have closeAt : stop.remaining ≤ next.skipBlanks.remaining := by
      rcases closes with ⟨_, rfl⟩ | ⟨_, _, rfl⟩
      · exact Cursor.remaining_advance_le _ _
      · calc _ ≤ (next.skipBlanks.advance 1).skipBlanks.remaining := Cursor.remaining_advance_le _ _
          _ ≤ (next.skipBlanks.advance 1).remaining := Cursor.remaining_skipBlanks_le _
          _ ≤ next.skipBlanks.remaining := Cursor.remaining_advance_le _ _
    calc stop.remaining ≤ next.skipBlanks.remaining := closeAt
      _ ≤ next.remaining := Cursor.remaining_skipBlanks_le _
      _ ≤ cursor.remaining := command_remaining parsed
  | more parsed separated _ ih =>
    obtain ⟨semicolon, rfl, -⟩ := separated
    exact ih.trans (remaining_after_separator parsed semicolon).le

section InlineFile

variable {start : Cursor} {state : InlineState}

theorem inlineFile_without_opening (absent : ¬ [60, 40] <+: start.rest) :
    inlineFile start state = (.noMatch, state) := by
  rw [inlineFile, if_neg (mt (Cursor.startsWith_iff _ _).mp absent)]

theorem inlineFile_nextId : (inlineFile start state).2.nextId = state.nextId := by
  unfold inlineFile
  dsimp only
  split
  · split
    · rfl
    · split
      all_goals
        next loop =>
          have keeps := (inlineCommandsFrom_keeps start ((start.advance 2).skipBlanks) "" state).2
          rwa [loop] at keeps
  · rfl

theorem inlineFile_empty (opens : [60, 40] <+: start.rest)
    (empty : (start.advance 2).skipBlanks.peek = some 41) :
    inlineFile start state =
      (.error (start.errorUntil ((start.advance 2).skipBlanks.advance 1) .emptyInlineFile), state) := by
  simp [inlineFile, (Cursor.startsWith_iff _ _).mpr opens, empty]

theorem inlineFile_error (opens : [60, 40] <+: start.rest)
    (notEmpty : (start.advance 2).skipBlanks.peek ≠ some 41) {e : SyntaxError}
    (failed : (inlineCommandsFrom start (start.advance 2).skipBlanks "" state).1 = .error e) :
    (inlineFile start state).1 = .error e ∧ (inlineFile start state).2.files = state.files := by
  have keeps := (inlineCommandsFrom_keeps start ((start.advance 2).skipBlanks) "" state).1
  rcases loop : inlineCommandsFrom start ((start.advance 2).skipBlanks) "" state with ⟨result, after⟩
  rw [loop] at failed keeps
  dsimp only at failed keeps
  subst failed
  simp [inlineFile, (Cursor.startsWith_iff _ _).mpr opens, notEmpty, loop, keeps]

theorem inlineFile_ok (opens : [60, 40] <+: start.rest)
    (notEmpty : (start.advance 2).skipBlanks.peek ≠ some 41) {output : String} {stop : Cursor}
    (read : (inlineCommandsFrom start (start.advance 2).skipBlanks "" state).1 = .ok (output, stop)) :
    (inlineFile start state).1 = .matched (inlineFileName state.nextId) stop ∧
      (inlineFile start state).2.files =
        state.files.insert (inlineFileName state.nextId) (Utf8.encode output) := by
  have keeps := inlineCommandsFrom_keeps start ((start.advance 2).skipBlanks) "" state
  rcases loop : inlineCommandsFrom start ((start.advance 2).skipBlanks) "" state with ⟨result, after⟩
  rw [loop] at read keeps
  dsimp only at read keeps
  subst read
  simp [inlineFile, (Cursor.startsWith_iff _ _).mpr opens, notEmpty, loop, keeps]

theorem inlineFile_at_opening (opens : [60, 40] <+: start.rest) :
    (∃ e, (inlineFile start state).1 = .error e ∧ (inlineFile start state).2.files = state.files) ∨
      ∃ output stop,
        (inlineCommandsFrom start (start.advance 2).skipBlanks "" state).1 = .ok (output, stop) ∧
        (inlineFile start state).1 = .matched (inlineFileName state.nextId) stop ∧
        (inlineFile start state).2.files =
          state.files.insert (inlineFileName state.nextId) (Utf8.encode output) := by
  by_cases empty : (start.advance 2).skipBlanks.peek = some 41
  · rw [inlineFile_empty opens empty]
    exact .inl ⟨_, rfl, rfl⟩
  · rcases loop : (inlineCommandsFrom start (start.advance 2).skipBlanks "" state).1
      with e | ⟨output, stop⟩
    · exact .inl ⟨e, inlineFile_error opens empty loop⟩
    · exact .inr ⟨output, stop, rfl, inlineFile_ok opens empty loop⟩

theorem inlineFile_noMatch_iff :
    (inlineFile start state).1 = .noMatch ↔ ¬ [60, 40] <+: start.rest := by
  refine ⟨fun none opens => ?_, fun absent => by rw [inlineFile_without_opening absent]⟩
  rcases @inlineFile_at_opening start state opens with ⟨_, failed, -⟩ | ⟨_, _, -, read, -⟩
  · rw [failed] at none
    cases none
  · rw [read] at none
    cases none

theorem inlineFile_files_of_not_matched
    (notMatched : ∀ name stop, (inlineFile start state).1 ≠ .matched name stop) :
    (inlineFile start state).2.files = state.files := by
  by_cases opens : [60, 40] <+: start.rest
  · rcases inlineFile_at_opening opens with ⟨_, -, keeps⟩ | ⟨_, stop, -, read, -⟩
    · exact keeps
    · exact absurd read (notMatched _ stop)
  · rw [inlineFile_without_opening opens]

theorem inlineFile_of_commands {commands : List Command} {stop : Cursor}
    (opens : [60, 40] <+: start.rest) (read : InlineCommands (start.advance 2).skipBlanks commands stop)
    (echo : ∀ c ∈ commands, c.name = "echo") :
    (inlineFile start state).1 = .matched (inlineFileName state.nextId) stop ∧
      (inlineFile start state).2.files =
        state.files.insert (inlineFileName state.nextId) (Utf8.encode (echoOutput commands)) := by
  have loop : (inlineCommandsFrom start (start.advance 2).skipBlanks "" state).1 =
      .ok ("" ++ echoOutput commands, stop) := inlineCommandsFrom_of_commands read echo "" state
  rw [String.empty_append] at loop
  exact inlineFile_ok opens read.starts loop

theorem inlineFile_matched_iff {name : String} {stop : Cursor} :
    (inlineFile start state).1 = .matched name stop ↔
      name = inlineFileName state.nextId ∧ [60, 40] <+: start.rest ∧
        ∃ commands, InlineCommands (start.advance 2).skipBlanks commands stop ∧
          ∀ c ∈ commands, c.name = "echo" := by
  constructor
  · intro read
    by_cases opens : [60, 40] <+: start.rest
    · rcases inlineFile_at_opening opens with ⟨_, failed, -⟩ | ⟨_, _, loop, matched, -⟩
      · rw [failed] at read
        cases read
      · rw [matched] at read
        obtain ⟨rfl, rfl⟩ := Scan.matched.inj read
        obtain ⟨commands, commandsRead, echo, -⟩ := inlineCommandsFrom_ok loop
        exact ⟨rfl, opens, commands, commandsRead, echo⟩
    · rw [inlineFile_without_opening opens] at read
      cases read
  · rintro ⟨rfl, opens, commands, read, echo⟩
    exact (inlineFile_of_commands opens read echo).1

theorem inlineFile_unknown {ran : List Command} {reached next : Cursor} {c : Command} {span : Span}
    (opens : [60, 40] <+: start.rest) (reach : ReachesCommand (start.advance 2).skipBlanks ran reached)
    (echo : ∀ c ∈ ran, c.name = "echo") (parsed : command reached = .matched (c, span) next)
    (unknown : Builtin.find? c.name = none) :
    (inlineFile start state).1 =
      .error (span.error (.commandFailed c.display 127 (.unknownCommand c.name))) :=
  (inlineFile_error opens (reach.starts parsed)
    (inlineCommandsFrom_unknown reach echo parsed unknown "" state)).1

end InlineFile

/-- An inline file made of `echo` commands is read exactly where `<(`, blanks, commands separated
by `;` and a closing `)` stand, and is then stored under the next number with what the commands
wrote; anything else stores nothing. A command that is no built-in fails with status 127 over
its name. -/
theorem inlineFile_spec (start : Cursor) (state : InlineState) :
    ((inlineFile start state).1 = .noMatch ↔ ¬ [60, 40] <+: start.rest) ∧
    ((∀ name stop, (inlineFile start state).1 ≠ .matched name stop) →
      (inlineFile start state).2.files = state.files) ∧
    (∀ name stop, (inlineFile start state).1 = .matched name stop ↔
      name = inlineFileName state.nextId ∧ [60, 40] <+: start.rest ∧
        ∃ commands, InlineCommands (start.advance 2).skipBlanks commands stop ∧
          ∀ c ∈ commands, c.name = "echo") ∧
    (∀ commands stop, [60, 40] <+: start.rest →
      InlineCommands (start.advance 2).skipBlanks commands stop → (∀ c ∈ commands, c.name = "echo") →
        (inlineFile start state).2.files =
          state.files.insert (inlineFileName state.nextId) (Utf8.encode (echoOutput commands))) ∧
    (∀ ran reached c span next, [60, 40] <+: start.rest →
      ReachesCommand (start.advance 2).skipBlanks ran reached → (∀ c ∈ ran, c.name = "echo") →
        command reached = .matched (c, span) next → Builtin.find? c.name = none →
          (inlineFile start state).1 =
              .error (span.error (.commandFailed c.display 127 (.unknownCommand c.name))) ∧
            ∃ envs, envsFrom reached Dict.empty = .ok (envs, span.start) ∧
              word span.start = .matched c.name span.stop) :=
  ⟨inlineFile_noMatch_iff, inlineFile_files_of_not_matched, fun _ _ => inlineFile_matched_iff,
    fun _ _ opens read echo => (inlineFile_of_commands opens read echo).2,
    fun _ _ _ _ _ opens reach echo parsed unknown =>
      ⟨inlineFile_unknown opens reach echo parsed unknown, command_span parsed⟩⟩

end Shell

end DocExamples
