import DocExamples.Proofs.InlineFiles

namespace DocExamples

theorem Cursor.remaining_skipBlanks_lt {c : Cursor} (moved : c.skipBlanks.offset ≠ c.offset) :
    c.skipBlanks.remaining < c.remaining := by
  have within := c.offset_le
  simp only [skipBlanks, advance, remaining] at moved ⊢
  omega

namespace Shell

/-- An argument of an example's command line as read: an inline file with what its commands
wrote, or a word with its value. -/
inductive Arg where
  | inline (output : String)
  | word (value : String)

/-- The argument at `cursor` reads as `arg` up to `next`. -/
inductive ArgAt : Cursor → Arg → Cursor → Prop
  | inline {cursor next : Cursor} {commands : List Command} :
      [60, 40] <+: cursor.rest → InlineCommands (cursor.advance 2).skipBlanks commands next →
        (∀ c ∈ commands, c.name = "echo") → ArgAt cursor (.inline (echoOutput commands)) next
  | word {cursor next : Cursor} {value : String} :
      ¬ [60, 40] <+: cursor.rest → word cursor = .matched value next → ArgAt cursor (.word value) next

/-- The arguments read from `cursor` on, each after blanks, up to where the loop stops: where
no blank follows, or where no argument can be read. -/
inductive ArgsRead : Cursor → List Arg → Prop
  | stop {cursor : Cursor} :
      (cursor.skipBlanks.offset = cursor.offset ∨ ∀ arg next, ¬ ArgAt cursor.skipBlanks arg next) →
        ArgsRead cursor []
  | next {cursor next : Cursor} {arg : Arg} {args : List Arg} :
      cursor.skipBlanks.offset ≠ cursor.offset → ArgAt cursor.skipBlanks arg next →
        ArgsRead next args → ArgsRead cursor (arg :: args)

namespace Arg

/-- Whether the argument is an inline file, which takes a number. -/
def isInline : Arg → Bool
  | .inline _ => true
  | .word _ => false

/-- The value the argument gives a command when it would be inline file number `n`: the name
of that file, or the word's value. -/
def value (n : Nat) : Arg → String
  | .inline _ => inlineFileName n
  | .word value => value

end Arg

/-- The files after storing in turn each inline file among `args`, numbered from `n` on. -/
def storeInline : Nat → List Arg → Dict (List UInt8) → Dict (List UInt8)
  | _, [], files => files
  | n, .inline output :: args, files =>
    storeInline (n + 1) args (files.insert (inlineFileName n) (Utf8.encode output))
  | n, .word _ :: args, files => storeInline n args files

/-- The values that `args` give a command, inline files numbered from `n` on: the name of each
inline file and the value of each word. -/
def argValues : Nat → List Arg → List String
  | _, [] => []
  | n, .inline _ :: args => inlineFileName n :: argValues (n + 1) args
  | n, .word value :: args => value :: argValues n args

/-- Where the name of the command at `start` ends, when one is read after its assignments. -/
def nameEnd (start : Cursor) : Option Cursor :=
  match envsFrom start Dict.empty with
  | .ok (_, cursor) =>
    match word cursor with
    | .matched _ afterName => some afterName
    | _ => none
  | .error _ => none

theorem ArgAt.remaining_le {cursor next : Cursor} {arg : Arg} (read : ArgAt cursor arg next) :
    next.remaining ≤ cursor.remaining := by
  cases read with
  | inline _ commands _ =>
    calc next.remaining ≤ (cursor.advance 2).skipBlanks.remaining := commands.remaining_le
      _ ≤ (cursor.advance 2).remaining := Cursor.remaining_skipBlanks_le _
      _ ≤ cursor.remaining := Cursor.remaining_advance_le _ _
  | word _ parsed => exact word_remaining parsed

theorem storeInline_cons (n : Nat) (arg : Arg) (args : List Arg) (files : Dict (List UInt8)) :
    storeInline n (arg :: args) files =
      storeInline (n + if arg.isInline then 1 else 0) args (storeInline n [arg] files) := by
  cases arg <;> rfl

theorem argValues_cons (n : Nat) (arg : Arg) (args : List Arg) :
    argValues n (arg :: args) = arg.value n :: argValues (n + if arg.isInline then 1 else 0) args := by
  cases arg <;> rfl

section InvocationArg

variable {state : InlineState} {cursor next : Cursor}

/-- An argument that reads is one step of the fold: it gives its value, stores its file if it is
an inline file, and then takes a number. -/
theorem invocationArg_of_argAt (state : InlineState) {arg : Arg} (read : ArgAt cursor arg next) :
    (invocationArg state cursor).1 = .matched (arg.value state.nextId) next ∧
      (invocationArg state cursor).2.files = storeInline state.nextId [arg] state.files ∧
      (invocationArg state cursor).2.nextId = state.nextId + if arg.isInline then 1 else 0 := by
  cases read with
  | inline opens commands echo =>
    have stored : (inlineFile cursor state).1 = .matched (inlineFileName state.nextId) next ∧
        (inlineFile cursor state).2.files = _ := inlineFile_of_commands opens commands echo
    have numbered : (inlineFile cursor state).2.nextId = state.nextId := inlineFile_nextId
    unfold invocationArg
    rcases file : inlineFile cursor state with ⟨result, after⟩
    rw [file] at stored numbered
    obtain ⟨rfl, files⟩ := stored
    dsimp only at files numbered
    simp [files, numbered, storeInline, Arg.value, Arg.isInline]
  | word absent parsed =>
    simp [invocationArg, inlineFile_without_opening absent, parsed, storeInline, Arg.value,
      Arg.isInline]

theorem invocationArg_argAt {value : String}
    (read : (invocationArg state cursor).1 = .matched value next) : ∃ arg, ArgAt cursor arg next := by
  unfold invocationArg at read
  rcases file : inlineFile cursor state with ⟨result, after⟩
  have fileResult : (inlineFile cursor state).1 = result := by rw [file]
  rw [file] at read
  cases result with
  | matched name stop =>
    obtain ⟨-, opens, commands, commandsRead, echo⟩ := inlineFile_matched_iff.mp fileResult
    obtain ⟨-, rfl⟩ := Scan.matched.inj read
    exact ⟨_, .inline opens commandsRead echo⟩
  | noMatch => exact ⟨_, .word (inlineFile_noMatch_iff.mp fileResult) read⟩
  | error e => cases read

theorem invocationArg_keeps (notRead : ∀ value next, (invocationArg state cursor).1 ≠ .matched value next) :
    (invocationArg state cursor).2.files = state.files ∧
      (invocationArg state cursor).2.nextId = state.nextId := by
  unfold invocationArg at notRead ⊢
  rcases file : inlineFile cursor state with ⟨result, after⟩
  have fileResult : (inlineFile cursor state).1 = result := by rw [file]
  have numbered : (inlineFile cursor state).2.nextId = state.nextId := inlineFile_nextId
  rw [file] at notRead numbered
  cases result with
  | matched name stop => exact absurd rfl (notRead name stop)
  | noMatch =>
    have unread : inlineFile cursor state = (.noMatch, state) :=
      inlineFile_without_opening (inlineFile_noMatch_iff.mp fileResult)
    rw [file] at unread
    cases unread
    exact ⟨rfl, rfl⟩
  | error e =>
    have files : (inlineFile cursor state).2.files = state.files :=
      inlineFile_files_of_not_matched (by rw [fileResult]; intro _ _ failed; cases failed)
    rw [file] at files
    exact ⟨files, numbered⟩

/-- Where the argument after the blanks does not read, the loop reads no argument, and the state
that the argument leaves holds the same files and numbers. -/
theorem argsRead_of_not_read {result : Scan String} {state' : InlineState}
    (failed : invocationArg state cursor.skipBlanks = (result, state'))
    (notMatched : ∀ value next, result ≠ .matched value next) :
    ArgsRead cursor [] ∧ state'.files = state.files ∧ state'.nextId = state.nextId := by
  have notRead : ∀ value next, (invocationArg state cursor.skipBlanks).1 ≠ .matched value next := by
    rw [failed]
    exact notMatched
  have keeps := invocationArg_keeps notRead
  rw [failed] at keeps
  exact ⟨.stop (.inr fun _ _ read => notRead _ _ (invocationArg_of_argAt state read).1), keeps⟩

end InvocationArg

theorem argsFrom_invocationArg (state : InlineState) (cursor : Cursor) (args : List String) :
    ∃ read, ArgsRead cursor read ∧
      (argsFrom invocationArg state cursor args).2.nextId = state.nextId + read.countP Arg.isInline ∧
      (argsFrom invocationArg state cursor args).2.files = storeInline state.nextId read state.files ∧
      ∀ values stop, (argsFrom invocationArg state cursor args).1 = .ok (values, stop) →
        values = args ++ argValues state.nextId read := by
  fun_induction argsFrom invocationArg state cursor args with
  | case1 state cursor args _ same =>
    refine ⟨[], .stop (.inl same), rfl, rfl, fun values stop done => ?_⟩
    rw [← (Prod.mk.inj (Except.ok.inj done)).1, argValues, List.append_nil]
  | case2 state cursor args _ _ e state' failed =>
    obtain ⟨stops, files, numbered⟩ := argsRead_of_not_read failed (fun _ _ read => by cases read)
    exact ⟨[], stops, numbered, files, fun _ _ done => by cases done⟩
  | case3 state cursor args _ _ state' failed =>
    obtain ⟨stops, files, numbered⟩ := argsRead_of_not_read failed (fun _ _ read => by cases read)
    refine ⟨[], stops, numbered, files, fun values stop done => ?_⟩
    rw [← (Prod.mk.inj (Except.ok.inj done)).1, argValues, List.append_nil]
  | case4 state cursor args _ moved value after state' read _ ih =>
    obtain ⟨arg, argAt⟩ := invocationArg_argAt (congrArg Prod.fst read)
    have step := invocationArg_of_argAt state argAt
    rw [read] at step
    obtain ⟨valued, files, numbered⟩ := step
    obtain ⟨rest, restRead, restNumbered, restFiles, restValues⟩ := ih
    refine ⟨arg :: rest, .next moved argAt restRead, ?_, ?_, fun values stop done => ?_⟩
    · rw [restNumbered, numbered, List.countP_cons]
      omega
    · rw [restFiles, files, numbered, storeInline_cons state.nextId arg rest]
    · rw [restValues values stop done, (Scan.matched.inj valued).1, argValues_cons, numbered,
        List.append_assoc, List.singleton_append]
  | case5 state cursor args _ moved value after state' read notMoved =>
    obtain ⟨_, argAt⟩ := invocationArg_argAt (congrArg Prod.fst read)
    exact absurd (lt_of_le_of_lt argAt.remaining_le (Cursor.remaining_skipBlanks_lt moved)) notMoved

theorem ArgAt.unique {cursor next next' : Cursor} {arg arg' : Arg} (read : ArgAt cursor arg next)
    (read' : ArgAt cursor arg' next') : arg = arg' ∧ next = next' := by
  cases read with
  | inline opens commands _ =>
    cases read' with
    | inline _ commands' _ =>
      obtain ⟨rfl, rfl⟩ := commands.unique commands'
      exact ⟨rfl, rfl⟩
    | word absent _ => exact absurd opens absent
  | word absent parsed =>
    cases read' with
    | inline opens _ _ => exact absurd opens absent
    | word _ parsed' =>
      rw [parsed] at parsed'
      cases parsed'
      exact ⟨rfl, rfl⟩

theorem ArgsRead.unique {cursor : Cursor} {args args' : List Arg} (read : ArgsRead cursor args)
    (read' : ArgsRead cursor args') : args = args' := by
  induction read generalizing args' with
  | stop stops =>
    cases read' with
    | stop _ => rfl
    | next moved argAt _ => exact (stops.elim moved (fun none => none _ _ argAt)).elim
  | next moved argAt _ ih =>
    cases read' with
    | stop stops => exact (stops.elim moved (fun none => none _ _ argAt)).elim
    | next _ argAt' rest' =>
      obtain ⟨rfl, rfl⟩ := argAt.unique argAt'
      rw [ih rest']

/-- Reading an example's command line stores the inline files among the arguments it reads, in
turn, under the numbers from the next free one on, and nothing else, whatever the outcome: an
inline file that fails stores nothing. A command that is read has as arguments, in order, the
names of those files and the values of its words. -/
theorem invocation_inlineFiles (start : Cursor) (state : InlineState) :
    ∃ read : List Arg,
      (match nameEnd start with
        | some afterName => ArgsRead afterName read
        | none => read = []) ∧
      (invocation start state).2.nextId = state.nextId + read.countP Arg.isInline ∧
      (invocation start state).2.files = storeInline state.nextId read state.files ∧
      ∀ c span next, (invocation start state).1 = .matched (c, span) next →
        c.args = argValues state.nextId read := by
  unfold invocation commandWith
  rcases assigned : envsFrom start Dict.empty with e | ⟨envs, cursor⟩
  · have noName : nameEnd start = none := by rw [nameEnd, assigned]
    exact ⟨[], by rw [noName], rfl, rfl, fun _ _ _ parsed => by cases parsed⟩
  · dsimp only
    rcases named : word cursor with ⟨name, afterName⟩ | _ | e
    · have nameEnds : nameEnd start = some afterName := by simp [nameEnd, assigned, named]
      obtain ⟨read, argsRead, numbered, files, values⟩ := argsFrom_invocationArg state afterName []
      refine ⟨read, by rw [nameEnds]; exact argsRead, ?_⟩
      dsimp only
      split
      · next loop =>
        rw [loop] at numbered files
        exact ⟨numbered, files, fun _ _ _ parsed => by cases parsed⟩
      · next args next after loop =>
        rw [loop] at numbered files values
        refine ⟨numbered, files, fun c span stop parsed => ?_⟩
        cases parsed
        exact values args next rfl
    · have noName : nameEnd start = none := by simp [nameEnd, assigned, named]
      refine ⟨[], by rw [noName], ?_⟩
      dsimp only
      split <;> exact ⟨rfl, rfl, fun _ _ _ parsed => by cases parsed⟩
    · have noName : nameEnd start = none := by simp [nameEnd, assigned, named]
      exact ⟨[], by rw [noName], rfl, rfl, fun _ _ _ parsed => by cases parsed⟩

end Shell

end DocExamples
