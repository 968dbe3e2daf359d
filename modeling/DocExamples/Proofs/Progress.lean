import DocExamples.Proofs.Reading
import DocExamples.Shell.Command

namespace DocExamples

namespace Cursor

/-- `b` stands on the line of `a`, at or after it. -/
def Reaches (a b : Cursor) : Prop :=
  b.line = a.line ∧ a.offset ≤ b.offset

/-- `b` stands on the line of `a`, past it. -/
def Passes (a b : Cursor) : Prop :=
  b.line = a.line ∧ a.offset < b.offset

variable {a b c : Cursor}

theorem Reaches.refl (a : Cursor) : a.Reaches a :=
  ⟨rfl, Nat.le_refl _⟩

theorem Reaches.trans (ab : a.Reaches b) (bc : b.Reaches c) : a.Reaches c :=
  ⟨bc.1.trans ab.1, ab.2.trans bc.2⟩

theorem Passes.reaches (ab : a.Passes b) : a.Reaches b :=
  ⟨ab.1, ab.2.le⟩

theorem Passes.trans_reaches (ab : a.Passes b) (bc : b.Reaches c) : a.Passes c :=
  ⟨bc.1.trans ab.1, Nat.lt_of_lt_of_le ab.2 bc.2⟩

theorem Reaches.trans_passes (ab : a.Reaches b) (bc : b.Passes c) : a.Passes c :=
  ⟨bc.1.trans ab.1, Nat.lt_of_le_of_lt ab.2 bc.2⟩

theorem Passes.trans (ab : a.Passes b) (bc : b.Passes c) : a.Passes c :=
  ab.trans_reaches bc.reaches

theorem reaches_advance (a : Cursor) (n : Nat) : a.Reaches (a.advance n) := by
  refine ⟨rfl, ?_⟩
  have := a.offset_le
  simp only [advance]
  omega

theorem passes_advance {n : Nat} (inside : a.offset < a.line.text.length) (pos : 0 < n) :
    a.Passes (a.advance n) := by
  refine ⟨rfl, ?_⟩
  simp only [advance]
  omega

theorem passes_advance_of_peek {byte : UInt8} (peeked : a.peek = some byte) :
    a.Passes (a.advance 1) :=
  passes_advance (offset_lt_of_peek peeked) Nat.one_pos

theorem reaches_skipBlanks (a : Cursor) : a.Reaches a.skipBlanks :=
  a.reaches_advance _

theorem Reaches.remaining_le (ab : a.Reaches b) : b.remaining ≤ a.remaining := by
  simp only [remaining, ab.1]
  exact Nat.sub_le_sub_left ab.2 _

theorem Passes.remaining_lt (ab : a.Passes b) : b.remaining < a.remaining := by
  have within := b.offset_le
  rw [ab.1] at within
  have ahead := ab.2
  simp only [remaining, ab.1]
  omega

theorem Passes.offset_ne (ab : a.Passes b) : b.offset ≠ a.offset :=
  Nat.ne_of_gt ab.2

theorem ext {a b : Cursor} (line : a.line = b.line) (offset : a.offset = b.offset) : a = b := by
  obtain ⟨lineA, offsetA, _⟩ := a
  obtain ⟨lineB, offsetB, _⟩ := b
  simp only at line offset
  subst line offset
  rfl

theorem Reaches.eq_or_passes (ab : a.Reaches b) : b = a ∨ a.Passes b := by
  rcases Nat.eq_or_lt_of_le ab.2 with same | ahead
  · exact .inl (ext ab.1 same.symm)
  · exact .inr ⟨ab.1, ahead⟩

theorem remaining_skipBlanks_le (c : Cursor) : c.skipBlanks.remaining ≤ c.remaining :=
  c.remaining_advance_le _

end Cursor

namespace Shell

theorem doubleQuotedFrom_reaches {start cursor stop : Cursor} {value v : String}
    (read : doubleQuotedFrom start cursor value = .matched v stop) : cursor.Reaches stop := by
  fun_induction doubleQuotedFrom start cursor value with
  | case1 | case2 | case4 | case5 => cases read
  | case3 cursor value width next _ =>
    rw [← (Scan.matched.inj read).2]
    exact cursor.reaches_advance width
  | case6 cursor value width next escaped escapedWidth _ _ _ ih =>
    exact (cursor.reaches_advance width).trans ((next.reaches_advance escapedWidth).trans (ih read))
  | case7 cursor value c width _ next _ _ ih => exact (cursor.reaches_advance width).trans (ih read)

theorem doubleQuoted_passes {start stop : Cursor} {v : String}
    (read : doubleQuoted start = .matched v stop) : start.Passes stop := by
  unfold doubleQuoted at read
  split at read
  · rename_i opening
    exact (Cursor.passes_advance_of_peek opening).trans_reaches (doubleQuotedFrom_reaches read)
  · cases read

theorem singleQuoted_passes {start stop : Cursor} {v : String}
    (read : singleQuoted start = .matched v stop) : start.Passes stop := by
  unfold singleQuoted at read
  split at read
  · rename_i opening
    dsimp only at read
    split at read
    · cases read
    · rw [← (Scan.matched.inj read).2]
      exact (Cursor.passes_advance_of_peek opening).trans_reaches ((start.advance 1).reaches_advance _)
  · cases read

/-- The loop of a bare run either stops where it is, with what it had read, or reads at least one
character and moves past its start. -/
theorem bareFrom_stays_or_passes {cursor stop : Cursor} {value v : String}
    (read : bareFrom cursor value = .ok (v, stop)) :
    (stop = cursor ∧ v = value) ∨ (cursor.Passes stop ∧ value.length < v.length) := by
  fun_induction bareFrom cursor value with
  | case2 | case3 | case7 => cases read
  | case1 | case5 | case8 =>
    obtain ⟨rfl, rfl⟩ := Prod.mk.inj (Except.ok.inj read)
    exact .inl ⟨rfl, rfl⟩
  | case4 cursor value next escaped width _ peeked ih =>
    have moved : cursor.Passes (next.advance width) :=
      (Cursor.passes_advance_of_peek peeked).trans_reaches (next.reaches_advance width)
    rcases ih read with ⟨rfl, rfl⟩ | ⟨further, longer⟩
    · exact .inr ⟨moved, by simp⟩
    · exact .inr ⟨moved.trans further, by simp at longer; omega⟩
  | case6 cursor value b _ _ _ c width decoded ih =>
    have moved : cursor.Passes (cursor.advance width) :=
      Cursor.passes_advance (Cursor.offset_lt_of_nextChar decoded) (Utf8.decodeChar_size_pos decoded)
    rcases ih read with ⟨rfl, rfl⟩ | ⟨further, longer⟩
    · exact .inr ⟨moved, by simp⟩
    · exact .inr ⟨moved.trans further, by simp at longer; omega⟩

theorem bare_passes {start stop : Cursor} {v : String} (read : bare start = .matched v stop) :
    start.Passes stop ∧ v ≠ "" := by
  unfold bare at read
  split at read
  · cases read
  · rename_i value next ran
    split at read
    · cases read
    · rename_i moved
      obtain ⟨rfl, rfl⟩ := Scan.matched.inj read
      rcases bareFrom_stays_or_passes ran with ⟨rfl, -⟩ | ⟨passes, longer⟩
      · exact absurd rfl moved
      · exact ⟨passes, fun empty => by simp [empty] at longer⟩

theorem segment_passes {cursor stop : Cursor} {part : String} {quoted : Bool}
    (read : segment cursor = (.matched part stop, quoted)) : cursor.Passes stop := by
  unfold segment at read
  split at read
  · exact doubleQuoted_passes (Prod.mk.inj read).1
  · exact singleQuoted_passes (Prod.mk.inj read).1
  · exact (bare_passes (Prod.mk.inj read).1).1

theorem wordFrom_reaches {cursor stop : Cursor} {value v : String} {delimited d : Bool}
    (read : wordFrom cursor value delimited = .ok (v, stop, d)) : cursor.Reaches stop := by
  fun_induction wordFrom cursor value delimited with
  | case1 => cases read
  | case2 =>
    rw [← (Prod.mk.inj (Prod.mk.inj (Except.ok.inj read)).2).1]
    exact Cursor.Reaches.refl _
  | case3 cursor value delimited part next quoted segmented _ ih =>
    exact (segment_passes segmented).reaches.trans (ih read)
  | case4 cursor value delimited part next quoted segmented _ =>
    rw [← (Prod.mk.inj (Prod.mk.inj (Except.ok.inj read)).2).1]
    exact (segment_passes segmented).reaches

theorem word_passes {start stop : Cursor} {v : String} (read : word start = .matched v stop) :
    start.Passes stop := by
  unfold word at read
  split at read
  · cases read
  · rename_i value next delimited ran
    split at read
    · cases read
    · rename_i kept
      rw [← (Scan.matched.inj read).2]
      rcases (wordFrom_reaches ran).eq_or_passes with rfl | passes
      · exact absurd (.inl rfl) kept
      · exact passes

theorem word_remaining {start stop : Cursor} {v : String}
    (read : word start = .matched v stop) : stop.remaining ≤ start.remaining :=
  (word_passes read).reaches.remaining_le

/-- The loop of a name either stops where it is, with what it had read, or reads at least one
character and moves past its start. -/
theorem identifierFrom_stays_or_passes {cursor stop : Cursor} {name v : String}
    (read : identifierFrom cursor name = .ok (v, stop)) :
    (stop = cursor ∧ v = name) ∨ (cursor.Passes stop ∧ name.length < v.length) := by
  fun_induction identifierFrom cursor name with
  | case2 => cases read
  | case1 | case4 =>
    obtain ⟨rfl, rfl⟩ := Prod.mk.inj (Except.ok.inj read)
    exact .inl ⟨rfl, rfl⟩
  | case3 cursor name c width decoded _ ih =>
    have moved : cursor.Passes (cursor.advance width) :=
      Cursor.passes_advance (Cursor.offset_lt_of_nextChar decoded) (Utf8.decodeChar_size_pos decoded)
    rcases ih read with ⟨rfl, rfl⟩ | ⟨further, longer⟩
    · exact .inr ⟨moved, by simp⟩
    · exact .inr ⟨moved.trans further, by simp at longer; omega⟩

theorem identifier_passes {start stop : Cursor} {name : String}
    (read : identifier start = .matched name stop) : start.Passes stop ∧ name ≠ "" := by
  unfold identifier at read
  split at read
  · cases read
  · rename_i name' next ran
    split at read
    · cases read
    · rename_i filled
      obtain ⟨rfl, rfl⟩ := Scan.matched.inj read
      rcases identifierFrom_stays_or_passes ran with ⟨-, rfl⟩ | ⟨passes, longer⟩
      · exact absurd rfl filled
      · exact ⟨passes, fun empty => by simp [empty] at longer⟩

theorem assignment_passes {start stop : Cursor} {binding : String × String}
    (read : assignment start = .matched binding stop) : start.Passes stop := by
  unfold assignment at read
  split at read
  · cases read
  · cases read
  · rename_i name cursor named
    split at read
    · rename_i equals
      have afterEquals : start.Passes (cursor.advance 1) :=
        (identifier_passes named).1.trans (Cursor.passes_advance_of_peek equals)
      dsimp only at read
      split at read
      · rename_i value next valued
        rw [← (Scan.matched.inj read).2]
        exact afterEquals.trans (word_passes valued)
      · rw [← (Scan.matched.inj read).2]
        exact afterEquals
      · cases read
    · cases read

theorem envsFrom_reaches {cursor stop : Cursor} {envs v : Vars}
    (read : envsFrom cursor envs = .ok (v, stop)) : cursor.Reaches stop := by
  fun_induction envsFrom cursor envs with
  | case1 => cases read
  | case2 =>
    rw [← (Prod.mk.inj (Except.ok.inj read)).2]
    exact Cursor.Reaches.refl _
  | case3 cursor envs name value after assigned next _ ih =>
    exact ((assignment_passes assigned).reaches.trans (after.reaches_skipBlanks)).trans (ih read)
  | case4 cursor envs name value after assigned next _ =>
    rw [← (Prod.mk.inj (Except.ok.inj read)).2]
    exact (assignment_passes assigned).reaches.trans (after.reaches_skipBlanks)

section Arguments

variable {σ : Type} {parseArg : σ → Cursor → Scan String × σ}

theorem argsFrom_reaches
    (forward : ∀ state cursor arg after state', parseArg state cursor = (.matched arg after, state') →
      cursor.Reaches after)
    {state : σ} {cursor stop : Cursor} {args v : List String}
    (read : (argsFrom parseArg state cursor args).1 = .ok (v, stop)) : cursor.Reaches stop := by
  fun_induction argsFrom parseArg state cursor args with
  | case2 => cases read
  | case1 | case3 =>
    rw [← (Prod.mk.inj (Except.ok.inj read)).2]
    exact Cursor.Reaches.refl _
  | case4 state cursor args next _ arg after state' parsed _ ih =>
    exact ((cursor.reaches_skipBlanks).trans (forward _ _ _ _ _ parsed)).trans (ih read)
  | case5 state cursor args next _ arg after state' parsed _ =>
    rw [← (Prod.mk.inj (Except.ok.inj read)).2]
    exact (cursor.reaches_skipBlanks).trans (forward _ _ _ _ _ parsed)

/-- A command ends past its start, since its name does, when no argument moves back. -/
theorem commandWith_passes
    (forward : ∀ state cursor arg after state', parseArg state cursor = (.matched arg after, state') →
      cursor.Reaches after)
    {state : σ} {start stop : Cursor} {read : Command × Span}
    (parsed : (commandWith parseArg state start).1 = .matched read stop) : start.Passes stop := by
  unfold commandWith at parsed
  split at parsed
  · cases parsed
  · rename_i envs cursor assigned
    split at parsed
    · cases parsed
    · split at parsed <;> cases parsed
    · rename_i name afterName named
      split at parsed
      · cases parsed
      · rename_i args next _ ran
        rw [← (Scan.matched.inj parsed).2]
        exact ((envsFrom_reaches assigned).trans_passes (word_passes named)).trans_reaches
          (argsFrom_reaches forward (by rw [ran]))

end Arguments

theorem command_passes {start stop : Cursor} {read : Command × Span}
    (parsed : command start = .matched read stop) : start.Passes stop :=
  commandWith_passes (fun _ _ _ _ _ argument => (word_passes (Prod.mk.inj argument).1).reaches) parsed

theorem command_remaining {start stop : Cursor} {read : Command × Span}
    (parsed : command start = .matched read stop) : stop.remaining ≤ start.remaining :=
  (command_passes parsed).reaches.remaining_le

end Shell

end DocExamples
