import DocExamples.Proofs.Encoding

namespace DocExamples

namespace AsciiSet

theorem testBit_insert (set : AsciiSet) (b : UInt8) (i : Nat) :
    (set.insert b).mask.testBit i = (set.mask.testBit i || (decide (b.toNat < 128) && decide (b.toNat = i))) := by
  unfold insert
  split
  · rename_i ascii
    simp only [Nat.testBit_or, Nat.one_shiftLeft, Nat.testBit_two_pow, ascii, decide_true,
      Bool.true_and]
  · rename_i wide
    simp [wide]

theorem testBit_foldl_insert (members : List UInt8) (set : AsciiSet) (i : Nat) :
    (members.foldl insert set).mask.testBit i = true ↔
      set.mask.testBit i = true ∨ ∃ m ∈ members, m.toNat < 128 ∧ m.toNat = i := by
  induction members generalizing set with
  | nil => simp
  | cons m rest ih =>
    rw [List.foldl_cons, ih, testBit_insert]
    simp only [Bool.or_eq_true, Bool.and_eq_true, decide_eq_true_eq, List.mem_cons,
      exists_eq_or_imp]
    tauto

theorem testBit_ofAscii (members : List UInt8) (i : Nat) :
    (ofAscii members).mask.testBit i = true ↔ ∃ m ∈ members, m.toNat < 128 ∧ m.toNat = i := by
  have empty : empty.mask.testBit i = false := Nat.zero_testBit i
  rw [ofAscii, testBit_foldl_insert, empty]
  simp

theorem contains_ofAscii (members : List UInt8) (b : UInt8) :
    (ofAscii members).contains b = true ↔ b.toNat < 128 ∧ b ∈ members := by
  simp only [contains, Bool.and_eq_true, decide_eq_true_eq, testBit_ofAscii]
  constructor
  · rintro ⟨ascii, m, member, -, same⟩
    exact ⟨ascii, UInt8.toNat_inj.mp same ▸ member⟩
  · rintro ⟨ascii, member⟩
    exact ⟨ascii, b, member, ascii, rfl⟩

theorem containsChar_ofAscii (members : List UInt8) (c : Char) :
    (ofAscii members).containsChar c = true ↔ c.toNat < 128 ∧ c.toNat.toUInt8 ∈ members := by
  simp only [containsChar, Bool.and_eq_true, decide_eq_true_eq, contains_ofAscii]
  constructor
  · rintro ⟨ascii, -, member⟩
    exact ⟨ascii, member⟩
  · rintro ⟨ascii, member⟩
    have code : c.toNat.toUInt8.toNat = c.toNat := Utf8.byte_toNat (by omega)
    exact ⟨ascii, by rw [code]; exact ascii, member⟩

theorem contains_union (a b : AsciiSet) (x : UInt8) :
    (a.union b).contains x = (a.contains x || b.contains x) := by
  simp only [contains, union, Nat.testBit_or]
  cases decide (x.toNat < 128) <;> rfl

theorem new?_eq_none_iff (members : List UInt8) :
    new? members = none ↔ ∃ m ∈ members, 128 ≤ m.toNat := by
  simp [new?]

theorem new?_of_ascii {members : List UInt8} (ascii : ∀ m ∈ members, m.toNat < 128) :
    new? members = some (ofAscii members) := by
  rw [new?, if_pos (List.all_eq_true.mpr fun m member => decide_eq_true (ascii m member))]

/-- Building a set from a list is refused exactly when a byte from 128 up is among the members.
A set built from ASCII bytes holds exactly them: a byte is a member when it is one of them, a
character when it is below 128 and its byte is one of them, and the union of two such sets holds
the bytes of both lists. Its mask has a bit only for a member, and each such bit is below 128. -/
theorem new?_members (ms ns : List UInt8) :
    (new? ms = none ↔ ∃ m ∈ ms, 128 ≤ m.toNat) ∧
    ((∀ m ∈ ms, m.toNat < 128) → (∀ n ∈ ns, n.toNat < 128) →
      ∃ a b, new? ms = some a ∧ new? ns = some b ∧
        (∀ x, a.contains x = true ↔ x.toNat < 128 ∧ x ∈ ms) ∧
        (∀ c, a.containsChar c = true ↔ c.toNat < 128 ∧ c.toNat.toUInt8 ∈ ms) ∧
        (∀ x, (a.union b).contains x = true ↔ x ∈ ms ++ ns) ∧
        ∀ i, a.mask.testBit i = true ↔ i < 128 ∧ ∃ m ∈ ms, m.toNat = i) := by
  refine ⟨new?_eq_none_iff ms, fun asciiM asciiN => ?_⟩
  refine ⟨ofAscii ms, ofAscii ns, new?_of_ascii asciiM, new?_of_ascii asciiN,
    contains_ofAscii ms, containsChar_ofAscii ms, fun x => ?_, fun i => ?_⟩
  · rw [contains_union, Bool.or_eq_true, contains_ofAscii, contains_ofAscii, List.mem_append]
    constructor
    · rintro (⟨-, member⟩ | ⟨-, member⟩)
      · exact .inl member
      · exact .inr member
    · rintro (member | member)
      · exact .inl ⟨asciiM x member, member⟩
      · exact .inr ⟨asciiN x member, member⟩
  · rw [testBit_ofAscii]
    constructor
    · rintro ⟨m, member, ascii, rfl⟩
      exact ⟨ascii, m, member, rfl⟩
    · rintro ⟨-, m, member, rfl⟩
      exact ⟨m, member, asciiM m member, rfl⟩

/-- The set of the two quotes and the set of the backslash, the bytes that open a quoted or an
escaped part of a word. -/
theorem new?_members_quotes :
    (∀ m ∈ ([34, 39] : List UInt8), m.toNat < 128) ∧ (∀ n ∈ ([92] : List UInt8), n.toNat < 128) ∧
      ∃ a b, new? [34, 39] = some a ∧ new? [92] = some b ∧
        (∀ x, a.contains x = true ↔ x.toNat < 128 ∧ x ∈ ([34, 39] : List UInt8)) ∧
        (∀ c, a.containsChar c = true ↔ c.toNat < 128 ∧ c.toNat.toUInt8 ∈ ([34, 39] : List UInt8)) ∧
        (∀ x, (a.union b).contains x = true ↔ x ∈ ([34, 39] : List UInt8) ++ [92]) ∧
        ∀ i, a.mask.testBit i = true ↔ i < 128 ∧ ∃ m ∈ ([34, 39] : List UInt8), m.toNat = i := by
  have asciiM : ∀ m ∈ ([34, 39] : List UInt8), m.toNat < 128 := by simp
  have asciiN : ∀ n ∈ ([92] : List UInt8), n.toNat < 128 := by simp
  exact ⟨asciiM, asciiN, (new?_members [34, 39] [92]).2 asciiM asciiN⟩

end AsciiSet

end DocExamples
