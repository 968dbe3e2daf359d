import DocExamples.Proofs.Excerpt

namespace DocExamples

namespace Utf8

/-- Bytes that can begin well-formed text: a prefix of the encoding of some string. -/
def BeginsText (bytes : List UInt8) : Prop :=
  ∃ s : String, bytes <+: encode s

/-- `k` is the length of the maximal subpart at the front of `bytes`: the longest prefix that can
begin well-formed text, or 1 when only the empty prefix can. -/
structure MaximalSubpart (bytes : List UInt8) (k : Nat) : Prop where
  pos : 0 < k
  le_length : k ≤ bytes.length
  begins : k = 1 ∨ BeginsText (bytes.take k)
  longest : ∀ j, k < j → j ≤ bytes.length → ¬ BeginsText (bytes.take j)

/-- Bytes read as text the way a lossy conversion reads them: each character whose encoding stands
at the front for itself, and otherwise the maximal subpart at the front as one U+FFFD. -/
inductive LossyText : List UInt8 → List Char → Prop
  | nil : LossyText [] []
  | char {c : Char} {rest : List UInt8} {chars : List Char} :
      LossyText rest chars → LossyText (String.utf8EncodeChar c ++ rest) (c :: chars)
  | replaced {bytes : List UInt8} {k : Nat} {chars : List Char} :
      bytes ≠ [] → (∀ c : Char, ¬ String.utf8EncodeChar c <+: bytes) → MaximalSubpart bytes k →
      LossyText (bytes.drop k) chars → LossyText bytes ('�' :: chars)

/-- Continuation bytes in the ranges a lead byte asks for: the first within `lo..hi`, the others
within `0x80..0xBF`. -/
def InRanges (lo hi : UInt8) : List UInt8 → Prop
  | [] => True
  | b :: rest => lo ≤ b ∧ b ≤ hi ∧ InRanges 0x80 0xBF rest

section Ranges

variable {lo hi : UInt8}

theorem InRanges.take {bytes : List UInt8} (within : InRanges lo hi bytes) (n : Nat) :
    InRanges lo hi (bytes.take n) := by
  induction bytes generalizing lo hi n with
  | nil => simp [InRanges]
  | cons b rest ih =>
    cases n with
    | zero => simp [InRanges]
    | succ n =>
      obtain ⟨low, high, more⟩ := within
      exact ⟨low, high, ih more n⟩

theorem inRanges_replicate (n : Nat) : InRanges 0x80 0xBF (List.replicate n 0x80) := by
  induction n with
  | zero => trivial
  | succ n ih => exact ⟨by decide, by decide, ih⟩

theorem InRanges.extend {bytes : List UInt8} (within : InRanges lo hi bytes) (ordered : lo ≤ hi)
    (n : Nat) : ∃ more : List UInt8, more.length = n ∧ InRanges lo hi (bytes ++ more) := by
  induction bytes generalizing lo hi with
  | nil =>
    cases n with
    | zero => exact ⟨[], rfl, trivial⟩
    | succ n =>
      exact ⟨lo :: List.replicate n 0x80, by simp, UInt8.le_refl lo, ordered, inRanges_replicate n⟩
  | cons b rest ih =>
    obtain ⟨low, high, more⟩ := within
    obtain ⟨filler, length, filled⟩ := ih more (by decide)
    exact ⟨filler, length, low, high, filled⟩

/-- A failed read of continuation bytes stops at the first that is missing or out of its range:
the ones before it stand in their ranges, and no longer run of the bytes does. Induction on the
number of bytes asked for. -/
theorem continuation_error_inRanges {count : Nat} {acc : Nat} {bytes : List UInt8} {good : Nat}
    (failed : continuation count lo hi acc bytes = .error good) :
    InRanges lo hi (bytes.take good) ∧
      ∀ j, good < j → j ≤ bytes.length → ¬ InRanges lo hi (bytes.take j) := by
  induction count generalizing lo hi acc bytes good with
  | zero => simp [continuation] at failed
  | succ count ih =>
    cases bytes with
    | nil =>
      simp only [continuation, Except.error.injEq] at failed
      subst failed
      exact ⟨trivial, fun j after within => by simp at within; omega⟩
    | cons b rest =>
      simp only [continuation] at failed
      split at failed
      · rename_i inRange
        split at failed
        · cases failed
        · rename_i inner tail
          simp only [Except.error.injEq] at failed
          subst failed
          obtain ⟨before, none⟩ := ih tail
          refine ⟨⟨inRange.1, inRange.2, before⟩, fun j after within => ?_⟩
          obtain ⟨i, rfl⟩ : ∃ i, j = i + 1 := ⟨j - 1, by omega⟩
          rintro ⟨-, -, more⟩
          exact none i (by omega) (by simpa using within) more
      · rename_i outside
        simp only [Except.error.injEq] at failed
        subst failed
        refine ⟨trivial, fun j after within => ?_⟩
        obtain ⟨i, rfl⟩ : ∃ i, j = i + 1 := ⟨j - 1, by omega⟩
        rintro ⟨low, high, -⟩
        exact outside ⟨low, high⟩

theorem continuation_ok_inRanges {count : Nat} {acc value : Nat} {bytes : List UInt8}
    (read : continuation count lo hi acc bytes = .ok value) :
    count ≤ bytes.length ∧ InRanges lo hi (bytes.take count) := by
  induction count generalizing lo hi acc bytes with
  | zero => simp [InRanges]
  | succ count ih =>
    cases bytes with
    | nil => simp [continuation] at read
    | cons b rest =>
      obtain ⟨inRange, tail⟩ := continuation_ok_succ.mp read
      obtain ⟨enough, within⟩ := ih tail
      refine ⟨by simp; omega, ?_, ?_, within⟩
      · exact UInt8.le_iff_toNat_le.mpr inRange.1
      · exact UInt8.le_iff_toNat_le.mpr inRange.2

theorem continuation_of_inRanges {count : Nat} (acc : Nat) {bytes : List UInt8}
    (within : InRanges lo hi bytes) (length : bytes.length = count) :
    ∃ value, continuation count lo hi acc bytes = .ok value := by
  induction count generalizing lo hi acc bytes with
  | zero => exact ⟨acc, rfl⟩
  | succ count ih =>
    cases bytes with
    | nil => cases length
    | cons b rest =>
      obtain ⟨low, high, more⟩ := within
      obtain ⟨value, tail⟩ := ih (acc * 64 + (b.toNat - 0x80)) more (by simpa using length)
      exact ⟨value, continuation_cons ⟨UInt8.le_iff_toNat_le.mp low, UInt8.le_iff_toNat_le.mp high⟩ tail⟩

end Ranges

theorem leadShape_ordered {lead : UInt8} {count : Nat} {lo hi : UInt8}
    (shape : leadShape lead = some (count, lo, hi)) : lo ≤ hi := by
  unfold leadShape at shape
  split_ifs at shape <;> cases shape <;> decide

/-- Bytes from 128 up begin a character exactly when they are a lead byte followed by continuation
bytes in their ranges, no more than it asks for. -/
theorem beginsChar_iff {lead : UInt8} {cs : List UInt8} (wide : 0x80 ≤ lead.toNat) :
    (∃ c : Char, lead :: cs <+: String.utf8EncodeChar c) ↔
      ∃ count lo hi, leadShape lead = some (count, lo, hi) ∧ cs.length ≤ count ∧ InRanges lo hi cs := by
  constructor
  · rintro ⟨c, t, encoded⟩
    have read := decodeChar_utf8EncodeChar c []
    rw [List.append_nil, ← encoded, List.cons_append] at read
    obtain ⟨count, lo, hi, code, shape, tail, rfl, size⟩ := decodeChar_wide wide read
    obtain ⟨enough, within⟩ := continuation_ok_inRanges tail
    have length := String.length_utf8EncodeChar (Char.ofNat code)
    rw [← encoded, size] at length
    simp only [List.cons_append, List.length_cons, List.length_append] at length
    refine ⟨count, lo, hi, shape, by omega, ?_⟩
    have prefixOf := within.take cs.length
    rwa [List.take_take, Nat.min_eq_left (by omega), List.take_left' rfl] at prefixOf
  · rintro ⟨count, lo, hi, shape, short, within⟩
    obtain ⟨more, length, filled⟩ := within.extend (leadShape_ordered shape) (count - cs.length)
    have read : ∃ code, continuation count lo hi (lead.toNat % 2 ^ (6 - count)) (cs ++ more) = .ok code :=
      continuation_of_inRanges _ filled (by simp only [List.length_append, length]; omega)
    obtain ⟨code, tail⟩ := read
    obtain ⟨size, t, encoded⟩ := decodeChar_eq_char (decodeChar_lead wide shape tail)
    have total := congrArg List.length encoded
    simp only [List.length_cons, List.length_append, String.length_utf8EncodeChar, ← size, length]
      at total
    have noRest : t = [] := List.eq_nil_of_length_eq_zero (by omega)
    rw [noRest, List.append_nil] at encoded
    exact ⟨Char.ofNat code, more, by rw [← encoded, List.cons_append]⟩

/-- Bytes that start with no character's encoding begin well-formed text exactly when they begin
one character. -/
theorem beginsText_iff {bytes : List UInt8} (noChar : ∀ c : Char, ¬ String.utf8EncodeChar c <+: bytes) :
    BeginsText bytes ↔ ∃ c : Char, bytes <+: String.utf8EncodeChar c := by
  constructor
  · rintro ⟨s, beginning⟩
    cases chars : s.toList with
    | nil =>
      have empty : bytes = [] := by
        rw [encode_eq_flatMap, chars, List.flatMap_nil] at beginning
        exact List.prefix_nil.mp beginning
      exact ⟨'a', empty ▸ List.nil_prefix⟩
    | cons c more =>
      rw [encode_eq_flatMap, chars, List.flatMap_cons] at beginning
      rcases List.prefix_or_prefix_of_prefix beginning (List.prefix_append _ _) with short | long
      · exact ⟨c, short⟩
      · exact absurd long (noChar c)
  · rintro ⟨c, beginning⟩
    exact ⟨String.ofList [c], by rwa [encode_ofList, List.flatMap_singleton]⟩

theorem MaximalSubpart.unique {bytes : List UInt8} {k k' : Nat} (first : MaximalSubpart bytes k)
    (second : MaximalSubpart bytes k') : k = k' := by
  by_contra differ
  rcases Nat.lt_or_gt_of_ne differ with shorter | longer
  · rcases second.begins with one | begins
    · have := first.pos
      omega
    · exact first.longest k' shorter second.le_length begins
  · rcases first.begins with one | begins
    · have := second.pos
      omega
    · exact second.longest k longer first.le_length begins

theorem MaximalSubpart.le_three {bytes : List UInt8} {k : Nat} (part : MaximalSubpart bytes k)
    (noChar : ∀ c : Char, ¬ String.utf8EncodeChar c <+: bytes) : k ≤ 3 := by
  rcases part.begins with one | begins
  · omega
  · have noCharTaken : ∀ c : Char, ¬ String.utf8EncodeChar c <+: bytes.take k :=
      fun c inside => noChar c (inside.trans (List.take_prefix _ _))
    obtain ⟨c, beginning⟩ := (beginsText_iff noCharTaken).mp begins
    have shorter : (bytes.take k).length < (String.utf8EncodeChar c).length := by
      rcases Nat.lt_or_ge (bytes.take k).length (String.utf8EncodeChar c).length with lt | ge
      · exact lt
      · exact absurd (beginning.eq_of_length_le ge ▸ List.prefix_refl _) (noCharTaken c)
    have four := Char.utf8Size_le_four c
    rw [List.length_take, Nat.min_eq_left part.le_length, String.length_utf8EncodeChar] at shorter
    omega

theorem decodeChar_of_startsWith {bytes : List UInt8} {c : Char} (encoded : String.utf8EncodeChar c <+: bytes) :
    decodeChar bytes = some (.char c c.utf8Size) := by
  obtain ⟨t, rfl⟩ := encoded
  exact decodeChar_utf8EncodeChar c t

theorem beginsText_take_succ {lead : UInt8} {rest : List UInt8} (wide : 0x80 ≤ lead.toNat)
    (noChar : ∀ c : Char, ¬ String.utf8EncodeChar c <+: lead :: rest) (j : Nat) :
    BeginsText ((lead :: rest).take (j + 1)) ↔
      ∃ count lo hi, leadShape lead = some (count, lo, hi) ∧ min j rest.length ≤ count ∧
        InRanges lo hi (rest.take j) := by
  have noCharTaken : ∀ c : Char, ¬ String.utf8EncodeChar c <+: (lead :: rest).take (j + 1) :=
    fun c inside => noChar c (inside.trans (List.take_prefix _ _))
  rw [beginsText_iff noCharTaken, List.take_succ_cons, beginsChar_iff wide, List.length_take]

/-- Where the decoder finds no character, it finds the maximal subpart at the front. -/
theorem maximalSubpart_of_invalid {bytes : List UInt8} {k : Nat}
    (invalid : decodeChar bytes = some (.invalid k)) :
    (∀ c : Char, ¬ String.utf8EncodeChar c <+: bytes) ∧ MaximalSubpart bytes k := by
  have noChar : ∀ c : Char, ¬ String.utf8EncodeChar c <+: bytes := by
    intro c encoded
    rw [decodeChar_of_startsWith encoded] at invalid
    cases invalid
  refine ⟨noChar, ?_⟩
  have size := decodeChar_size_le invalid
  simp only [Decoded.size] at size
  cases bytes with
  | nil => cases invalid
  | cons lead rest =>
    have wide : 0x80 ≤ lead.toNat := by
      by_contra narrow
      have ascii : lead < 0x80 := by simp only [UInt8.lt_iff_toNat_lt, UInt8.reduceToNat]; omega
      simp [decodeChar, ascii] at invalid
    have notAscii : ¬ lead < 0x80 := by simp only [UInt8.lt_iff_toNat_lt, UInt8.reduceToNat]; omega
    have begins := beginsText_take_succ wide noChar
    simp only [decodeChar, notAscii, if_false] at invalid
    split at invalid
    · rename_i none
      cases invalid
      refine ⟨Nat.one_pos, by simp, .inl rfl, fun j longer within beginning => ?_⟩
      obtain ⟨i, rfl⟩ : ∃ i, j = i + 1 := ⟨j - 1, by omega⟩
      obtain ⟨count, lo, hi, shape, -⟩ := (begins i).mp beginning
      rw [none] at shape
      cases shape
    · rename_i count lo hi shape
      split at invalid
      · cases invalid
      · rename_i good failed
        cases invalid
        obtain ⟨before, none⟩ := continuation_error_inRanges failed
        have fewer := continuation_error_lt failed
        refine ⟨by omega, size, .inr ((begins good).mpr ⟨count, lo, hi, shape, by omega, before⟩),
          fun j longer within beginning => ?_⟩
        obtain ⟨i, rfl⟩ : ∃ i, j = i + 1 := ⟨j - 1, by omega⟩
        obtain ⟨count', lo', hi', shape', -, inRanges⟩ := (begins i).mp beginning
        rw [shape] at shape'
        cases shape'
        have inside : i ≤ rest.length := by
          simp only [List.length_cons] at within
          omega
        exact none i (by omega) inside inRanges

/-- The decoder finds a bad stretch exactly where the bytes start with no character's encoding,
and then its length is the maximal subpart at the front. -/
theorem decodeChar_eq_invalid_iff {bytes : List UInt8} {k : Nat} :
    decodeChar bytes = some (.invalid k) ↔
      bytes ≠ [] ∧ (∀ c : Char, ¬ String.utf8EncodeChar c <+: bytes) ∧ MaximalSubpart bytes k := by
  constructor
  · intro invalid
    have nonempty : bytes ≠ [] := by
      rintro rfl
      cases invalid
    exact ⟨nonempty, maximalSubpart_of_invalid invalid⟩
  · rintro ⟨nonempty, noChar, part⟩
    obtain ⟨d, read⟩ := Option.isSome_iff_exists.mp (decodeChar_isSome nonempty)
    cases d with
    | char c w =>
      obtain ⟨-, t, rfl⟩ := decodeChar_eq_char read
      exact absurd (List.prefix_append _ _) (noChar c)
    | invalid k' =>
      rw [read, part.unique (maximalSubpart_of_invalid read).2]

theorem decodeAll_of_decodeChar {bytes : List UInt8} {d : Decoded} (read : decodeChar bytes = some d) :
    decodeAll bytes = d :: decodeAll (bytes.drop d.size) := by
  rw [decodeAll]
  split
  · rename_i none
    rw [read] at none
    cases none
  · rename_i d' read'
    rw [read] at read'
    cases read'
    rfl

theorem decodeChar_eq_none_iff {bytes : List UInt8} : decodeChar bytes = none ↔ bytes = [] := by
  constructor
  · intro none
    by_contra nonempty
    simpa [none] using decodeChar_isSome nonempty
  · rintro rfl
    rfl

theorem drop_utf8EncodeChar (c : Char) (t : List UInt8) :
    (String.utf8EncodeChar c ++ t).drop c.utf8Size = t := by
  rw [← String.length_utf8EncodeChar, List.drop_left]

theorem lossyText_lossy (bytes : List UInt8) : LossyText bytes (lossy bytes).toList := by
  rw [lossy, String.toList_ofList]
  fun_induction decodeAll bytes with
  | case1 bytes none =>
    rw [decodeChar_eq_none_iff.mp none]
    exact .nil
  | case2 bytes d read ih =>
    cases d with
    | char c w =>
      obtain ⟨rfl, t, rfl⟩ := decodeChar_eq_char read
      rw [Decoded.size, drop_utf8EncodeChar] at ih ⊢
      exact .char ih
    | invalid k =>
      obtain ⟨nonempty, noChar, part⟩ := decodeChar_eq_invalid_iff.mp read
      exact .replaced nonempty noChar part ih

theorem LossyText.eq_lossy {bytes : List UInt8} {chars : List Char} (reading : LossyText bytes chars) :
    chars = (lossy bytes).toList := by
  rw [lossy, String.toList_ofList]
  induction reading with
  | nil => simp [decodeAll, decodeChar]
  | @char c rest chars _ ih =>
    rw [decodeAll_of_decodeChar (decodeChar_utf8EncodeChar c rest), List.map_cons, Decoded.size,
      drop_utf8EncodeChar, ← ih]
    rfl
  | replaced nonempty noChar part _ ih =>
    rw [decodeAll_of_decodeChar (decodeChar_eq_invalid_iff.mpr ⟨nonempty, noChar, part⟩), List.map_cons,
      Decoded.size, ← ih]
    rfl

/-- What the decoder reads off the front of bytes. No bytes hold nothing. A character is read
exactly where its encoding, a well-formed sequence of Table 3-7, stands, over as many bytes as it
has. Anywhere else the bytes hold a bad stretch whose length is the maximal subpart at the front,
between one and three bytes and no more than there are. Reading stretch after stretch and writing
U+FFFD for each bad one, as `lossy` does, is the lossy reading of the bytes, the only one. -/
theorem decodeChar_spec (bytes : List UInt8) :
    (decodeChar bytes = none ↔ bytes = []) ∧
    (∀ c w, decodeChar bytes = some (.char c w) ↔
      w = c.utf8Size ∧ ∃ t, bytes = String.utf8EncodeChar c ++ t) ∧
    (∀ k, decodeChar bytes = some (.invalid k) ↔
      bytes ≠ [] ∧ (∀ c : Char, ¬ String.utf8EncodeChar c <+: bytes) ∧ MaximalSubpart bytes k) ∧
    (∀ k, decodeChar bytes = some (.invalid k) → 1 ≤ k ∧ k ≤ min 3 bytes.length) ∧
    (∀ chars, LossyText bytes chars ↔ chars = (lossy bytes).toList) := by
  refine ⟨decodeChar_eq_none_iff, fun c w => decodeChar_eq_char_iff, fun k => decodeChar_eq_invalid_iff,
    fun k invalid => ?_, fun chars => ⟨LossyText.eq_lossy, fun same => same ▸ lossyText_lossy bytes⟩⟩
  obtain ⟨-, noChar, part⟩ := decodeChar_eq_invalid_iff.mp invalid
  have three := part.le_three noChar
  have within := part.le_length
  exact ⟨part.pos, by omega⟩

example : decodeChar [0xE0, 0x80, 0x80] = some (.invalid 1) := by decide
example : decodeChar [0xF0, 0x90, 0x80] = some (.invalid 3) := by decide

end Utf8

end DocExamples
