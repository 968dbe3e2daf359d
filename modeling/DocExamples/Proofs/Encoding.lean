import Mathlib
import DocExamples.Text.Utf8
import DocExamples.Text.AsciiSet

namespace DocExamples

theorem byteArray_toList_loop (bytes : ByteArray) (i : Nat) (reversed : List UInt8) :
    ByteArray.toList.loop bytes i reversed = reversed.reverse ++ bytes.data.toList.drop i := by
  fun_induction ByteArray.toList.loop bytes i reversed with
  | case1 i reversed inside ih =>
    have within : i < bytes.data.toList.length := by simpa using inside
    rw [ih, List.reverse_cons, List.append_assoc, List.singleton_append,
      List.drop_eq_getElem_cons within]
    congr 2
    simp [ByteArray.get!, inside]
  | case2 i reversed outside =>
    have empty : bytes.data.toList.drop i = [] :=
      List.drop_eq_nil_of_le (by simpa using Nat.le_of_not_lt outside)
    simp [empty]

namespace Utf8

/-- The bytes of a string are the encodings of its characters, one after another. -/
theorem encode_eq_flatMap (s : String) : encode s = s.toList.flatMap String.utf8EncodeChar := by
  rw [encode, String.toUTF8_eq_toByteArray, ← String.utf8Encode_toList, List.utf8Encode,
    ByteArray.toList, byteArray_toList_loop, List.toList_data_toByteArray]
  simp

@[simp] theorem encode_empty : encode "" = [] := by
  simp [encode_eq_flatMap]

@[simp] theorem encode_append (s t : String) : encode (s ++ t) = encode s ++ encode t := by
  simp [encode_eq_flatMap]

@[simp] theorem encode_ofList (chars : List Char) :
    encode (String.ofList chars) = chars.flatMap String.utf8EncodeChar := by
  simp [encode_eq_flatMap]

@[simp] theorem encode_push (s : String) (c : Char) :
    encode (s.push c) = encode s ++ String.utf8EncodeChar c := by
  simp [encode_eq_flatMap]

@[simp] theorem encode_join (parts : List String) :
    encode (String.join parts) = parts.flatMap encode := by
  induction parts with
  | nil => simp [encode_eq_flatMap]
  | cons part rest ih => simp [String.join_cons, ih]

theorem utf8EncodeChar_ne_nil (c : Char) : String.utf8EncodeChar c ≠ [] := by
  intro empty
  have length := String.length_utf8EncodeChar c
  rw [empty, List.length_nil] at length
  have := c.utf8Size_pos
  omega

theorem encode_ne_nil {s : String} (nonempty : s ≠ "") : encode s ≠ [] := by
  obtain ⟨c, chars, listed⟩ : ∃ c chars, s.toList = c :: chars := by
    cases h : s.toList with
    | nil => exact absurd (String.toList_eq_nil_iff.mp h) nonempty
    | cons c chars => exact ⟨c, chars, rfl⟩
  rw [encode_eq_flatMap, listed, List.flatMap_cons]
  exact List.append_ne_nil_of_left_ne_nil (utf8EncodeChar_ne_nil c) _

theorem byte_toNat {n : Nat} (small : n < 256) : (UInt8.ofNat n).toNat = n := by
  rw [UInt8.toNat_ofNat']
  omega

theorem utf8EncodeChar_of_ascii {c : Char} (ascii : c.toNat < 128) :
    String.utf8EncodeChar c = [UInt8.ofNat c.toNat] := by
  have toNat : c.val.toNat = c.toNat := rfl
  have small : c.toNat ≤ 0x7F := by omega
  simp [String.utf8EncodeChar, toNat, small]

/-- Every byte of the encoding of a character from 128 up is itself from 128 up, so a byte
below 128 in an encoded text always stands for a character of its own. -/
theorem utf8EncodeChar_wide {c : Char} (wide : 128 ≤ c.toNat) {b : UInt8}
    (member : b ∈ String.utf8EncodeChar c) : 128 ≤ b.toNat := by
  have valid : c.toNat < 0x110000 := by have := c.valid; simp only [Char.toNat] at *; omega
  have toNat : c.val.toNat = c.toNat := rfl
  have notOne : ¬ c.val.toNat ≤ 0x7F := by omega
  simp only [String.utf8EncodeChar, toNat] at member
  split at member
  · omega
  · split at member
    · simp only [List.mem_cons, List.not_mem_nil, or_false] at member
      rcases member with rfl | rfl <;> rw [byte_toNat (by omega)] <;> omega
    · split at member
      · simp only [List.mem_cons, List.not_mem_nil, or_false] at member
        rcases member with rfl | rfl | rfl <;> rw [byte_toNat (by omega)] <;> omega
      · simp only [List.mem_cons, List.not_mem_nil, or_false] at member
        rcases member with rfl | rfl | rfl | rfl <;> rw [byte_toNat (by omega)] <;> omega

theorem ascii_of_mem_utf8EncodeChar {c : Char} {b : UInt8} (member : b ∈ String.utf8EncodeChar c)
    (ascii : b.toNat < 128) : c.toNat = b.toNat := by
  by_cases narrow : c.toNat < 128
  · rw [utf8EncodeChar_of_ascii narrow, List.mem_singleton] at member
    rw [member, byte_toNat (by omega)]
  · have := utf8EncodeChar_wide (Nat.le_of_not_lt narrow) member
    omega

theorem ascii_mem_encode {s : String} {b : UInt8} (ascii : b.toNat < 128) :
    b ∈ encode s ↔ ∃ c ∈ s.toList, c.toNat = b.toNat := by
  rw [encode_eq_flatMap, List.mem_flatMap]
  constructor
  · rintro ⟨c, member, inside⟩
    exact ⟨c, member, ascii_of_mem_utf8EncodeChar inside ascii⟩
  · rintro ⟨c, member, code⟩
    refine ⟨c, member, ?_⟩
    rw [utf8EncodeChar_of_ascii (code ▸ ascii), List.mem_singleton, code]
    exact (UInt8.ofNat_toNat).symm

theorem leadShape_two {lead : UInt8} (lo : 0xC2 ≤ lead.toNat) (hi : lead.toNat ≤ 0xDF) :
    leadShape lead = some (1, 0x80, 0xBF) := by
  simp [leadShape, UInt8.le_iff_toNat_le, lo, hi]

theorem leadShape_three {lead : UInt8} (lo : 0xE0 ≤ lead.toNat) (hi : lead.toNat ≤ 0xEF) :
    leadShape lead = some (2, if lead.toNat = 0xE0 then 0xA0 else 0x80,
      if lead.toNat = 0xED then 0x9F else 0xBF) := by
  simp only [leadShape, UInt8.le_iff_toNat_le, ← UInt8.toNat_inj, UInt8.reduceToNat]
  split_ifs <;> simp_all <;> omega

theorem leadShape_four {lead : UInt8} (lo : 0xF0 ≤ lead.toNat) (hi : lead.toNat ≤ 0xF4) :
    leadShape lead = some (3, if lead.toNat = 0xF0 then 0x90 else 0x80,
      if lead.toNat = 0xF4 then 0x8F else 0xBF) := by
  simp only [leadShape, UInt8.le_iff_toNat_le, ← UInt8.toNat_inj, UInt8.reduceToNat]
  split_ifs <;> simp_all <;> omega

theorem continuation_cons {count : Nat} {lo hi b : UInt8} {acc value : Nat} {rest : List UInt8}
    (inRange : lo.toNat ≤ b.toNat ∧ b.toNat ≤ hi.toNat)
    (tail : continuation count 0x80 0xBF (acc * 64 + (b.toNat - 0x80)) rest = .ok value) :
    continuation (count + 1) lo hi acc (b :: rest) = .ok value := by
  simp [continuation, UInt8.le_iff_toNat_le, inRange, tail]

theorem decodeChar_lead {lead : UInt8} {rest : List UInt8} {count : Nat} {lo hi : UInt8}
    {code : Nat} (notAscii : 0x80 ≤ lead.toNat) (shape : leadShape lead = some (count, lo, hi))
    (tail : continuation count lo hi (lead.toNat % 2 ^ (6 - count)) rest = .ok code) :
    decodeChar (lead :: rest) = some (.char (Char.ofNat code) (count + 1)) := by
  have wide : ¬ lead < 0x80 := by simp only [UInt8.lt_iff_toNat_lt, UInt8.reduceToNat]; omega
  simp [decodeChar, wide, shape, tail]

section Explicit

variable {c : Char}

theorem utf8Size_of_toNat : c.utf8Size =
    if c.toNat ≤ 0x7F then 1 else if c.toNat ≤ 0x7FF then 2 else if c.toNat ≤ 0xFFFF then 3 else 4 := by
  have toNat : c.val.toNat = c.toNat := rfl
  simp [Char.utf8Size, UInt32.le_iff_toNat_le, toNat]

theorem utf8EncodeChar_two (one : ¬ c.toNat ≤ 0x7F) (two : c.toNat ≤ 0x7FF) :
    String.utf8EncodeChar c =
      [UInt8.ofNat (c.toNat / 64 % 32 + 0xC0), UInt8.ofNat (c.toNat % 64 + 0x80)] := by
  have toNat : c.val.toNat = c.toNat := rfl
  simp [String.utf8EncodeChar, toNat, one, two]

theorem utf8EncodeChar_three (two : ¬ c.toNat ≤ 0x7FF) (three : c.toNat ≤ 0xFFFF) :
    String.utf8EncodeChar c =
      [UInt8.ofNat (c.toNat / 4096 % 16 + 0xE0), UInt8.ofNat (c.toNat / 64 % 64 + 0x80),
        UInt8.ofNat (c.toNat % 64 + 0x80)] := by
  have toNat : c.val.toNat = c.toNat := rfl
  have one : ¬ c.toNat ≤ 0x7F := by omega
  simp [String.utf8EncodeChar, toNat, one, two, three]

theorem utf8EncodeChar_four (three : ¬ c.toNat ≤ 0xFFFF) :
    String.utf8EncodeChar c =
      [UInt8.ofNat (c.toNat / 262144 % 8 + 0xF0), UInt8.ofNat (c.toNat / 4096 % 64 + 0x80),
        UInt8.ofNat (c.toNat / 64 % 64 + 0x80), UInt8.ofNat (c.toNat % 64 + 0x80)] := by
  have toNat : c.val.toNat = c.toNat := rfl
  have one : ¬ c.toNat ≤ 0x7F := by omega
  have two : ¬ c.toNat ≤ 0x7FF := by omega
  simp [String.utf8EncodeChar, toNat, one, two, three]

end Explicit

section Widths

variable (c : Char) (rest : List UInt8)

theorem decodeChar_encode_one (one : c.toNat ≤ 0x7F) :
    decodeChar (String.utf8EncodeChar c ++ rest) = some (.char c c.utf8Size) := by
  have size : c.utf8Size = 1 := by simp [utf8Size_of_toNat, one]
  have narrow : UInt8.ofNat c.toNat < 0x80 := by
    simp only [UInt8.lt_iff_toNat_lt, byte_toNat (show c.toNat < 256 by omega)]
    simp only [UInt8.reduceToNat]
    omega
  rw [utf8EncodeChar_of_ascii (by omega), size]
  simp [decodeChar, narrow, byte_toNat (show c.toNat < 256 by omega)]

theorem decodeChar_encode_two (one : ¬ c.toNat ≤ 0x7F) (two : c.toNat ≤ 0x7FF) :
    decodeChar (String.utf8EncodeChar c ++ rest) = some (.char c c.utf8Size) := by
  have enc := utf8EncodeChar_two one two
  have size : c.utf8Size = 2 := by simp [utf8Size_of_toNat, one, two]
  have lead := byte_toNat (show c.toNat / 64 % 32 + 0xC0 < 256 by omega)
  have last := byte_toNat (show c.toNat % 64 + 0x80 < 256 by omega)
  have shape : leadShape (UInt8.ofNat (c.toNat / 64 % 32 + 0xC0)) = some (1, 0x80, 0xBF) :=
    leadShape_two (by omega) (by omega)
  have tail : continuation 1 0x80 0xBF
      ((UInt8.ofNat (c.toNat / 64 % 32 + 0xC0)).toNat % 2 ^ (6 - 1))
      (UInt8.ofNat (c.toNat % 64 + 0x80) :: rest) = .ok c.toNat := by
    refine continuation_cons (by simp only [last, UInt8.reduceToNat]; omega) ?_
    simp only [continuation, lead, last, Except.ok.injEq]
    omega
  rw [enc, size, List.cons_append, List.cons_append, List.nil_append,
    decodeChar_lead (by omega) shape tail, Char.ofNat_toNat]

theorem decodeChar_encode_three (two : ¬ c.toNat ≤ 0x7FF) (three : c.toNat ≤ 0xFFFF) :
    decodeChar (String.utf8EncodeChar c ++ rest) = some (.char c c.utf8Size) := by
  have valid : c.toNat < 0xD800 ∨ 0xDFFF < c.toNat ∧ c.toNat < 0x110000 := c.valid
  have one : ¬ c.toNat ≤ 0x7F := by omega
  have enc := utf8EncodeChar_three two three
  have size : c.utf8Size = 3 := by simp [utf8Size_of_toNat, one, two, three]
  have lead := byte_toNat (show c.toNat / 4096 % 16 + 0xE0 < 256 by omega)
  have middle := byte_toNat (show c.toNat / 64 % 64 + 0x80 < 256 by omega)
  have last := byte_toNat (show c.toNat % 64 + 0x80 < 256 by omega)
  have shape := leadShape_three (lead.symm ▸ (by omega : 0xE0 ≤ c.toNat / 4096 % 16 + 0xE0))
    (lead.symm ▸ (by omega : c.toNat / 4096 % 16 + 0xE0 ≤ 0xEF))
  have tail : continuation 2
      (if (UInt8.ofNat (c.toNat / 4096 % 16 + 0xE0)).toNat = 0xE0 then 0xA0 else 0x80)
      (if (UInt8.ofNat (c.toNat / 4096 % 16 + 0xE0)).toNat = 0xED then 0x9F else 0xBF)
      ((UInt8.ofNat (c.toNat / 4096 % 16 + 0xE0)).toNat % 2 ^ (6 - 2))
      (UInt8.ofNat (c.toNat / 64 % 64 + 0x80) :: UInt8.ofNat (c.toNat % 64 + 0x80) :: rest) =
      .ok c.toNat := by
    refine continuation_cons ?_
      (continuation_cons (by simp only [last, UInt8.reduceToNat]; omega) ?_)
    · rw [middle, lead]
      constructor <;> split <;> simp <;> omega
    · simp only [continuation, lead, middle, last, Except.ok.injEq]
      omega
  rw [enc, size, List.cons_append, List.cons_append, List.cons_append, List.nil_append,
    decodeChar_lead (by omega) shape tail, Char.ofNat_toNat]

theorem decodeChar_encode_four (three : ¬ c.toNat ≤ 0xFFFF) :
    decodeChar (String.utf8EncodeChar c ++ rest) = some (.char c c.utf8Size) := by
  have valid : c.toNat < 0xD800 ∨ 0xDFFF < c.toNat ∧ c.toNat < 0x110000 := c.valid
  have one : ¬ c.toNat ≤ 0x7F := by omega
  have two : ¬ c.toNat ≤ 0x7FF := by omega
  have enc := utf8EncodeChar_four three
  have size : c.utf8Size = 4 := by simp [utf8Size_of_toNat, one, two, three]
  have lead := byte_toNat (show c.toNat / 262144 % 8 + 0xF0 < 256 by omega)
  have second := byte_toNat (show c.toNat / 4096 % 64 + 0x80 < 256 by omega)
  have third := byte_toNat (show c.toNat / 64 % 64 + 0x80 < 256 by omega)
  have last := byte_toNat (show c.toNat % 64 + 0x80 < 256 by omega)
  have shape := leadShape_four (lead.symm ▸ (by omega : 0xF0 ≤ c.toNat / 262144 % 8 + 0xF0))
    (lead.symm ▸ (by omega : c.toNat / 262144 % 8 + 0xF0 ≤ 0xF4))
  have tail : continuation 3
      (if (UInt8.ofNat (c.toNat / 262144 % 8 + 0xF0)).toNat = 0xF0 then 0x90 else 0x80)
      (if (UInt8.ofNat (c.toNat / 262144 % 8 + 0xF0)).toNat = 0xF4 then 0x8F else 0xBF)
      ((UInt8.ofNat (c.toNat / 262144 % 8 + 0xF0)).toNat % 2 ^ (6 - 3))
      (UInt8.ofNat (c.toNat / 4096 % 64 + 0x80) :: UInt8.ofNat (c.toNat / 64 % 64 + 0x80) ::
        UInt8.ofNat (c.toNat % 64 + 0x80) :: rest) = .ok c.toNat := by
    refine continuation_cons ?_
      (continuation_cons (by simp only [third, UInt8.reduceToNat]; omega)
        (continuation_cons (by simp only [last, UInt8.reduceToNat]; omega) ?_))
    · rw [second, lead]
      constructor <;> split <;> simp <;> omega
    · simp only [continuation, lead, second, third, last, Except.ok.injEq]
      omega
  rw [enc, size, List.cons_append, List.cons_append, List.cons_append, List.cons_append,
    List.nil_append, decodeChar_lead (by omega) shape tail, Char.ofNat_toNat]

end Widths

/-- Decoding the encoding of a character reads that character back, over as many bytes as the
encoding has, whatever follows it. -/
theorem decodeChar_utf8EncodeChar (c : Char) (rest : List UInt8) :
    decodeChar (String.utf8EncodeChar c ++ rest) = some (.char c c.utf8Size) := by
  by_cases one : c.toNat ≤ 0x7F
  · exact decodeChar_encode_one c rest one
  by_cases two : c.toNat ≤ 0x7FF
  · exact decodeChar_encode_two c rest one two
  by_cases three : c.toNat ≤ 0xFFFF
  · exact decodeChar_encode_three c rest two three
  · exact decodeChar_encode_four c rest three

theorem toNat_ofNat {n : Nat} (valid : n < 0xD800 ∨ 0xDFFF < n ∧ n < 0x110000) :
    (Char.ofNat n).toNat = n := by
  rw [Char.ofNat, dif_pos valid]
  rfl

theorem byte_eq (b : UInt8) {n : Nat} (same : n = b.toNat) : UInt8.ofNat n = b := by
  rw [same, UInt8.ofNat_toNat]

theorem continuation_ok_succ {count : Nat} {lo hi b : UInt8} {acc value : Nat} {rest : List UInt8} :
    continuation (count + 1) lo hi acc (b :: rest) = .ok value ↔
      (lo.toNat ≤ b.toNat ∧ b.toNat ≤ hi.toNat) ∧
        continuation count 0x80 0xBF (acc * 64 + (b.toNat - 0x80)) rest = .ok value := by
  simp only [continuation, UInt8.le_iff_toNat_le]
  split
  · rename_i inRange
    simp only [inRange, true_and]
    split <;> simp_all
  · simp_all

theorem continuation_length {count : Nat} {lo hi : UInt8} {acc value : Nat} {bytes : List UInt8}
    (h : continuation count lo hi acc bytes = .ok value) : count ≤ bytes.length := by
  induction count generalizing lo hi acc bytes with
  | zero => omega
  | succ count ih =>
    cases bytes with
    | nil => simp [continuation] at h
    | cons b rest =>
      have := ih (continuation_ok_succ.mp h).2
      simp only [List.length_cons]
      omega

theorem leadShape_none {lead : UInt8}
    (outside : lead.toNat < 0xC2 ∨ 0xF4 < lead.toNat) : leadShape lead = none := by
  simp only [leadShape, UInt8.le_iff_toNat_le, ← UInt8.toNat_inj, UInt8.reduceToNat]
  rw [if_neg (by omega), if_neg (by omega), if_neg (by omega), if_neg (by omega), if_neg (by omega),
    if_neg (by omega), if_neg (by omega)]

theorem decodeChar_wide {lead : UInt8} {rest : List UInt8} {c : Char} {w : Nat}
    (notAscii : 0x80 ≤ lead.toNat) (h : decodeChar (lead :: rest) = some (.char c w)) :
    ∃ count lo hi code, leadShape lead = some (count, lo, hi) ∧
      continuation count lo hi (lead.toNat % 2 ^ (6 - count)) rest = .ok code ∧
      c = Char.ofNat code ∧ w = count + 1 := by
  have wide : ¬ lead < 0x80 := by simp only [UInt8.lt_iff_toNat_lt, UInt8.reduceToNat]; omega
  simp only [decodeChar, wide, if_false] at h
  split at h
  · cases h
  · rename_i count lo hi shape
    split at h
    · rename_i code tail
      cases h
      exact ⟨count, lo, hi, code, shape, tail, rfl, rfl⟩
    · cases h

section Codes

variable {lead : UInt8} {rest : List UInt8} {code : Nat}

theorem char_of_continuation_two (lo : 0xC2 ≤ lead.toNat) (hi : lead.toNat ≤ 0xDF)
    (tail : continuation 1 0x80 0xBF (lead.toNat % 2 ^ (6 - 1)) rest = .ok code) :
    (Char.ofNat code).utf8Size = 2 ∧ ∃ t, lead :: rest = String.utf8EncodeChar (Char.ofNat code) ++ t := by
  match rest, tail, continuation_length tail with
  | b1 :: t, tail, _ =>
    obtain ⟨range1, last⟩ := continuation_ok_succ.mp tail
    simp only [continuation, Except.ok.injEq, Nat.reduceSub, Nat.reducePow] at last
    simp only [UInt8.reduceToNat] at range1
    have toNat := toNat_ofNat (show code < 0xD800 ∨ 0xDFFF < code ∧ code < 0x110000 by omega)
    have one : ¬ (Char.ofNat code).toNat ≤ 0x7F := by omega
    have two : (Char.ofNat code).toNat ≤ 0x7FF := by omega
    refine ⟨by simp [utf8Size_of_toNat, one, two], t, ?_⟩
    rw [utf8EncodeChar_two one two, toNat]
    simp only [List.cons_append, List.nil_append, List.cons.injEq, and_true]
    exact ⟨(byte_eq lead (by omega)).symm, (byte_eq b1 (by omega)).symm⟩

theorem char_of_continuation_three (lo : 0xE0 ≤ lead.toNat) (hi : lead.toNat ≤ 0xEF)
    (tail : continuation 2 (if lead.toNat = 0xE0 then 0xA0 else 0x80)
      (if lead.toNat = 0xED then 0x9F else 0xBF) (lead.toNat % 2 ^ (6 - 2)) rest = .ok code) :
    (Char.ofNat code).utf8Size = 3 ∧ ∃ t, lead :: rest = String.utf8EncodeChar (Char.ofNat code) ++ t := by
  match rest, tail, continuation_length tail with
  | b1 :: b2 :: t, tail, _ =>
    obtain ⟨range1, tail⟩ := continuation_ok_succ.mp tail
    obtain ⟨range2, last⟩ := continuation_ok_succ.mp tail
    simp only [continuation, Except.ok.injEq, Nat.reduceSub, Nat.reducePow] at last
    simp only [apply_ite UInt8.toNat, UInt8.reduceToNat] at range1 range2
    have low : lead.toNat = 0xE0 → 0xA0 ≤ b1.toNat := by split_ifs at range1 <;> omega
    have high : lead.toNat = 0xED → b1.toNat ≤ 0x9F := by split_ifs at range1 <;> omega
    have tail1 : 0x80 ≤ b1.toNat ∧ b1.toNat ≤ 0xBF := by split_ifs at range1 <;> omega
    have toNat := toNat_ofNat (show code < 0xD800 ∨ 0xDFFF < code ∧ code < 0x110000 by omega)
    have two : ¬ (Char.ofNat code).toNat ≤ 0x7FF := by omega
    have three : (Char.ofNat code).toNat ≤ 0xFFFF := by omega
    refine ⟨by simp [utf8Size_of_toNat, two, three, show ¬ (Char.ofNat code).toNat ≤ 0x7F by omega],
      t, ?_⟩
    rw [utf8EncodeChar_three two three, toNat]
    simp only [List.cons_append, List.nil_append, List.cons.injEq, and_true]
    exact ⟨(byte_eq lead (by omega)).symm, (byte_eq b1 (by omega)).symm,
      (byte_eq b2 (by omega)).symm⟩

theorem char_of_continuation_four (lo : 0xF0 ≤ lead.toNat) (hi : lead.toNat ≤ 0xF4)
    (tail : continuation 3 (if lead.toNat = 0xF0 then 0x90 else 0x80)
      (if lead.toNat = 0xF4 then 0x8F else 0xBF) (lead.toNat % 2 ^ (6 - 3)) rest = .ok code) :
    (Char.ofNat code).utf8Size = 4 ∧ ∃ t, lead :: rest = String.utf8EncodeChar (Char.ofNat code) ++ t := by
  match rest, tail, continuation_length tail with
  | b1 :: b2 :: b3 :: t, tail, _ =>
    obtain ⟨range1, tail⟩ := continuation_ok_succ.mp tail
    obtain ⟨range2, tail⟩ := continuation_ok_succ.mp tail
    obtain ⟨range3, last⟩ := continuation_ok_succ.mp tail
    simp only [continuation, Except.ok.injEq, Nat.reduceSub, Nat.reducePow] at last
    simp only [apply_ite UInt8.toNat, UInt8.reduceToNat] at range1 range2 range3
    have low : lead.toNat = 0xF0 → 0x90 ≤ b1.toNat := by split_ifs at range1 <;> omega
    have high : lead.toNat = 0xF4 → b1.toNat ≤ 0x8F := by split_ifs at range1 <;> omega
    have tail1 : 0x80 ≤ b1.toNat ∧ b1.toNat ≤ 0xBF := by split_ifs at range1 <;> omega
    have toNat := toNat_ofNat (show code < 0xD800 ∨ 0xDFFF < code ∧ code < 0x110000 by omega)
    have three : ¬ (Char.ofNat code).toNat ≤ 0xFFFF := by omega
    refine ⟨by simp [utf8Size_of_toNat, three, show ¬ (Char.ofNat code).toNat ≤ 0x7F by omega,
      show ¬ (Char.ofNat code).toNat ≤ 0x7FF by omega], t, ?_⟩
    rw [utf8EncodeChar_four three, toNat]
    simp only [List.cons_append, List.nil_append, List.cons.injEq, and_true]
    exact ⟨(byte_eq lead (by omega)).symm, (byte_eq b1 (by omega)).symm,
      (byte_eq b2 (by omega)).symm, (byte_eq b3 (by omega)).symm⟩

end Codes

/-- Whatever the decoder reads as a character is the encoding of that character, over as many
bytes as the encoding has. The lead byte's range says which width it reads. -/
theorem decodeChar_eq_char {bytes : List UInt8} {c : Char} {w : Nat}
    (h : decodeChar bytes = some (.char c w)) :
    w = c.utf8Size ∧ ∃ t, bytes = String.utf8EncodeChar c ++ t := by
  cases bytes with
  | nil => simp [decodeChar] at h
  | cons lead rest =>
    by_cases ascii : lead.toNat < 0x80
    · have narrow : lead < 0x80 := by simp only [UInt8.lt_iff_toNat_lt, UInt8.reduceToNat]; omega
      simp only [decodeChar, narrow, if_true, Option.some.injEq, Decoded.char.injEq] at h
      obtain ⟨rfl, rfl⟩ := h
      have toNat := toNat_ofNat
        (show lead.toNat < 0xD800 ∨ 0xDFFF < lead.toNat ∧ lead.toNat < 0x110000 by omega)
      refine ⟨by simp [utf8Size_of_toNat, toNat]; omega, rest, ?_⟩
      rw [utf8EncodeChar_of_ascii (by omega), toNat, UInt8.ofNat_toNat]
      rfl
    obtain ⟨count, lo, hi, code, shape, tail, rfl, rfl⟩ := decodeChar_wide (by omega) h
    by_cases two : 0xC2 ≤ lead.toNat ∧ lead.toNat ≤ 0xDF
    · rw [leadShape_two two.1 two.2] at shape
      simp only [Option.some.injEq, Prod.mk.injEq] at shape
      obtain ⟨rfl, rfl, rfl⟩ := shape
      obtain ⟨size, t, enc⟩ := char_of_continuation_two two.1 two.2 tail
      exact ⟨size.symm, t, enc⟩
    by_cases three : 0xE0 ≤ lead.toNat ∧ lead.toNat ≤ 0xEF
    · rw [leadShape_three three.1 three.2] at shape
      simp only [Option.some.injEq, Prod.mk.injEq] at shape
      obtain ⟨rfl, rfl, rfl⟩ := shape
      obtain ⟨size, t, enc⟩ := char_of_continuation_three three.1 three.2 tail
      exact ⟨size.symm, t, enc⟩
    by_cases four : 0xF0 ≤ lead.toNat ∧ lead.toNat ≤ 0xF4
    · rw [leadShape_four four.1 four.2] at shape
      simp only [Option.some.injEq, Prod.mk.injEq] at shape
      obtain ⟨rfl, rfl, rfl⟩ := shape
      obtain ⟨size, t, enc⟩ := char_of_continuation_four four.1 four.2 tail
      exact ⟨size.symm, t, enc⟩
    rw [leadShape_none (by omega)] at shape
    cases shape

theorem decodeChar_eq_char_iff {bytes : List UInt8} {c : Char} {w : Nat} :
    decodeChar bytes = some (.char c w) ↔ w = c.utf8Size ∧ ∃ t, bytes = String.utf8EncodeChar c ++ t := by
  constructor
  · exact decodeChar_eq_char
  · rintro ⟨rfl, t, rfl⟩
    exact decodeChar_utf8EncodeChar c t

end Utf8

namespace AsciiSet

/-- A set meets the bytes of a text exactly when it holds one of the text's characters. -/
theorem any_contains_encode (set : AsciiSet) (s : String) :
    (Utf8.encode s).any set.contains = s.toList.any set.containsChar := by
  rw [Utf8.encode_eq_flatMap, List.any_flatMap]
  congr 1
  funext c
  by_cases ascii : c.toNat < 128
  · rw [Utf8.utf8EncodeChar_of_ascii ascii]
    simp [containsChar, contains, ascii, Utf8.byte_toNat (show c.toNat < 256 by omega),
      Nat.toUInt8]
  · have wide : ∀ b ∈ String.utf8EncodeChar c, set.contains b = false := by
      intro b member
      have := Utf8.utf8EncodeChar_wide (Nat.le_of_not_lt ascii) member
      simp [contains]
      omega
    simp only [containsChar, ascii, decide_false, Bool.false_and]
    exact List.any_eq_false.mpr fun b member => by simp [wide b member]

end AsciiSet

end DocExamples
