namespace DocExamples

/-- What the front of a byte string holds: a character with its encoded width, or a stretch of
`size` bytes that is no character. -/
inductive Decoded where
  | char (c : Char) (width : Nat)
  | invalid (size : Nat)
  deriving Repr, DecidableEq

namespace Decoded

/-- The number of bytes the decoded item covers. -/
def size : Decoded → Nat
  | .char _ width => width
  | .invalid size => size

/-- The character read, with U+FFFD standing for a stretch that is no character. -/
def toChar : Decoded → Char
  | .char c _ => c
  | .invalid _ => '�'

end Decoded

namespace Utf8

/-- The number of continuation bytes a lead byte asks for, with the range allowed for the first
of them; `none` when the byte cannot begin a character of two or more bytes. The narrowed ranges
after `E0`, `ED`, `F0` and `F4` rule out overlong forms, surrogates and values above U+10FFFF. -/
def leadShape (lead : UInt8) : Option (Nat × UInt8 × UInt8) :=
  if 0xC2 ≤ lead ∧ lead ≤ 0xDF then some (1, 0x80, 0xBF)
  else if lead = 0xE0 then some (2, 0xA0, 0xBF)
  else if lead = 0xED then some (2, 0x80, 0x9F)
  else if 0xE1 ≤ lead ∧ lead ≤ 0xEF then some (2, 0x80, 0xBF)
  else if lead = 0xF0 then some (3, 0x90, 0xBF)
  else if lead = 0xF4 then some (3, 0x80, 0x8F)
  else if 0xF1 ≤ lead ∧ lead ≤ 0xF3 then some (3, 0x80, 0xBF)
  else none

/-- Reads `count` continuation bytes, the first within `lo..hi` and the others within
`0x80..0xBF`, shifting their six payload bits into `acc`. On failure it gives the number of
good continuation bytes before the first one that is missing or out of range. -/
def continuation : (count : Nat) → (lo hi : UInt8) → (acc : Nat) → List UInt8 → Except Nat Nat
  | 0, _, _, acc, _ => .ok acc
  | _ + 1, _, _, _, [] => .error 0
  | count + 1, lo, hi, acc, b :: rest =>
    if lo ≤ b ∧ b ≤ hi then
      match continuation count 0x80 0xBF (acc * 64 + (b.toNat - 0x80)) rest with
      | .ok value => .ok value
      | .error good => .error (good + 1)
    else .error 0

/-- Reads the first character of `bytes`; `none` for no bytes. A bad or cut-off sequence is
`invalid k`, where `k` is one more than the number of good continuation bytes after its lead. -/
def decodeChar : List UInt8 → Option Decoded
  | [] => none
  | lead :: rest =>
    if lead < 0x80 then some (.char (Char.ofNat lead.toNat) 1)
    else
      match leadShape lead with
      | none => some (.invalid 1)
      | some (count, lo, hi) =>
        match continuation count lo hi (lead.toNat % Nat.pow 2 (6 - count)) rest with
        | .ok code => some (.char (Char.ofNat code) (count + 1))
        | .error good => some (.invalid (good + 1))

theorem continuation_error_lt {count : Nat} {lo hi : UInt8} {acc : Nat} {bytes : List UInt8}
    {good : Nat} (h : continuation count lo hi acc bytes = .error good) : good < count := by
  induction count generalizing lo hi acc bytes good with
  | zero => simp [continuation] at h
  | succ count ih =>
    cases bytes with
    | nil =>
      simp only [continuation, Except.error.injEq] at h
      omega
    | cons b rest =>
      simp only [continuation] at h
      split at h
      · split at h
        · simp at h
        · rename_i inner
          simp only [Except.error.injEq] at h
          have := ih inner
          omega
      · simp only [Except.error.injEq] at h
        omega

theorem decodeChar_size_pos {bytes : List UInt8} {d : Decoded} (h : decodeChar bytes = some d) :
    0 < d.size := by
  cases bytes with
  | nil => simp [decodeChar] at h
  | cons lead rest =>
    simp only [decodeChar] at h
    split at h
    · cases h; simp [Decoded.size]
    · split at h
      · cases h; simp [Decoded.size]
      · split at h
        · cases h; simp [Decoded.size]
        · cases h; simp [Decoded.size]

/-- The items of `bytes` read one after another, each bad stretch as one item. -/
def decodeAll (bytes : List UInt8) : List Decoded :=
  match _decoded : decodeChar bytes with
  | none => []
  | some d => d :: decodeAll (bytes.drop d.size)
termination_by bytes.length
decreasing_by
  have pos := decodeChar_size_pos _decoded
  have nonempty : bytes ≠ [] := by
    intro empty
    simp [empty, decodeChar] at _decoded
  have : 0 < bytes.length := List.length_pos_iff.mpr nonempty
  simp only [List.length_drop]
  omega

/-- The text of `bytes`, with U+FFFD for each stretch that is no character. -/
def lossy (bytes : List UInt8) : String :=
  String.ofList ((decodeAll bytes).map Decoded.toChar)

/-- Whether `bytes` are well-formed UTF-8 throughout. -/
def isValid (bytes : List UInt8) : Bool :=
  (decodeAll bytes).all fun
    | .char _ _ => true
    | .invalid _ => false

/-- The UTF-8 bytes of a string. -/
def encode (s : String) : List UInt8 :=
  s.toUTF8.toList

end Utf8

end DocExamples
