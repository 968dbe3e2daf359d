namespace DocExamples

namespace Width

/-- Ranges of characters that take no column: combining marks and invisible formatting. -/
def zeroRanges : List (Nat × Nat) :=
  [(0x0300, 0x036F), (0x0483, 0x0489), (0x0591, 0x05BD), (0x05BF, 0x05BF), (0x05C1, 0x05C2),
   (0x05C4, 0x05C5), (0x05C7, 0x05C7), (0x0610, 0x061A), (0x064B, 0x065F), (0x0670, 0x0670),
   (0x06D6, 0x06DC), (0x06DF, 0x06E4), (0x06E7, 0x06E8), (0x06EA, 0x06ED), (0x0E31, 0x0E31),
   (0x0E34, 0x0E3A), (0x0E47, 0x0E4E), (0x1AB0, 0x1AFF), (0x1DC0, 0x1DFF), (0x200B, 0x200F),
   (0x2060, 0x2064), (0x20D0, 0x20F0), (0xFE00, 0xFE0F), (0xFE20, 0xFE2F), (0xFEFF, 0xFEFF),
   (0xE0100, 0xE01EF)]

/-- Ranges of characters that take two columns: wide and full-width East Asian characters and
pictographs. -/
def wideRanges : List (Nat × Nat) :=
  [(0x1100, 0x115F), (0x231A, 0x231B), (0x2329, 0x232A), (0x23E9, 0x23EC), (0x23F0, 0x23F0),
   (0x23F3, 0x23F3), (0x25FD, 0x25FE), (0x2614, 0x2615), (0x2648, 0x2653), (0x267F, 0x267F),
   (0x2693, 0x2693), (0x26A1, 0x26A1), (0x26AA, 0x26AB), (0x26BD, 0x26BE), (0x26C4, 0x26C5),
   (0x26CE, 0x26CE), (0x26D4, 0x26D4), (0x26EA, 0x26EA), (0x26F2, 0x26F3), (0x26F5, 0x26F5),
   (0x26FA, 0x26FA), (0x26FD, 0x26FD), (0x2705, 0x2705), (0x270A, 0x270B), (0x2728, 0x2728),
   (0x274C, 0x274C), (0x274E, 0x274E), (0x2753, 0x2755), (0x2757, 0x2757), (0x2795, 0x2797),
   (0x27B0, 0x27B0), (0x27BF, 0x27BF), (0x2B1B, 0x2B1C), (0x2B50, 0x2B50), (0x2B55, 0x2B55),
   (0x2E80, 0x303E), (0x3041, 0x33FF), (0x3400, 0x4DBF), (0x4E00, 0x9FFF), (0xA000, 0xA4CF),
   (0xA960, 0xA97F), (0xAC00, 0xD7A3), (0xF900, 0xFAFF), (0xFE10, 0xFE19), (0xFE30, 0xFE6F),
   (0xFF00, 0xFF60), (0xFFE0, 0xFFE6), (0x16FE0, 0x16FE4), (0x17000, 0x18CFF),
   (0x1B000, 0x1B2FF), (0x1F004, 0x1F004), (0x1F0CF, 0x1F0CF), (0x1F18E, 0x1F18E),
   (0x1F191, 0x1F19A), (0x1F200, 0x1F251), (0x1F300, 0x1F320), (0x1F32D, 0x1F335),
   (0x1F337, 0x1F37C), (0x1F37E, 0x1F393), (0x1F3A0, 0x1F3CA), (0x1F3CF, 0x1F3D3),
   (0x1F3E0, 0x1F3F0), (0x1F3F4, 0x1F3F4), (0x1F3F8, 0x1F43E), (0x1F440, 0x1F440),
   (0x1F442, 0x1F4FC), (0x1F4FF, 0x1F53D), (0x1F54B, 0x1F54E), (0x1F550, 0x1F567),
   (0x1F57A, 0x1F57A), (0x1F595, 0x1F596), (0x1F5A4, 0x1F5A4), (0x1F5FB, 0x1F64F),
   (0x1F680, 0x1F6C5), (0x1F6CC, 0x1F6CC), (0x1F6D0, 0x1F6D2), (0x1F6D5, 0x1F6D7),
   (0x1F6EB, 0x1F6EC), (0x1F6F4, 0x1F6FC), (0x1F7E0, 0x1F7EB), (0x1F90C, 0x1F93A),
   (0x1F93C, 0x1F945), (0x1F947, 0x1F9FF), (0x1FA70, 0x1FAFF), (0x20000, 0x2FFFD),
   (0x30000, 0x3FFFD)]

/-- Whether the code point lies in one of the ranges. -/
def inRanges (ranges : List (Nat × Nat)) (n : Nat) : Bool :=
  ranges.any fun (lo, hi) => lo ≤ n && n ≤ hi

/-- The columns a character takes: none for control characters and combining marks, two for
wide characters, one for the rest. -/
def ofChar (c : Char) : Nat :=
  let n := c.toNat
  if n < 0x20 || (0x7F ≤ n && n < 0xA0) then 0
  else if n < 0x300 then 1
  else if inRanges zeroRanges n then 0
  else if inRanges wideRanges n then 2
  else 1

/-- Whether a character ends a terminal escape sequence. -/
def isFinal (c : Char) : Bool :=
  '@' ≤ c && c ≤ '~'

/-- The characters after an escape character: a bracketed sequence is skipped through its final
character, an operating-system sequence through a bell or an escape and backslash, and otherwise
the one character after the escape. -/
def skipEscape : List Char → List Char
  | '[' :: rest => (rest.dropWhile fun c => !isFinal c).drop 1
  | ']' :: rest => skipCommand ' ' rest
  | _ :: rest => rest
  | [] => []
where
  /-- Skips an operating-system sequence; `last` is the character before the current one. -/
  skipCommand (last : Char) : List Char → List Char
    | [] => []
    | c :: rest =>
      if c = '\x07' || (c = '\\' && last = '\x1b') then rest else skipCommand c rest

theorem skipCommand_length_le (last : Char) (cs : List Char) :
    (skipEscape.skipCommand last cs).length ≤ cs.length := by
  induction cs generalizing last with
  | nil => simp [skipEscape.skipCommand]
  | cons c rest ih =>
    simp only [skipEscape.skipCommand]
    split
    · simp
    · have := ih c
      simp only [List.length_cons]
      omega

theorem skipEscape_length_le (cs : List Char) : (skipEscape cs).length ≤ cs.length := by
  unfold skipEscape
  split
  · rename_i rest
    have : (rest.dropWhile fun c => !isFinal c).length ≤ rest.length :=
      (List.dropWhile_suffix _).length_le
    simp only [List.length_drop, List.length_cons]
    omega
  · rename_i rest
    have := skipCommand_length_le ' ' rest
    simp only [List.length_cons]
    omega
  · simp
  · simp

/-- A text cut into what a terminal shows as one thing: an escape sequence, which takes no
columns, or a single character with its columns. -/
def units : List Char → List (List Char × Nat)
  | [] => []
  | '\x1b' :: rest =>
    let after := skipEscape rest
    ('\x1b' :: rest.take (rest.length - after.length), 0) :: units after
  | c :: rest => ([c], ofChar c) :: units rest
termination_by cs => cs.length
decreasing_by
  · have := skipEscape_length_le rest
    simp only [List.length_cons]
    omega
  · simp

/-- The columns of a list of characters, escape sequences taking none. -/
def ofChars (cs : List Char) : Nat :=
  ((units cs).map Prod.snd).foldr (· + ·) 0

/-- The columns a text takes on a terminal. -/
def ofString (s : String) : Nat :=
  ofChars s.toList

end Width

end DocExamples
