namespace DocExamples

namespace Escaped

/-- Code point ranges, inclusive, of characters that join the character before them
(combining marks and other grapheme extenders) among the blocks that text here uses. -/
def extendingRanges : List (Nat × Nat) :=
  [(0x0300, 0x036F), (0x0483, 0x0489), (0x0591, 0x05BD), (0x05BF, 0x05BF), (0x05C1, 0x05C2),
   (0x05C4, 0x05C5), (0x05C7, 0x05C7), (0x0610, 0x061A), (0x064B, 0x065F), (0x0670, 0x0670),
   (0x06D6, 0x06DC), (0x06DF, 0x06E4), (0x06E7, 0x06E8), (0x06EA, 0x06ED), (0x0711, 0x0711),
   (0x0730, 0x074A), (0x0900, 0x0902), (0x093C, 0x093C), (0x0941, 0x0948), (0x094D, 0x094D),
   (0x1AB0, 0x1AFF), (0x1DC0, 0x1DFF), (0x200C, 0x200C), (0x20D0, 0x20F0), (0x302A, 0x302F),
   (0x3099, 0x309A), (0xFE00, 0xFE0F), (0xFE20, 0xFE2F), (0xFF9E, 0xFF9F), (0x1F3FB, 0x1F3FF),
   (0xE0020, 0xE007F), (0xE0100, 0xE01EF)]

/-- Code point ranges, inclusive, of characters that print nothing of their own: controls,
format characters, line and paragraph separators, private use and non-characters. -/
def silentRanges : List (Nat × Nat) :=
  [(0x0000, 0x001F), (0x007F, 0x009F), (0x00A0, 0x00A0), (0x00AD, 0x00AD), (0x034F, 0x034F),
   (0x0600, 0x0605), (0x061C, 0x061C), (0x06DD, 0x06DD), (0x070F, 0x070F), (0x180E, 0x180E),
   (0x2000, 0x200F), (0x2028, 0x202F), (0x205F, 0x2064), (0x2066, 0x206F), (0x3000, 0x3000),
   (0xD800, 0xF8FF), (0xFEFF, 0xFEFF), (0xFFF0, 0xFFFB), (0xFFFE, 0xFFFF), (0x1680, 0x1680),
   (0xE0000, 0xE001F), (0xE0080, 0xE00FF), (0xE01F0, 0x10FFFF)]

/-- Whether `code` lies in one of the inclusive ranges. -/
def inRanges (ranges : List (Nat × Nat)) (code : Nat) : Bool :=
  ranges.any fun (lo, hi) => lo ≤ code && code ≤ hi

/-- Whether a character is written as its code point. -/
def needsCodePoint (c : Char) : Bool :=
  inRanges extendingRanges c.toNat || inRanges silentRanges c.toNat

/-- The lowercase hexadecimal digits of `n`, without leading zeros. -/
def hexDigits (n : Nat) : String :=
  String.ofList (Nat.toDigits 16 n)

/-- The escaped form of one character. -/
def escapeChar (c : Char) : String :=
  if c = '\x00' then "\\0"
  else if c = '\t' then "\\t"
  else if c = '\r' then "\\r"
  else if c = '\n' then "\\n"
  else if c = '\\' then "\\\\"
  else if c = '"' then "\\\""
  else if needsCodePoint c then "\\u\x7b" ++ hexDigits c.toNat ++ "\x7d"
  else c.toString

end Escaped

/-- The string between double quotes, every character in its escaped form. -/
def escapeQuoted (s : String) : String :=
  "\"" ++ String.join (s.toList.map Escaped.escapeChar) ++ "\""

end DocExamples
