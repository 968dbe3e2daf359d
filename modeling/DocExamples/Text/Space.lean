namespace DocExamples

/-- Whether a character has the Unicode property White_Space. -/
def isWhiteSpace (c : Char) : Bool :=
  let n := c.toNat
  (9 ≤ n && n ≤ 13) || n == 32 || n == 0x85 || n == 0xA0 || n == 0x1680 ||
    (0x2000 ≤ n && n ≤ 0x200A) || n == 0x2028 || n == 0x2029 || n == 0x202F || n == 0x205F ||
    n == 0x3000

/-- The first word of a text, words being separated by white space; empty when there is none. -/
def firstWord (s : String) : String :=
  String.ofList ((s.toList.dropWhile isWhiteSpace).takeWhile fun c => !isWhiteSpace c)

end DocExamples
