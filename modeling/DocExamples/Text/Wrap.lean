import DocExamples.Text.Width

namespace DocExamples

namespace Wrap

/-- A piece of a line that is never cut further: its text and the spaces after it. -/
structure Piece where
  text : List Char
  blanks : List Char
  deriving DecidableEq, Repr

/-- The columns the text of a piece takes, its spaces apart. -/
def Piece.columns (p : Piece) : Nat :=
  Width.ofChars p.text

/-- The words of a line, each with the spaces after it: a word ends where a character other than a
space follows a space. Spaces at the start of the line make a word with no text. -/
def words (text blanks : List Char) : List Char → List Piece
  | [] => if text.isEmpty && blanks.isEmpty then [] else [⟨text, blanks⟩]
  | c :: rest =>
    if c = ' ' then words text (blanks ++ [c]) rest
    else if blanks.isEmpty then words (text ++ [c]) [] rest
    else ⟨text, blanks⟩ :: words [c] [] rest

/-- Letters and digits, around a hyphen where a line may break. -/
def isLetterOrDigit (c : Char) : Bool :=
  c.isAlphanum ||
    Width.inRanges [(0xAA, 0xAA), (0xB2, 0xB3), (0xB5, 0xB5), (0xB9, 0xBA), (0xBC, 0xBE),
      (0xC0, 0xD6), (0xD8, 0xF6), (0xF8, 0x2C1), (0x2C6, 0x2D1), (0x2E0, 0x2E4),
      (0x370, 0x373), (0x376, 0x377), (0x37B, 0x37D), (0x386, 0x386), (0x388, 0x3FF),
      (0x400, 0x481), (0x48A, 0x52F), (0x531, 0x556), (0x561, 0x587), (0x5B0, 0x5BD),
      (0x5BF, 0x5BF), (0x5C1, 0x5C2), (0x5C4, 0x5C5), (0x5C7, 0x5C7), (0x5D0, 0x5EA),
      (0x5EF, 0x5F2), (0x610, 0x61A), (0x620, 0x657), (0x659, 0x669), (0x66E, 0x6D3),
      (0x6D5, 0x6DC), (0x6E1, 0x6E8), (0x6ED, 0x6FC), (0x6FF, 0x6FF), (0x1E00, 0x1FBC),
      (0x2070, 0x2071), (0x2074, 0x2079), (0x207F, 0x2089), (0x2090, 0x209C),
      (0x2150, 0x2189), (0x2460, 0x249B), (0x24EA, 0x24FF), (0x3041, 0x3096),
      (0x30A1, 0x30FA), (0x3400, 0x4DBF), (0x4E00, 0x9FFF), (0xAC00, 0xD7A3),
      (0xFF10, 0xFF19), (0xFF21, 0xFF3A), (0xFF41, 0xFF5A)] c.toNat

/-- The text cut after each hyphen that stands between a letter or digit and another; `before` is
the character before the rest, and `current` the part begun so far. -/
def hyphenParts (before : Option Char) (current : List Char) : List Char → List (List Char)
  | [] => [current]
  | c :: rest =>
    let around := (before.map isLetterOrDigit).getD false &&
      (rest.head?.map isLetterOrDigit).getD false
    if c = '-' && around then (current ++ [c]) :: hyphenParts (some c) [] rest
    else hyphenParts (some c) (current ++ [c]) rest

/-- A word cut after its inner hyphens; the spaces stay with the last part. -/
def splitHyphens (p : Piece) : List Piece :=
  match (hyphenParts none [] p.text).reverse with
  | [] => [p]
  | last :: earlier => (earlier.reverse.map fun part => ⟨part, []⟩) ++ [⟨last, p.blanks⟩]

/-- The units of a word too wide for a line, gathered into parts of at most `width` columns;
`current` is the part begun so far and `used` its columns. A unit that takes no columns never
starts a part. -/
def chunks (width : Nat) (current : List Char) (used : Nat) :
    List (List Char × Nat) → List (List Char)
  | [] => if current.isEmpty then [] else [current]
  | (unit, columns) :: rest =>
    if 0 < used && 0 < columns && width < used + columns then
      current :: chunks width unit columns rest
    else chunks width (current ++ unit) (used + columns) rest

/-- A piece wider than `width` cut into parts that fit; the spaces stay with the last part. -/
def breakApart (width : Nat) (p : Piece) : List Piece :=
  if p.columns ≤ width then [p]
  else
    match (chunks width [] 0 (Width.units p.text)).reverse with
    | [] => []
    | last :: earlier => (earlier.reverse.map fun part => ⟨part, []⟩) ++ [⟨last, p.blanks⟩]

/-- Pieces put on lines first-fit: the first line holds `firstWidth` columns and the others
`restWidth`. A piece that does not fit closes the current line, unless that line is still
empty. `done` holds the closed lines, `current` the open one and `used` its columns, spaces
included. -/
def firstFit (firstWidth restWidth : Nat) (done : List (List Piece)) (current : List Piece)
    (used : Nat) : List Piece → List (List Piece)
  | [] => done ++ [current]
  | p :: rest =>
    let limit := if done.isEmpty then firstWidth else restWidth
    if limit < used + p.columns && !current.isEmpty then
      firstFit firstWidth restWidth (done ++ [current]) [p] (p.columns + p.blanks.length) rest
    else firstFit firstWidth restWidth done (current ++ [p]) (used + p.columns + p.blanks.length) rest

/-- The text of a line of pieces, without the spaces after its last piece. -/
def lineText (pieces : List Piece) : List Char :=
  let all := pieces.flatMap fun p => p.text ++ p.blanks
  let trailing := (pieces.getLast?.map fun p => p.blanks.length).getD 0
  all.take (all.length - trailing)

/-- One line of text as the lines it wraps to. An empty piece goes first, so that the first word
is measured against the first line like any other. -/
def wrapLine (firstWidth restWidth : Nat) (line : String) : List (List Char) :=
  let pieces := ((words [] [] line.toList).flatMap splitHyphens).flatMap (breakApart restWidth)
  (firstFit firstWidth restWidth [] [] 0 (⟨[], []⟩ :: pieces)).map lineText

/-- The text wrapped to `width` columns, indents included, with `initial` before its first line
and `subsequent` before every other. -/
def fill (width : Nat) (initial subsequent : String) (text : String) : String :=
  let firstWidth := width - Width.ofString initial
  let restWidth := width - Width.ofString subsequent
  let lines := (text.splitOn "\n").flatMap (wrapLine firstWidth restWidth)
  "\n".intercalate (lines.mapIdx fun i line =>
    (if i = 0 then initial else subsequent) ++ String.ofList line)

end Wrap

end DocExamples
