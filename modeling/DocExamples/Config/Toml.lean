namespace DocExamples

namespace Toml

/-- How a table came to be. -/
inductive Kind where
  /-- Opened by a `[header]` of its own. -/
  | header
  /-- Made on the way to a deeper header. -/
  | implicit
  /-- Made by a dotted key. -/
  | dotted
  /-- Written inline, `{ ... }`; closed to later additions. -/
  | inline
  deriving DecidableEq, Repr

/-- A TOML value. -/
inductive Value where
  | string (s : String)
  | integer (n : Int)
  | float (text : String)
  | boolean (b : Bool)
  | datetime (text : String)
  /-- An array; `ofTables` when it was made by `[[header]]`s. -/
  | array (items : List Value) (ofTables : Bool)
  | table (kind : Kind) (entries : List (String × Value))
  deriving Repr

/-- The table entries with the entry for `key` replaced. -/
def replaceEntry (key : String) (value : Value) : List (String × Value) → List (String × Value)
  | [] => []
  | (k, v) :: rest => if k = key then (k, value) :: rest else (k, v) :: replaceEntry key value rest

/-- The entry of `key`. -/
def lookup (key : String) (entries : List (String × Value)) : Option Value :=
  (entries.find? (·.1 == key)).map (·.2)

/-- A change of the entries of one table. -/
abbrev Change := List (String × Value) → Except String (List (String × Value))

/-- Applies `change` to the table at `path` below `entries`. Missing tables on the way are made
with kind `fresh`; an existing table is entered when `enters` allows its kind; an array of tables
is entered at its last table. -/
def descend (fresh : Kind) (enters : Kind → Bool) (change : Change) :
    List String → List (String × Value) → Except String (List (String × Value))
  | [], entries => change entries
  | key :: rest, entries =>
    match lookup key entries with
    | none => do
      let inner ← descend fresh enters change rest []
      pure (entries ++ [(key, .table fresh inner)])
    | some (.table kind inner) =>
      if enters kind then do
        let inner ← descend fresh enters change rest inner
        pure (replaceEntry key (.table kind inner) entries)
      else throw s!"cannot extend table {key}"
    | some (.array items true) =>
      match items.getLast? with
      | some (.table kind inner) => do
        let inner ← descend fresh enters change rest inner
        pure (replaceEntry key (.array (items.dropLast ++ [.table kind inner]) true) entries)
      | _ => throw s!"cannot extend {key}"
    | some _ => throw s!"{key} is not a table"

/-- Opens table `key` by a header. -/
def openTable (key : String) : Change := fun entries =>
  match lookup key entries with
  | none => pure (entries ++ [(key, .table .header [])])
  | some (.table .implicit inner) => pure (replaceEntry key (.table .header inner) entries)
  | some _ => throw s!"table {key} defined twice"

/-- Appends a table to the array of tables `key`. -/
def appendTable (key : String) : Change := fun entries =>
  match lookup key entries with
  | none => pure (entries ++ [(key, .array [.table .header []] true)])
  | some (.array items true) => pure (replaceEntry key (.array (items ++ [.table .header []]) true) entries)
  | some _ => throw s!"{key} is not an array of tables"

/-- Defines `key` as `value`. -/
def defineKey (key : String) (value : Value) : Change := fun entries =>
  match lookup key entries with
  | none => pure (entries ++ [(key, value)])
  | some _ => throw s!"duplicate key {key}"

/-- Whether a header may pass through or reopen a table of this kind. -/
def headerEnters : Kind → Bool
  | .inline => false
  | _ => true

/-- Whether a dotted key may add to a table of this kind. -/
def dottedEnters : Kind → Bool
  | .dotted | .implicit => true
  | _ => false

/-- Defines the dotted key `path` as `value` in a table's entries. -/
def defineDotted (path : List String) (value : Value) : Change := fun entries =>
  match path.reverse with
  | [] => throw "empty key"
  | last :: before => descend .dotted dottedEnters (defineKey last value) before.reverse entries

/-- The input that is left, as characters. -/
abbrev Input := List Char

/-- Spaces and tabs taken off the front. -/
def skipBlanks (s : Input) : Input :=
  s.dropWhile fun c => c = ' ' || c = '\t'

/-- Whether a character may not stand as it is in a string or comment. -/
def isControl (c : Char) : Bool :=
  (c.toNat < 32 && c ≠ '\t') || c.toNat = 127

/-- A comment taken off the front, up to the line break. -/
def skipComment (s : Input) : Except String Input :=
  match s with
  | '#' :: rest =>
    let body := rest.takeWhile (· ≠ '\n')
    let body := if body.getLast? = some '\r' then body.dropLast else body
    if body.any isControl then throw "control character in comment"
    else pure (rest.drop body.length)
  | _ => pure s

/-- The end of a line: blanks, a comment, then a line break or the end of the input. -/
def endLine (s : Input) : Except String Input := do
  match ← skipComment (skipBlanks s) with
  | [] => pure []
  | '\n' :: rest => pure rest
  | '\r' :: '\n' :: rest => pure rest
  | _ => throw "expected the end of the line"

/-- Blanks, comments and line breaks taken off the front, as between the items of an array. -/
def skipLayout : Nat → Input → Except String Input
  | 0, _ => throw "input too deep"
  | fuel + 1, s => do
    match ← skipComment (skipBlanks s) with
    | '\n' :: rest => skipLayout fuel rest
    | '\r' :: '\n' :: rest => skipLayout fuel rest
    | rest => pure rest

/-- Whether a character may stand in a bare key. -/
def isBareKeyChar (c : Char) : Bool :=
  c.isAlphanum || c = '_' || c = '-'

/-- The value of a hexadecimal digit. -/
def hexValue (c : Char) : Option Nat :=
  if c.isDigit then some (c.toNat - 48)
  else if 'a' ≤ c ∧ c ≤ 'f' then some (c.toNat - 87)
  else if 'A' ≤ c ∧ c ≤ 'F' then some (c.toNat - 55)
  else none

/-- The character of `count` hexadecimal digits at the front, and the rest. -/
def unicodeEscape (count : Nat) (s : Input) : Except String (Char × Input) := do
  let digits := s.take count
  if digits.length < count then throw "short unicode escape"
  let code ← digits.foldlM (fun acc c => match hexValue c with
    | some d => pure (acc * 16 + d)
    | none => throw "bad unicode escape") 0
  if code > 0x10FFFF ∨ (0xD800 ≤ code ∧ code ≤ 0xDFFF) then throw "bad unicode escape"
  pure (Char.ofNat code, s.drop count)

/-- An escape of a basic string, after its backslash. -/
def escape (s : Input) : Except String (Char × Input) :=
  match s with
  | 'b' :: rest => pure ('\x08', rest)
  | 't' :: rest => pure ('\t', rest)
  | 'n' :: rest => pure ('\n', rest)
  | 'f' :: rest => pure ('\x0c', rest)
  | 'r' :: rest => pure ('\r', rest)
  | 'e' :: rest => pure ('\x1b', rest)
  | '"' :: rest => pure ('"', rest)
  | '\\' :: rest => pure ('\\', rest)
  | 'u' :: rest => unicodeEscape 4 rest
  | 'U' :: rest => unicodeEscape 8 rest
  | 'x' :: rest => unicodeEscape 2 rest
  | _ => throw "bad escape"

/-- The rest of a one-line basic string, after its opening quote. -/
def basicString : Nat → String → Input → Except String (String × Input)
  | 0, _, _ => throw "input too deep"
  | _ + 1, _, [] => throw "unterminated string"
  | fuel + 1, acc, c :: rest =>
    if c = '"' then pure (acc, rest)
    else if c = '\\' then do
      let (e, rest) ← escape rest
      basicString fuel (acc.push e) rest
    else if isControl c then throw "control character in string"
    else basicString fuel (acc.push c) rest

/-- The rest of a one-line literal string, after its opening quote. -/
def literalString (s : Input) : Except String (String × Input) :=
  let body := s.takeWhile (· ≠ '\'')
  if body.length = s.length then throw "unterminated string"
  else if body.any isControl then throw "control character in string"
  else pure (String.ofList body, s.drop (body.length + 1))

/-- The closing run of quotes `q` of a multi-line string at the front: the quotes that belong to
the content (one or two) and the rest, when the run is three to five long. -/
def closingRun (q : Char) (s : Input) : Option (Nat × Input) :=
  let run := (s.takeWhile (· == q)).length
  if 3 ≤ run ∧ run ≤ 5 then some (run - 3, s.drop run) else none

/-- Line breaks and blanks taken off the front, after a line-ending backslash. -/
def skipBreaks (s : Input) : Input :=
  s.dropWhile fun c => c = ' ' || c = '\t' || c = '\n' || c = '\r'

/-- The rest of a multi-line basic string, after its opening quotes. -/
def multiBasic : Nat → String → Input → Except String (String × Input)
  | 0, _, _ => throw "input too deep"
  | _ + 1, _, [] => throw "unterminated string"
  | fuel + 1, acc, c :: rest =>
    match closingRun '"' (c :: rest) with
    | some (extra, rest) => pure (acc ++ String.ofList (List.replicate extra '"'), rest)
    | none =>
      if c = '\\' then
        let afterBlanks := skipBlanks rest
        match afterBlanks with
        | '\n' :: _ | '\r' :: '\n' :: _ => multiBasic fuel acc (skipBreaks afterBlanks)
        | _ => do
          let (e, rest) ← escape rest
          multiBasic fuel (acc.push e) rest
      else if c = '\r' then
        match rest with
        | '\n' :: rest => multiBasic fuel (acc.push '\n') rest
        | _ => throw "bare carriage return"
      else if c ≠ '\n' ∧ isControl c then throw "control character in string"
      else multiBasic fuel (acc.push c) rest

/-- The rest of a multi-line literal string, after its opening quotes. -/
def multiLiteral : Nat → String → Input → Except String (String × Input)
  | 0, _, _ => throw "input too deep"
  | _ + 1, _, [] => throw "unterminated string"
  | fuel + 1, acc, c :: rest =>
    match closingRun '\'' (c :: rest) with
    | some (extra, rest) => pure (acc ++ String.ofList (List.replicate extra '\''), rest)
    | none =>
      if c = '\r' then
        match rest with
        | '\n' :: rest => multiLiteral fuel (acc.push '\n') rest
        | _ => throw "bare carriage return"
      else if c ≠ '\n' ∧ isControl c then throw "control character in string"
      else multiLiteral fuel (acc.push c) rest

/-- A line break right after the opening quotes of a multi-line string is not content. -/
def dropFirstBreak (s : Input) : Input :=
  match s with
  | '\n' :: rest => rest
  | '\r' :: '\n' :: rest => rest
  | _ => s

/-- A string value at the front. -/
def stringValue (fuel : Nat) (s : Input) : Except String (String × Input) :=
  match s with
  | '"' :: '"' :: '"' :: rest => multiBasic fuel "" (dropFirstBreak rest)
  | '"' :: rest => basicString fuel "" rest
  | '\'' :: '\'' :: '\'' :: rest => multiLiteral fuel "" (dropFirstBreak rest)
  | '\'' :: rest => literalString rest
  | _ => throw "expected a string"

/-- One part of a key at the front. -/
def simpleKey (fuel : Nat) (s : Input) : Except String (String × Input) :=
  match s with
  | '"' :: rest => basicString fuel "" rest
  | '\'' :: rest => literalString rest
  | _ =>
    let bare := s.takeWhile isBareKeyChar
    if bare.isEmpty then throw "expected a key" else pure (String.ofList bare, s.drop bare.length)

/-- A dotted key at the front, its parts in order. -/
def dottedKey : Nat → Input → Except String (List String × Input)
  | 0, _ => throw "input too deep"
  | fuel + 1, s => do
    let (part, rest) ← simpleKey fuel (skipBlanks s)
    match skipBlanks rest with
    | '.' :: more => do
      let (parts, rest) ← dottedKey fuel more
      pure (part :: parts, rest)
    | _ => pure ([part], rest)

/-- Whether the characters are all decimal digits, with single underscores between digits. -/
def isDigitRun (cs : List Char) : Bool :=
  match cs with
  | [] => false
  | c :: _ =>
    c.isDigit && cs.getLast?.all Char.isDigit &&
      (cs.zip cs.tail).all (fun (a, b) => (a.isDigit || a = '_') && (b.isDigit || b = '_') &&
        !(a = '_' && b = '_'))

/-- Whether the characters spell a decimal integer without a sign. -/
def isUnsignedDecimal (cs : List Char) : Bool :=
  isDigitRun cs && (cs.length = 1 || cs.head? ≠ some '0')

/-- The characters without a leading sign. -/
def dropSign (cs : List Char) : List Char :=
  match cs with
  | '+' :: rest | '-' :: rest => rest
  | _ => cs

/-- The value of decimal digits, underscores skipped. -/
def decimalValue (cs : List Char) : Nat :=
  cs.foldl (fun acc c => if c.isDigit then acc * 10 + (c.toNat - 48) else acc) 0

/-- Whether the characters spell a float. -/
def isFloatText (cs : List Char) : Bool :=
  let body := dropSign cs
  if body = "inf".toList || body = "nan".toList then true
  else
    let whole := body.takeWhile fun c => c.isDigit || c = '_'
    let afterWhole := body.drop whole.length
    let (fraction, afterFraction) := match afterWhole with
      | '.' :: more =>
        let f := more.takeWhile fun (c : Char) => c.isDigit || c = '_'
        (some f, more.drop f.length)
      | _ => (none, afterWhole)
    let exponentOk := match afterFraction with
      | [] => none
      | e :: more => if e = 'e' || e = 'E' then some (isDigitRun (dropSign more)) else some false
    isUnsignedDecimal whole && fraction.all isDigitRun &&
      (match exponentOk with
       | none => fraction.isSome
       | some ok => ok)

/-- Whether the characters are `count` digits. -/
def isDigits (count : Nat) (cs : List Char) : Bool :=
  cs.length = count && cs.all Char.isDigit

/-- Whether the characters spell a time of day, `HH:MM:SS` with an optional fraction. -/
def isTimeText (cs : List Char) : Bool :=
  match cs with
  | h1 :: h2 :: ':' :: m1 :: m2 :: ':' :: s1 :: s2 :: rest =>
    isDigits 6 [h1, h2, m1, m2, s1, s2] &&
      (match rest with
       | [] => true
       | '.' :: frac => !frac.isEmpty && frac.all Char.isDigit
       | _ => false)
  | _ => false

/-- Whether the characters spell a time with an optional offset. -/
def isTimeWithOffset (cs : List Char) : Bool :=
  let time := cs.takeWhile fun c => c.isDigit || c = ':' || c = '.'
  let offset := cs.drop time.length
  isTimeText time &&
    (match offset with
     | [] | ['Z'] | ['z'] => true
     | sign :: h1 :: h2 :: ':' :: m1 :: m2 :: [] => (sign = '+' || sign = '-') && isDigits 4 [h1, h2, m1, m2]
     | _ => false)

/-- Whether the characters spell a date, a time, or a date and time. -/
def isDateTimeText (cs : List Char) : Bool :=
  match cs with
  | y1 :: y2 :: y3 :: y4 :: '-' :: m1 :: m2 :: '-' :: d1 :: d2 :: rest =>
    isDigits 8 [y1, y2, y3, y4, m1, m2, d1, d2] &&
      (match rest with
       | [] => true
       | sep :: time => (sep = 'T' || sep = 't' || sep = ' ') && isTimeWithOffset time)
  | _ => isTimeText cs

/-- The value of digits in `base`, underscores between them, or nothing when they are not. -/
def radixValue (base : Nat) (cs : List Char) : Option Nat :=
  if cs.isEmpty || cs.head? = some '_' || cs.getLast? = some '_' then none
  else cs.foldlM (fun acc c =>
    if c = '_' then some acc
    else match hexValue c with
      | some d => if d < base then some (acc * base + d) else none
      | none => none) 0

/-- A number, boolean, date or time spelled by `token`. -/
def scalar (token : List Char) : Except String Value :=
  if token = "true".toList then pure (.boolean true)
  else if token = "false".toList then pure (.boolean false)
  else
    match token with
    | '0' :: 'x' :: digits => (radixValue 16 digits).elim (throw "bad number") (pure ∘ .integer ∘ Int.ofNat)
    | '0' :: 'o' :: digits => (radixValue 8 digits).elim (throw "bad number") (pure ∘ .integer ∘ Int.ofNat)
    | '0' :: 'b' :: digits => (radixValue 2 digits).elim (throw "bad number") (pure ∘ .integer ∘ Int.ofNat)
    | _ =>
      let body := dropSign token
      if isUnsignedDecimal body then
        let n := Int.ofNat (decimalValue body)
        pure (.integer (if token.head? = some '-' then -n else n))
      else if isFloatText token then pure (.float (String.ofList token))
      else if isDateTimeText token then pure (.datetime (String.ofList token))
      else throw "bad value"

/-- Whether a character may stand in a number, boolean, date or time. -/
def isScalarChar (c : Char) : Bool :=
  c.isAlphanum || c = '_' || c = '+' || c = '-' || c = '.' || c = ':'

/-- The characters of a scalar at the front; a date followed by a space and a time is one
scalar. -/
def scalarToken (s : Input) : List Char × Input :=
  let token := s.takeWhile isScalarChar
  let rest := s.drop token.length
  match rest with
  | ' ' :: d :: _ =>
    if d.isDigit && isDateTimeText token && token.length = 10 then
      let time := (rest.drop 1).takeWhile isScalarChar
      if isDateTimeText (token ++ ' ' :: time) then (token ++ ' ' :: time, (rest.drop 1).drop time.length)
      else (token, rest)
    else (token, rest)
  | _ => (token, rest)

mutual

/-- A value at the front. -/
def value : Nat → Input → Except String (Value × Input)
  | 0, _ => throw "input too deep"
  | fuel + 1, s =>
    match s with
    | '"' :: _ | '\'' :: _ => do
      let (text, rest) ← stringValue fuel s
      pure (.string text, rest)
    | '[' :: rest => arrayItems fuel [] rest
    | '{' :: rest => inlineEntries fuel [] true rest
    | _ =>
      let (token, rest) := scalarToken s
      if token.isEmpty then throw "expected a value"
      else do pure (← scalar token, rest)

/-- The rest of an array, after its opening bracket or a comma, with the items so far. -/
def arrayItems : Nat → List Value → Input → Except String (Value × Input)
  | 0, _, _ => throw "input too deep"
  | fuel + 1, items, s => do
    match ← skipLayout fuel s with
    | ']' :: rest => pure (.array items false, rest)
    | start => do
      let (item, rest) ← value fuel start
      match ← skipLayout fuel rest with
      | ',' :: rest => arrayItems fuel (items ++ [item]) rest
      | ']' :: rest => pure (.array (items ++ [item]) false, rest)
      | _ => throw "expected , or ] in array"

/-- The rest of an inline table, after its opening brace or a comma, with the entries so far;
`first` when no entry has been read yet. -/
def inlineEntries : Nat → List (String × Value) → Bool → Input → Except String (Value × Input)
  | 0, _, _, _ => throw "input too deep"
  | fuel + 1, entries, first, s =>
    match skipBlanks s with
    | '}' :: rest =>
      if first then pure (.table .inline entries, rest) else throw "trailing comma in inline table"
    | start => do
      let (path, rest) ← dottedKey fuel start
      match skipBlanks rest with
      | '=' :: rest => do
        let (item, rest) ← value fuel (skipBlanks rest)
        let entries ← defineDotted path item entries
        match skipBlanks rest with
        | ',' :: rest => inlineEntries fuel entries false rest
        | '}' :: rest => pure (.table .inline entries, rest)
        | _ => throw "expected a comma or a closing brace in inline table"
      | _ => throw "expected = in inline table"

end

/-- The lines of a document from `s` on, `current` being the path of the table that key/value
lines go to. -/
def lines : Nat → List String → List (String × Value) → Input → Except String (List (String × Value))
  | 0, _, _, _ => throw "input too deep"
  | fuel + 1, current, root, s =>
    match skipBlanks s with
    | [] => pure root
    | '\n' :: rest => lines fuel current root rest
    | '\r' :: '\n' :: rest => lines fuel current root rest
    | '#' :: rest => do lines fuel current root (← endLine ('#' :: rest))
    | '[' :: '[' :: rest => do
      let (path, rest) ← dottedKey fuel rest
      match skipBlanks rest with
      | ']' :: ']' :: rest => do
        let (before, last) := (path.dropLast, path.getLast?.getD "")
        let root ← descend .implicit headerEnters (appendTable last) before root
        lines fuel path root (← endLine rest)
      | _ => throw "expected ]] after array of tables"
    | '[' :: rest => do
      let (path, rest) ← dottedKey fuel rest
      match skipBlanks rest with
      | ']' :: rest => do
        let (before, last) := (path.dropLast, path.getLast?.getD "")
        let root ← descend .implicit headerEnters (openTable last) before root
        lines fuel path root (← endLine rest)
      | _ => throw "expected ] after table"
    | start => do
      let (path, rest) ← dottedKey fuel start
      match skipBlanks rest with
      | '=' :: rest => do
        let (item, rest) ← value fuel (skipBlanks rest)
        let root ← descend .implicit headerEnters (defineDotted path item) current root
        lines fuel current root (← endLine rest)
      | _ => throw "expected = after key"

/-- The entries of the root table of a document, or why it is not TOML. -/
def parse (text : String) : Except String (List (String × Value)) :=
  let input := text.toList
  lines (4 * input.length + 8) [] [] input

end Toml

end DocExamples
