namespace DocExamples

/-- Whether a byte is a blank: a space or a tab. -/
def isBlankByte (b : UInt8) : Bool :=
  b == 32 || b == 9

/-- Whether some bytes hold nothing but spaces and tabs. -/
def isBlankBytes (bytes : List UInt8) : Bool :=
  bytes.all isBlankByte

/-- Whether a byte is ASCII white space in the narrow sense used for trimming: space, tab, line
feed, form feed or carriage return (the vertical tab is not among them). -/
def isTrimByte (b : UInt8) : Bool :=
  b == 32 || b == 9 || b == 10 || b == 12 || b == 13

/-- The bytes with ASCII white space removed from both ends. -/
def trimAscii (bytes : List UInt8) : List UInt8 :=
  ((bytes.dropWhile isTrimByte).reverse.dropWhile isTrimByte).reverse

/-- One physical line of a document. -/
structure Line where
  text : List UInt8
  file : String
  number : Nat
  deriving DecidableEq, Repr

namespace Line

/-- The length of the line in bytes. -/
def length (line : Line) : Nat :=
  line.text.length

/-- Whether the line holds nothing but spaces and tabs. -/
def isBlank (line : Line) : Bool :=
  isBlankBytes line.text

end Line

end DocExamples
