namespace DocExamples

/-- A set of ASCII bytes as a mask: byte `b` is a member when bit `b` is set. -/
structure AsciiSet where
  mask : Nat
  mask_lt : mask < Nat.pow 2 128
  deriving DecidableEq

namespace AsciiSet

/-- The empty set. -/
def empty : AsciiSet := ⟨0, by decide⟩

/-- The set with the byte `b` added; a byte from 128 up is left out. -/
def insert (set : AsciiSet) (b : UInt8) : AsciiSet :=
  if h : b.toNat < 128 then
    ⟨set.mask ||| 1 <<< b.toNat, by
      apply Nat.or_lt_two_pow set.mask_lt
      rw [Nat.one_shiftLeft]
      exact Nat.pow_lt_pow_right (by decide) h⟩
  else set

/-- The set of the ASCII bytes among `members`. -/
def ofAscii (members : List UInt8) : AsciiSet :=
  members.foldl insert empty

/-- The set of `members`, refused when one of them is not ASCII. -/
def new? (members : List UInt8) : Option AsciiSet :=
  if members.all (·.toNat < 128) then some (ofAscii members) else none

/-- The text given when a set is built from a byte that is not ASCII. -/
def nonAsciiMessage : String := "AsciiSet members must be ASCII"

/-- Whether the byte `b` is a member; never for a byte from 128 up. -/
def contains (set : AsciiSet) (b : UInt8) : Bool :=
  b.toNat < 128 && set.mask.testBit b.toNat

/-- Whether the character `c` is an ASCII member. -/
def containsChar (set : AsciiSet) (c : Char) : Bool :=
  c.toNat < 128 && set.contains c.toNat.toUInt8

/-- The members of either set. -/
def union (a b : AsciiSet) : AsciiSet :=
  ⟨a.mask ||| b.mask, Nat.or_lt_two_pow a.mask_lt b.mask_lt⟩

/-- The members in increasing order. -/
def toList (set : AsciiSet) : List UInt8 :=
  ((List.range 128).filter set.mask.testBit).map Nat.toUInt8

end AsciiSet

end DocExamples
