namespace DocExamples

namespace Diff

/-- One run of an edit script, with the positions where it applies in the old and the new list. -/
inductive Op where
  /-- `len` items kept. -/
  | equal (oldIndex newIndex len : Nat)
  /-- `oldLen` old items dropped. -/
  | delete (oldIndex oldLen newIndex : Nat)
  /-- `newLen` new items added. -/
  | insert (oldIndex newIndex newLen : Nat)
  /-- `oldLen` old items dropped and `newLen` new items added in their place. -/
  | replace (oldIndex oldLen newIndex newLen : Nat)
  deriving DecidableEq, Repr, Inhabited

namespace Op

/-- The old items the run covers, as start and end. -/
def oldRange : Op → Nat × Nat
  | .equal o _ len => (o, o + len)
  | .delete o len _ => (o, o + len)
  | .insert o _ _ => (o, o)
  | .replace o len _ _ => (o, o + len)

/-- The new items the run covers, as start and end. -/
def newRange : Op → Nat × Nat
  | .equal _ n len => (n, n + len)
  | .delete _ _ n => (n, n)
  | .insert _ n len => (n, n + len)
  | .replace _ _ n len => (n, n + len)

/-- Whether the run covers no item. -/
def isEmpty (op : Op) : Bool :=
  op.oldRange.1 == op.oldRange.2 && op.newRange.1 == op.newRange.2

end Op

/-- The number of equal items at the heads of `old[os..oe]` and `new[ns..ne]`. -/
def commonHead {α : Type} [BEq α] (old new : Array α) (os oe ns ne : Nat) : Nat :=
  let bound := min (oe - os) (ne - ns)
  ((List.range bound).takeWhile fun i => old[os + i]? == new[ns + i]?).length

/-- The number of equal items at the tails of `old[os..oe]` and `new[ns..ne]`. -/
def commonTail {α : Type} [BEq α] (old new : Array α) (os oe ns ne : Nat) : Nat :=
  let bound := min (oe - os) (ne - ns)
  ((List.range bound).takeWhile fun i => old[oe - 1 - i]? == new[ne - 1 - i]?).length

/-- The furthest points reached on each diagonal, stored around an offset so that negative
diagonals have a place. -/
structure Frontier where
  offset : Nat
  reach : Array Nat

namespace Frontier

/-- A frontier for up to `bound` steps, all at 0. -/
def new (bound : Nat) : Frontier :=
  ⟨bound + 2, Array.replicate (2 * bound + 5) 0⟩

/-- The point reached on diagonal `k`. -/
def get (f : Frontier) (k : Int) : Nat :=
  f.reach.getD (k + f.offset).toNat 0

/-- The frontier with diagonal `k` at `x`. -/
def set (f : Frontier) (k : Int) (x : Nat) : Frontier :=
  { f with reach := f.reach.setIfInBounds (k + f.offset).toNat x }

end Frontier

/-- The start of the middle snake of an optimal path between `old[os..oe]` and `new[ns..ne]`,
as positions in both lists. -/
def middleSnake {α : Type} [BEq α] (old new : Array α) (os oe ns ne : Nat) : Option (Nat × Nat) :=
  Id.run do
    let n := oe - os
    let m := ne - ns
    let delta : Int := (n : Int) - m
    let odd := delta % 2 != 0
    let dMax := (n + m + 1) / 2 + 1
    let mut forward := Frontier.new dMax
    let mut backward := Frontier.new dMax
    for dn in List.range dMax do
      let d : Int := dn
      for i in List.range (dn + 1) do
        let k : Int := d - 2 * i
        let start :=
          if k == -d || (k != d && forward.get (k - 1) < forward.get (k + 1)) then forward.get (k + 1)
          else forward.get (k - 1) + 1
        let y : Int := start - k
        let x :=
          if start < n && 0 ≤ y && y < m then
            start + commonHead old new (os + start) oe (ns + y.toNat) ne
          else start
        forward := forward.set k x
        if odd && (k - delta).natAbs ≤ d - 1 && d ≥ 1 then
          if x + backward.get (-(k - delta)) ≥ n then
            return some (start + os, y.toNat + ns)
      for i in List.range (dn + 1) do
        let k : Int := d - 2 * i
        let start :=
          if k == -d || (k != d && backward.get (k - 1) < backward.get (k + 1)) then backward.get (k + 1)
          else backward.get (k - 1) + 1
        let y : Int := start - k
        let advance :=
          if start < n && 0 ≤ y && y < m then
            commonTail old new os (os + n - start) ns (ns + m - y.toNat)
          else 0
        let x := start + advance
        let y := y + advance
        backward := backward.set k x
        if !odd && (k - delta).natAbs ≤ d then
          if x + forward.get (-(k - delta)) ≥ n then
            return some (n - x + os, (m - y).toNat + ns)
    return none

/-- The edit script between `old[os..oe]` and `new[ns..ne]`; `fuel` bounds the depth of the
splitting, which each split lowers by one while it shrinks both halves. -/
def conquer {α : Type} [BEq α] (old new : Array α) : Nat → Nat → Nat → Nat → Nat → List Op
  | 0, os, oe, ns, ne =>
    (if oe > os then [.delete os (oe - os) ns] else []) ++
      (if ne > ns then [.insert os ns (ne - ns)] else [])
  | fuel + 1, os, oe, ns, ne =>
    let head := commonHead old new os oe ns ne
    let os := os + head
    let ns := ns + head
    let tail := commonTail old new os oe ns ne
    let oe := oe - tail
    let ne := ne - tail
    let middle :=
      if os = oe ∧ ns = ne then []
      else if ns = ne then [.delete os (oe - os) ns]
      else if os = oe then [.insert os ns (ne - ns)]
      else
        match middleSnake old new os oe ns ne with
        | some (x, y) => conquer old new fuel os x ns y ++ conquer old new fuel x oe y ne
        | none => [.delete os (oe - os) ns, .insert os ns (ne - ns)]
    (if head > 0 then [.equal (os - head) (ns - head) head] else []) ++ middle ++
      (if tail > 0 then [.equal oe ne tail] else [])

/-- A shortest edit script turning `old` into `new`. -/
def editScript {α : Type} [BEq α] (old new : Array α) : List Op :=
  conquer old new (old.size + new.size + 1) 0 old.size 0 new.size

end Diff

end DocExamples
