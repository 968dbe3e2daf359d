import DocExamples.Diff.Edit

namespace DocExamples

namespace Diff

namespace Op

/-- The run moved `by` items towards the start of both lists. -/
def shiftLeft (op : Op) (by_ : Nat) : Op :=
  match op with
  | .equal o n len => .equal (o - by_) (n - by_) len
  | .delete o len n => .delete (o - by_) len (n - by_)
  | .insert o n len => .insert (o - by_) (n - by_) len
  | .replace o ol n nl => .replace (o - by_) ol (n - by_) nl

/-- The run moved `by` items towards the end of both lists. -/
def shiftRight (op : Op) (by_ : Nat) : Op :=
  match op with
  | .equal o n len => .equal (o + by_) (n + by_) len
  | .delete o len n => .delete (o + by_) len (n + by_)
  | .insert o n len => .insert (o + by_) (n + by_) len
  | .replace o ol n nl => .replace (o + by_) ol (n + by_) nl

/-- The run with its length changed by `f`. -/
def resize (op : Op) (f : Nat → Nat) : Op :=
  match op with
  | .equal o n len => .equal o n (f len)
  | .delete o len n => .delete o (f len) n
  | .insert o n len => .insert o n (f len)
  | .replace o ol n nl => .replace o ol n (f nl)

/-- The run grown by `by` items at its start. -/
def growLeft (op : Op) (by_ : Nat) : Op :=
  (op.shiftLeft by_).resize (· + by_)

/-- The run grown by `by` items at its end. -/
def growRight (op : Op) (by_ : Nat) : Op :=
  op.resize (· + by_)

/-- The run without its last `by` items. -/
def shrinkLeft (op : Op) (by_ : Nat) : Op :=
  op.resize (· - by_)

/-- The run without its first `by` items. -/
def shrinkRight (op : Op) (by_ : Nat) : Op :=
  (op.shiftRight by_).resize (· - by_)

/-- Whether the run is an insertion. -/
def isInsert : Op → Bool
  | .insert .. => true
  | _ => false

/-- Whether the run is a deletion. -/
def isDelete : Op → Bool
  | .delete .. => true
  | _ => false

/-- Whether the run keeps items. -/
def isEqual : Op → Bool
  | .equal .. => true
  | _ => false

end Op

/-- The number of equal items at the tails of two ranges of two lists. -/
def rangeTail {α : Type} [BEq α] (a b : Array α) (ra rb : Nat × Nat) : Nat :=
  commonTail a b ra.1 ra.2 rb.1 rb.2

/-- The number of equal items at the heads of two ranges of two lists. -/
def rangeHead {α : Type} [BEq α] (a b : Array α) (ra rb : Nat × Nat) : Nat :=
  commonHead a b ra.1 ra.2 rb.1 rb.2

/-- The run at `i`, an empty insertion when there is none. -/
def opAt (ops : Array Op) (i : Nat) : Op :=
  ops.getD i (.insert 0 0 0)

/-- The array with `op` put in at index `i`. -/
def insertAt (ops : Array Op) (i : Nat) (op : Op) : Array Op :=
  (ops.extract 0 i).push op ++ ops.extract i ops.size

/-- The array without the run at index `i`. -/
def removeAt (ops : Array Op) (i : Nat) : Array Op :=
  ops.extract 0 i ++ ops.extract (i + 1) ops.size

/-- The array with the runs at `i` and `j` exchanged. -/
def swapAt (ops : Array Op) (i j : Nat) : Array Op :=
  let a := opAt ops i
  let b := opAt ops j
  (ops.setIfInBounds i b).setIfInBounds j a

/-- Slides the insertion or deletion at `pointer` towards the start while the equal run before
it ends with the same items, merging it into changes it meets; gives the runs and where the
change ended up. At most `fuel` moves are made. -/
def shiftUp {α : Type} [BEq α] (old new : Array α) (fuel : Nat) (ops : Array Op) (pointer : Nat) :
    Array Op × Nat := Id.run do
  let mut ops := ops
  let mut pointer := pointer
  for _ in List.range fuel do
    if pointer = 0 ∨ pointer ≥ ops.size then break
    let this := opAt ops pointer
    let prev := opAt ops (pointer - 1)
    if (this.isInsert || this.isDelete) && prev.isEqual then
      let same :=
        if this.isInsert then rangeTail old new prev.oldRange this.newRange
        else rangeTail old old prev.oldRange this.oldRange
      if same > 0 then
        if (opAt ops (pointer + 1)).isEqual then
          ops := ops.setIfInBounds (pointer + 1) ((opAt ops (pointer + 1)).growLeft same)
        else
          ops := insertAt ops (pointer + 1)
            (.equal (prev.oldRange.2 - same) (this.newRange.2 - same) same)
        ops := ops.setIfInBounds pointer ((opAt ops pointer).shiftLeft same)
        ops := ops.setIfInBounds (pointer - 1) ((opAt ops (pointer - 1)).shrinkLeft same)
        if (opAt ops (pointer - 1)).isEmpty then
          ops := removeAt ops (pointer - 1)
          pointer := pointer - 1
      else if prev.isEmpty then
        ops := removeAt ops (pointer - 1)
        pointer := pointer - 1
      else break
    else if (this.isInsert && prev.isDelete) || (this.isDelete && prev.isInsert) then
      ops := swapAt ops (pointer - 1) pointer
      pointer := pointer - 1
    else if this.isInsert && prev.isInsert then
      ops := ops.setIfInBounds (pointer - 1) (prev.growRight (this.newRange.2 - this.newRange.1))
      ops := removeAt ops pointer
      pointer := pointer - 1
    else if this.isDelete && prev.isDelete then
      ops := ops.setIfInBounds (pointer - 1) (prev.growRight (this.oldRange.2 - this.oldRange.1))
      ops := removeAt ops pointer
      pointer := pointer - 1
    else break
  return (ops, pointer)

/-- Slides the insertion or deletion at `pointer` towards the end while the equal run after it
starts with the same items, merging it into changes it meets; gives the runs and where the change
ended up. At most `fuel` moves are made. -/
def shiftDown {α : Type} [BEq α] (old new : Array α) (fuel : Nat) (ops : Array Op) (pointer : Nat) :
    Array Op × Nat := Id.run do
  let mut ops := ops
  let mut pointer := pointer
  for _ in List.range fuel do
    if pointer + 1 ≥ ops.size then break
    let this := opAt ops pointer
    let next := opAt ops (pointer + 1)
    if (this.isInsert || this.isDelete) && next.isEqual then
      let same :=
        if this.isInsert then rangeHead old new next.oldRange this.newRange
        else rangeHead old old next.oldRange this.oldRange
      if same > 0 then
        if pointer ≥ 1 && (opAt ops (pointer - 1)).isEqual then
          ops := ops.setIfInBounds (pointer - 1) ((opAt ops (pointer - 1)).growRight same)
        else
          ops := insertAt ops pointer (.equal next.oldRange.1 this.newRange.1 same)
          pointer := pointer + 1
        ops := ops.setIfInBounds pointer ((opAt ops pointer).shiftRight same)
        ops := ops.setIfInBounds (pointer + 1) ((opAt ops (pointer + 1)).shrinkRight same)
        if (opAt ops (pointer + 1)).isEmpty then
          ops := removeAt ops (pointer + 1)
      else if next.isEmpty then
        ops := removeAt ops (pointer + 1)
      else break
    else if (this.isInsert && next.isDelete) || (this.isDelete && next.isInsert) then
      ops := swapAt ops pointer (pointer + 1)
      pointer := pointer + 1
    else if this.isInsert && next.isInsert then
      ops := ops.setIfInBounds pointer (this.growRight (next.newRange.2 - next.newRange.1))
      ops := removeAt ops (pointer + 1)
    else if this.isDelete && next.isDelete then
      ops := ops.setIfInBounds pointer (this.growRight (next.oldRange.2 - next.oldRange.1))
      ops := removeAt ops (pointer + 1)
    else break
  return (ops, pointer)

/-- Slides every change of kind `pick` up and then down, in order. -/
def compactKind {α : Type} [BEq α] (old new : Array α) (pick : Op → Bool) (ops : Array Op) :
    Array Op := Id.run do
  let fuel := 4 * (ops.size + old.size + new.size) + 8
  let mut ops := ops
  let mut pointer := 0
  for _ in List.range fuel do
    if pointer ≥ ops.size then break
    if pick (opAt ops pointer) then
      let (up, p) := shiftUp old new fuel ops pointer
      let (down, p) := shiftDown old new fuel up p
      ops := down
      pointer := p
    pointer := pointer + 1
  return ops

/-- The script with deletions, then insertions, slid to join each other where they can. -/
def compact {α : Type} [BEq α] (old new : Array α) (ops : List Op) : List Op :=
  (compactKind old new Op.isInsert (compactKind old new Op.isDelete ops.toArray)).toList

/-- Pending runs while joining a script: an equal run, or a deletion and an insertion. -/
structure Pending where
  equal : Option (Nat × Nat × Nat)
  deleted : Option (Nat × Nat × Nat)
  inserted : Option (Nat × Nat × Nat)

/-- The script written so far with the pending deletion and insertion written out, as one
replacement when there are both. -/
def flushChanges (out : List Op) (p : Pending) : List Op × Pending :=
  match p.deleted, p.inserted with
  | some (o, ol, _), some (_, n, nl) => (out ++ [.replace o ol n nl], { p with deleted := none, inserted := none })
  | some (o, ol, n), none => (out ++ [.delete o ol n], { p with deleted := none })
  | none, some (o, n, nl) => (out ++ [.insert o n nl], { p with inserted := none })
  | none, none => (out, p)

/-- The script written so far with the pending equal run written out. -/
def flushEqual (out : List Op) (p : Pending) : List Op × Pending :=
  match p.equal with
  | some (o, n, len) => (out ++ [.equal o n len], { p with equal := none })
  | none => (out, p)

/-- The script with adjacent equal runs merged and each deletion with the insertion next to it
made one replacement. -/
def joinReplacements (ops : List Op) : List Op :=
  let step := fun (acc : List Op × Pending) (op : Op) =>
    let (out, p) := acc
    match op with
    | .equal o n len =>
      let (out, p) := flushChanges out p
      let equal := match p.equal with
        | some (eo, en, el) => some (eo, en, el + len)
        | none => some (o, n, len)
      (out, { p with equal })
    | .delete o len n =>
      let (out, p) := flushEqual out p
      let deleted := match p.deleted with
        | some (dOld, dl, dn) => some (dOld, dl + len, dn)
        | none => some (o, len, n)
      (out, { p with deleted })
    | .insert o n len =>
      let (out, p) := flushEqual out p
      let inserted := match p.inserted with
        | some (io, inn, il) => some (io, inn, il + len)
        | none => some (o, n, len)
      (out, { p with inserted })
    | .replace .. =>
      let (out, p) := flushEqual out p
      (out ++ [op], p)
  let (out, p) := ops.foldl step ([], ⟨none, none, none⟩)
  let (out, p) := flushEqual out p
  (flushChanges out p).1

/-- The equal run cut down to its last `n` items. -/
def keepLast (n : Nat) : Op → Op
  | .equal o nw len => let cut := len - n; .equal (o + cut) (nw + cut) (len - cut)
  | op => op

/-- The equal run cut down to its first `n` items. -/
def keepFirst (n : Nat) : Op → Op
  | .equal o nw len => .equal o nw (len - (len - n))
  | op => op

/-- The script cut into hunks with up to `context` equal items around each change. -/
def hunks (context : Nat) (ops : List Op) : List (List Op) :=
  if ops.isEmpty then []
  else
    let ops := match ops with
      | first :: rest => keepLast context first :: rest
      | [] => []
    let ops := match ops.reverse with
      | last :: rest => (keepFirst context last :: rest).reverse
      | [] => []
    let (done, pending) := ops.foldl (fun (acc : List (List Op) × List Op) op =>
      let (done, pending) := acc
      match op with
      | .equal o n len =>
        if len > 2 * context then
          let cut := len - context
          (done ++ [pending ++ [.equal o n context]], [.equal (o + cut) (n + cut) (len - cut)])
        else (done, pending ++ [op])
      | _ => (done, pending ++ [op])) ([], [])
    let done := match pending with
      | [] | [.equal ..] => done
      | _ => done ++ [pending]
    done.filter (!·.isEmpty)

/-- A range of a hunk header: the first line and the count, the count left out when it is one;
an empty range names the line before it. -/
def rangeText (range : Nat × Nat) : String :=
  let len := range.2 - range.1
  if len = 1 then toString (range.1 + 1)
  else
    let first := if len = 0 then range.1 else range.1 + 1
    s!"{first},{len}"

/-- Whether a line ends with a line break. -/
def endsWithBreak (line : String) : Bool :=
  line.endsWith "\n" || line.endsWith "\r"

/-- The lines of a hunk, each marked ` `, `-` or `+`. -/
def hunkLines (old new : Array String) (ops : List Op) : List (Char × String) :=
  ops.flatMap fun op =>
    let olds := (List.range (op.oldRange.2 - op.oldRange.1)).map fun i => old.getD (op.oldRange.1 + i) ""
    let news := (List.range (op.newRange.2 - op.newRange.1)).map fun i => new.getD (op.newRange.1 + i) ""
    match op with
    | .equal .. => olds.map (' ', ·)
    | .delete .. => olds.map ('-', ·)
    | .insert .. => news.map ('+', ·)
    | .replace .. => olds.map ('-', ·) ++ news.map ('+', ·)

/-- One hunk in the unified format. -/
def hunkText (old new : Array String) (ops : List Op) : String :=
  match ops.head?, ops.getLast? with
  | some first, some last =>
    let header := "@@ -" ++ rangeText (first.oldRange.1, last.oldRange.2) ++ " +" ++
      rangeText (first.newRange.1, last.newRange.2) ++ " @@\n"
    header ++ String.join ((hunkLines old new ops).map fun (mark, line) =>
      mark.toString ++ line ++ (if endsWithBreak line then "" else "\n\\ No newline at end of file\n"))
  | _, _ => ""

/-- The lines of a text, each with its line break: a line ends at a line feed, a carriage return
with a line feed, or a carriage return alone. -/
def splitKeepingBreaks (text : String) : List String :=
  let rec go : List Char → List Char → List String
    | [], line => if line.isEmpty then [] else [String.ofList line.reverse]
    | '\r' :: '\n' :: rest, line => String.ofList ('\n' :: '\r' :: line).reverse :: go rest []
    | '\r' :: rest, line => String.ofList ('\r' :: line).reverse :: go rest []
    | '\n' :: rest, line => String.ofList ('\n' :: line).reverse :: go rest []
    | c :: rest, line => go rest (c :: line)
  go text.toList []

/-- The unified diff from `oldText` to `newText` with headers naming them; empty when the texts
have the same lines. -/
def unified (oldText newText oldName newName : String) : String :=
  let old := (splitKeepingBreaks oldText).toArray
  let new := (splitKeepingBreaks newText).toArray
  let ops := joinReplacements (compact old new (editScript old new))
  match hunks 3 ops with
  | [] => ""
  | hs => s!"--- {oldName}\n+++ {newName}\n" ++ String.join (hs.map (hunkText old new))

end Diff

end DocExamples
