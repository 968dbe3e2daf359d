namespace DocExamples

namespace Similarity

/-- A score as a fraction `num / den`. -/
structure Score where
  num : Nat
  den : Nat
  deriving DecidableEq, Repr

/-- Whether one score is at most another. -/
def Score.le (s t : Score) : Bool :=
  s.num * t.den ≤ t.num * s.den

/-- The characters of `b` that the characters of `a` match, in order, given the window around each
position of `a`; `taken` marks the positions of `b` already matched. -/
def matchFlags (b : List Char) (window : Nat) : List (Char × Nat) → List Bool → List Bool × List Bool
  | [], taken => ([], taken)
  | (x, i) :: rest, taken =>
    let lo := i - window
    let hi := min b.length (i + window + 1)
    match (List.range hi).find? fun j => lo ≤ j && b[j]? == some x && taken[j]? == some false with
    | some j =>
      let (flags, taken') := matchFlags b window rest (taken.set j true)
      (true :: flags, taken')
    | none =>
      let (flags, taken') := matchFlags b window rest taken
      (false :: flags, taken')

/-- The characters of a word at the flagged positions. -/
def flagged (word : List Char) (flags : List Bool) : List Char :=
  (word.zip flags).filterMap fun (c, f) => if f then some c else none

/-- The Jaro similarity of two words. -/
def jaro (a b : List Char) : Score :=
  if a.isEmpty && b.isEmpty then ⟨1, 1⟩
  else if a.isEmpty || b.isEmpty then ⟨0, 1⟩
  else
    let window := max a.length b.length / 2 - 1
    let (aFlags, bFlags) := matchFlags b window a.zipIdx (List.replicate b.length false)
    let ma := flagged a aFlags
    let mb := flagged b bFlags
    let m := ma.length
    let t := ((ma.zip mb).filter fun (x, y) => x != y).length / 2
    if m = 0 then ⟨0, 1⟩
    else ⟨m * m * b.length + m * m * a.length + a.length * b.length * (m - t),
      3 * a.length * b.length * m⟩

/-- The candidates more than 0.7 similar to the word, from the least similar to the most; of
candidates equally similar, the earlier stays first. -/
def suggestions (word : String) (candidates : List String) : List String :=
  let scored := candidates.filterMap fun c =>
    let s := jaro word.toList c.toList
    if 7 * s.den < 10 * s.num then some (s, c) else none
  (scored.mergeSort fun x y => x.1.le y.1).map Prod.snd

/-- The candidate most similar to the word, if one is more than 0.7 similar; of candidates equally
similar, the last. -/
def best? (word : String) (candidates : List String) : Option String :=
  (suggestions word candidates).getLast?

end Similarity

end DocExamples
