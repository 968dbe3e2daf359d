import Mathlib
import DocExamples.Diagnostic.SyntaxError
import DocExamples.Proofs.Encoding

namespace DocExamples

namespace Utf8

theorem continuation_error_le_length {count : Nat} {lo hi : UInt8} {acc : Nat} {bytes : List UInt8}
    {good : Nat} (h : continuation count lo hi acc bytes = .error good) : good ≤ bytes.length := by
  induction count generalizing lo hi acc bytes good with
  | zero => simp [continuation] at h
  | succ count ih =>
    cases bytes with
    | nil =>
      simp only [continuation, Except.error.injEq] at h
      simp [← h]
    | cons b rest =>
      simp only [continuation] at h
      split at h
      · split at h
        · simp at h
        · rename_i inner
          simp only [Except.error.injEq] at h
          have := ih inner
          simp only [List.length_cons]
          omega
      · simp only [Except.error.injEq] at h
        omega

theorem decodeChar_size_le {bytes : List UInt8} {d : Decoded} (h : decodeChar bytes = some d) :
    d.size ≤ bytes.length := by
  cases bytes with
  | nil => simp [decodeChar] at h
  | cons lead rest =>
    simp only [decodeChar] at h
    split at h
    · cases h
      simp [Decoded.size]
    · split at h
      · cases h
        simp [Decoded.size]
      · split at h
        · rename_i read
          cases h
          simp [Decoded.size, continuation_length read]
        · rename_i read
          cases h
          simp [Decoded.size, continuation_error_le_length read]

theorem decodeChar_isSome {bytes : List UInt8} (nonempty : bytes ≠ []) : (decodeChar bytes).isSome := by
  cases bytes with
  | nil => exact absurd rfl nonempty
  | cons lead rest =>
    simp only [decodeChar]
    split
    · rfl
    · split
      · rfl
      · split <;> rfl

end Utf8

/-- Byte ranges `(start, stop)`, each not empty, that follow one another without a gap from `a`
to `c`. -/
inductive Tiles : List (Nat × Nat) → Nat → Nat → Prop
  | nil (a : Nat) : Tiles [] a a
  | cons {a b c : Nat} {rest : List (Nat × Nat)} : a < b → Tiles rest b c → Tiles ((a, b) :: rest) a c

theorem Tiles.of_cons {range : Nat × Nat} {rest : List (Nat × Nat)} {a c : Nat}
    (tiles : Tiles (range :: rest) a c) : range.1 = a ∧ range.1 < range.2 ∧ Tiles rest range.2 c := by
  cases tiles with
  | cons lt rest => exact ⟨rfl, lt, rest⟩

theorem Tiles.le {ranges : List (Nat × Nat)} {a c : Nat} (tiles : Tiles ranges a c) : a ≤ c := by
  induction tiles with
  | nil => exact Nat.le_refl _
  | cons lt _ ih => omega

/-- A character of a line placed in its excerpt: what was decoded, the byte it starts at and the
display cells before it. -/
structure Placed where
  item : Decoded
  offset : Nat
  width : Nat

namespace Placed

/-- The bytes the character covers. -/
def range (p : Placed) : Nat × Nat :=
  (p.offset, p.offset + p.item.size)

/-- The display cells the character takes: a tab reaches the next tab stop, any other character
takes one. -/
def cells (p : Placed) : Nat :=
  if p.item.toChar = '\t' then tabWidth - p.width % tabWidth else 1

/-- The character as the excerpt shows it: a tab as spaces, any other as itself. -/
def shown (p : Placed) : List Char :=
  if p.item.toChar = '\t' then List.replicate p.cells ' ' else [p.item.toChar]

/-- Whether the bytes of the character meet the byte range `lo..hi`, end excluded. -/
def meets (p : Placed) (lo hi : Nat) : Bool :=
  decide (p.offset < hi ∧ lo < p.offset + p.item.size)

/-- The cells of the marker line under the character. -/
def marks (lo hi : Nat) (p : Placed) : List Char :=
  List.replicate p.cells (if p.meets lo hi then '^' else ' ')

theorem cells_pos (p : Placed) : 0 < p.cells := by
  unfold cells tabWidth
  split <;> omega

theorem length_shown (p : Placed) : p.shown.length = p.cells := by
  unfold shown
  split
  · simp
  · simp [cells, *]

end Placed

/-- The characters placed one after another from byte `offset` and display cell `width` on. -/
def place : List Decoded → Nat → Nat → List Placed
  | [], _, _ => []
  | d :: rest, offset, width =>
    ⟨d, offset, width⟩ :: place rest (offset + d.size) (width + (⟨d, offset, width⟩ : Placed).cells)

@[simp] theorem place_nil (offset width : Nat) : place [] offset width = [] := rfl

/-- Reading bytes character by character tiles them, each character being what `decodeChar`
reads where it starts. Induction along the reading. -/
theorem place_decodeAll (bytes : List UInt8) (offset width : Nat) :
    Tiles ((place (Utf8.decodeAll bytes) offset width).map Placed.range) offset (offset + bytes.length) ∧
      ∀ p ∈ place (Utf8.decodeAll bytes) offset width,
        offset ≤ p.offset ∧ Utf8.decodeChar (bytes.drop (p.offset - offset)) = some p.item := by
  fun_induction Utf8.decodeAll bytes generalizing offset width with
  | case1 bytes none =>
    have empty : bytes = [] := by
      by_contra nonempty
      simpa [none] using Utf8.decodeChar_isSome nonempty
    subst empty
    simpa using Tiles.nil offset
  | case2 bytes d read ih =>
    have pos := Utf8.decodeChar_size_pos read
    have within := Utf8.decodeChar_size_le read
    obtain ⟨tiles, decoded⟩ := ih (offset + d.size) (width + (⟨d, offset, width⟩ : Placed).cells)
    rw [List.length_drop, show offset + d.size + (bytes.length - d.size) = offset + bytes.length by omega]
      at tiles
    refine ⟨.cons (show offset < offset + d.size by omega) tiles, ?_⟩
    intro p member
    rcases List.mem_cons.mp member with first | later
    · subst first
      simpa using read
    · obtain ⟨after, there⟩ := decoded p later
      refine ⟨by omega, ?_⟩
      rw [List.drop_drop] at there
      rwa [show d.size + (p.offset - (offset + d.size)) = p.offset - offset by omega] at there

theorem excerptFrom_place (lo hi : Nat) (ds : List Decoded) (width offset : Nat) :
    SyntaxError.excerptFrom lo hi ds width offset =
      (String.ofList ((place ds offset width).flatMap Placed.shown),
        String.ofList ((place ds offset width).flatMap (Placed.marks lo hi))) := by
  induction ds generalizing width offset with
  | nil => rfl
  | cons d rest ih =>
    simp only [SyntaxError.excerptFrom, ih, place, List.flatMap_cons, String.ofList_append, Prod.mk.injEq]
    constructor
    · congr 1
      apply String.ext
      simp only [Placed.shown, Placed.cells]
      split <;> simp
    · simp [Placed.marks, Placed.meets, Placed.cells]

theorem place_width (ds : List Decoded) (offset width : Nat) :
    ∀ i (inside : i < (place ds offset width).length),
      (place ds offset width)[i].width = width + (((place ds offset width).take i).map Placed.cells).sum := by
  induction ds generalizing offset width with
  | nil => simp
  | cons d rest ih =>
    intro i inside
    cases i with
    | zero => simp [place]
    | succ i =>
      simp only [place, List.getElem_cons_succ, List.take_succ_cons, List.map_cons, List.sum_cons]
      rw [ih _ _ i (by simpa [place] using inside), Nat.add_assoc]

section Marks

variable {lo hi : Nat}

theorem marks_of_not_meets {p : Placed} (away : p.meets lo hi = false) :
    Placed.marks lo hi p = List.replicate p.cells ' ' := by
  simp [Placed.marks, away]

theorem marks_of_meets {p : Placed} (meets : p.meets lo hi = true) :
    Placed.marks lo hi p = List.replicate p.cells '^' := by
  simp [Placed.marks, meets]

/-- Under characters that tile the bytes from `a` to `c`, the marker line for the byte range
`lo..hi` is spaces, carets, spaces: carets exactly when the range meets `a..c`, spaces after them
only when the range ends before `c`, and none before them when the characters start after `lo`.
Induction on the characters, which meet the range one after another. -/
theorem marks_shape (span : lo < hi) :
    ∀ {P : List Placed} {a c : Nat}, Tiles (P.map Placed.range) a c →
      ∃ x y z, P.flatMap (Placed.marks lo hi) =
          List.replicate x ' ' ++ List.replicate y '^' ++ List.replicate z ' ' ∧
        (0 < y ↔ max lo a < min hi c) ∧ (0 < z → hi < c) ∧ (lo < a → x = 0)
  | [], a, c, tiles => by
    cases tiles
    exact ⟨0, 0, 0, rfl, by omega, by omega, fun _ => rfl⟩
  | p :: rest, a, c, tiles => by
    obtain ⟨start, nonempty, tilesRest⟩ := Tiles.of_cons tiles
    simp only [Placed.range] at start nonempty tilesRest
    have ends := tilesRest.le
    obtain ⟨x, y, z, shape, carets, spaces, noneBefore⟩ := marks_shape span tilesRest
    rw [List.flatMap_cons, shape]
    by_cases before : p.offset + p.item.size ≤ lo
    · have away : p.meets lo hi = false := by simp [Placed.meets]; omega
      refine ⟨p.cells + x, y, z, ?_, carets.trans (by omega), spaces, fun _ => by omega⟩
      rw [marks_of_not_meets away, ← List.replicate_append_replicate]
      simp only [List.append_assoc]
    by_cases after : hi ≤ p.offset
    · have away : p.meets lo hi = false := by simp [Placed.meets]; omega
      have noCarets : y = 0 := by
        by_contra some
        have := carets.mp (by omega)
        omega
      obtain rfl : x = 0 := noneBefore (by omega)
      subst noCarets
      refine ⟨0, 0, p.cells + z, ?_, by omega, fun _ => by omega, fun _ => rfl⟩
      rw [marks_of_not_meets away, ← List.replicate_append_replicate]
      simp
    · have meets : p.meets lo hi = true := by simp [Placed.meets]; omega
      obtain rfl : x = 0 := noneBefore (by omega)
      refine ⟨0, p.cells + y, z, ?_, ⟨fun _ => by omega, fun _ => by have := p.cells_pos; omega⟩,
        spaces, fun _ => rfl⟩
      rw [marks_of_meets meets, ← List.replicate_append_replicate]
      simp only [List.replicate_zero, List.nil_append, List.append_assoc]

end Marks

/-- Spaces, carets and spaces again, then more carets, are spaces, carets and spaces when there
are carets before the last spaces or none after them. -/
theorem caret_run {x y z extra : Nat} (run : 0 < y + extra) (joined : 0 < extra → z = 0) :
    ∃ a b c, List.replicate x ' ' ++ List.replicate y '^' ++ List.replicate z ' ' ++ List.replicate extra '^' =
      List.replicate a ' ' ++ List.replicate (b + 1) '^' ++ List.replicate c ' ' := by
  by_cases past : 0 < extra
  · obtain rfl := joined past
    refine ⟨x, y + extra - 1, 0, ?_⟩
    rw [Nat.sub_add_cancel run, ← List.replicate_append_replicate]
    simp
  · obtain rfl : extra = 0 := by omega
    refine ⟨x, y - 1, z, ?_⟩
    rw [Nat.sub_add_cancel (by omega)]
    simp

/-- The excerpt of an error over its line. Reading the line with `decodeChar`, a bad stretch being
one U+FFFD, gives characters whose byte ranges tile the line. The excerpt shows them in turn, a
tab as spaces up to the next stop of eight cells, counting the cells before it; the marker line
has, under the cells of each character, carets when its bytes meet the error's byte range
`colStart - 1 .. colEnd` and spaces otherwise, then as many carets as the range runs past the end
of the line. So the carets of the marker line are one run of at least one. -/
theorem excerpt_spec (e : SyntaxError) :
    let lo := e.colStart - 1
    let hi := e.colEnd
    let placed := place (Utf8.decodeAll e.line.text) 0 0
    let extra := hi - max lo e.line.text.length
    Tiles (placed.map Placed.range) 0 e.line.text.length ∧
    (∀ p ∈ placed, Utf8.decodeChar (e.line.text.drop p.offset) = some p.item) ∧
    (∀ i (inside : i < placed.length), placed[i].width = ((placed.take i).map Placed.cells).sum) ∧
    (∀ p ∈ placed, p.shown.length = p.cells) ∧
    e.excerpt.1.toList = placed.flatMap Placed.shown ∧
    e.excerpt.2.toList = placed.flatMap (Placed.marks lo hi) ++ List.replicate extra '^' ∧
    ∃ a b c, e.excerpt.2.toList =
      List.replicate a ' ' ++ List.replicate (b + 1) '^' ++ List.replicate c ' ' := by
  intro lo hi placed extra
  have span : lo < hi := by
    have := e.start_pos
    have := e.start_le_end
    omega
  obtain ⟨tiles, decoded⟩ := place_decodeAll e.line.text 0 0
  rw [Nat.zero_add] at tiles
  have excerptIs : e.excerpt = (String.ofList (placed.flatMap Placed.shown),
      String.ofList (placed.flatMap (Placed.marks lo hi)) ++ String.ofList (List.replicate extra '^')) := by
    simp only [SyntaxError.excerpt, excerptFrom_place]
    rfl
  have markerIs : e.excerpt.2.toList = placed.flatMap (Placed.marks lo hi) ++ List.replicate extra '^' := by
    rw [excerptIs]
    simp
  refine ⟨tiles, fun p member => by simpa using (decoded p member).2,
    fun i inside => by simpa using place_width _ 0 0 i inside, fun p _ => p.length_shown,
    by rw [excerptIs]; simp, markerIs, ?_⟩
  obtain ⟨x, y, z, shape, carets, spaces, -⟩ := marks_shape span tiles
  rw [markerIs, shape]
  apply caret_run
  · by_cases inside : lo < e.line.text.length
    · have := carets.mpr (by omega)
      omega
    · omega
  · intro past
    by_contra some
    have := spaces (by omega)
    omega

end DocExamples
