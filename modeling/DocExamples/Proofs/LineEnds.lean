import DocExamples.Check.Document

namespace DocExamples

/-- The bytes with every line feed written as a carriage return and a line feed. -/
def crlfLineEnds (bytes : List UInt8) : List UInt8 :=
  bytes.flatMap fun b => if b = 10 then [13, 10] else [b]

/-- The parts of a split at line feeds with a carriage return put back at the end of every part
but the last, which no line feed followed. -/
def markLineEnds : List (List UInt8) → List (List UInt8)
  | [] => []
  | [last] => [last]
  | part :: next :: rest => (part ++ [13]) :: markLineEnds (next :: rest)

theorem markLineEnds_modifyHead (b : UInt8) (parts : List (List UInt8)) :
    markLineEnds (parts.modifyHead (b :: ·)) = (markLineEnds parts).modifyHead (b :: ·) := by
  match parts with
  | [] => rfl
  | [last] => rfl
  | part :: next :: rest => rfl

/-- Splitting the bytes written with carriage returns gives the same parts, each but the last with
its carriage return. -/
theorem splitOn_crlfLineEnds (bytes : List UInt8) :
    (crlfLineEnds bytes).splitOn 10 = markLineEnds (bytes.splitOn 10) := by
  induction bytes with
  | nil => rfl
  | cons b rest ih =>
    have crlf : crlfLineEnds (b :: rest) = (if b = 10 then [13, 10] else [b]) ++ crlfLineEnds rest :=
      List.flatMap_cons
    by_cases feed : b = 10
    · subst feed
      obtain ⟨first, more, parts⟩ := List.exists_cons_of_ne_nil (List.splitOn_ne_nil 10 rest)
      rw [crlf, if_pos rfl, List.cons_append, List.cons_append, List.nil_append,
        List.splitOn_cons_eq_if_modifyHead, List.splitOn_cons_eq_if_modifyHead, ih,
        List.splitOn_cons_eq_if_modifyHead, parts]
      simp [markLineEnds]
    · rw [crlf, if_neg feed, List.singleton_append, List.splitOn_cons_eq_if_modifyHead,
        List.splitOn_cons_eq_if_modifyHead, ih]
      simp [feed, markLineEnds_modifyHead]

theorem getLast?_crlfLineEnds (bytes : List UInt8) :
    (crlfLineEnds bytes).getLast? = bytes.getLast? := by
  rcases List.eq_nil_or_concat bytes with empty | ⟨front, last, rfl⟩
  · subst empty
    rfl
  · by_cases feed : last = 10 <;> simp [crlfLineEnds, feed]

theorem not_mem_of_mem_splitOn {bytes : List UInt8} {x : UInt8} (absent : x ∉ bytes) :
    ∀ part ∈ bytes.splitOn 10, x ∉ part := by
  induction bytes with
  | nil => simp
  | cons b rest ih =>
    simp only [List.mem_cons, not_or] at absent
    obtain ⟨other, absentRest⟩ := absent
    rw [List.splitOn_cons_eq_if_modifyHead]
    obtain ⟨first, more, parts⟩ := List.exists_cons_of_ne_nil (List.splitOn_ne_nil 10 rest)
    have inRest := ih absentRest
    rw [parts] at inRest ⊢
    split
    · intro part member
      rcases List.mem_cons.mp member with rfl | later
      · simp
      · exact inRest part later
    · intro part member
      rcases List.mem_cons.mp member with rfl | later
      · simp only [List.mem_cons, not_or]
        exact ⟨other, inRest first List.mem_cons_self⟩
      · exact inRest part (List.mem_cons_of_mem _ later)

/-- The lines of a document: split at line feeds, a last empty line after a final line feed not
counted, each without a carriage return at its end. -/
def splitLines (bytes : List UInt8) : List (List UInt8) :=
  let parts := bytes.splitOn 10
  let parts := if bytes.isEmpty || bytes.getLast? = some 10 then parts.dropLast else parts
  parts.map dropReturn

/-- The lines of a document as its check reads them: split at line feeds and numbered from 1. -/
def documentLines (file : String) (bytes : List UInt8) : List Line :=
  (splitLines bytes).mapIdx fun i text => ⟨text, file, i + 1⟩

theorem dropReturn_append_return (text : List UInt8) : dropReturn (text ++ [13]) = text := by
  simp [dropReturn]

theorem dropReturn_of_not_mem {text : List UInt8} (absent : 13 ∉ text) : dropReturn text = text := by
  have notLast : text.getLast? ≠ some 13 := fun last => absent (List.mem_of_getLast? last)
  simp [dropReturn, notLast]

theorem markLineEnds_ne_nil {parts : List (List UInt8)} (nonempty : parts ≠ []) :
    markLineEnds parts ≠ [] := by
  match parts, nonempty with
  | [_], _ => simp [markLineEnds]
  | _ :: _ :: _, _ => simp [markLineEnds]

theorem dropLast_markLineEnds (parts : List (List UInt8)) :
    ((markLineEnds parts).dropLast).map dropReturn = parts.dropLast := by
  match parts with
  | [] => rfl
  | [last] => rfl
  | part :: next :: rest =>
    rw [markLineEnds, List.dropLast_cons_of_ne_nil (markLineEnds_ne_nil (List.cons_ne_nil _ _)),
      List.dropLast_cons_of_ne_nil (List.cons_ne_nil _ _), List.map_cons, dropReturn_append_return,
      dropLast_markLineEnds (next :: rest)]

theorem map_markLineEnds (parts : List (List UInt8)) (clean : ∀ part ∈ parts, 13 ∉ part) :
    (markLineEnds parts).map dropReturn = parts := by
  match parts with
  | [] => rfl
  | [last] => simp [markLineEnds, dropReturn_of_not_mem (clean last List.mem_cons_self)]
  | part :: next :: rest =>
    have := map_markLineEnds (next :: rest) fun part member => clean part (List.mem_cons_of_mem _ member)
    simp_all [markLineEnds, dropReturn_append_return]

theorem splitLines_eq (bytes : List UInt8) :
    splitLines bytes =
      (if bytes.isEmpty || bytes.getLast? = some 10 then (bytes.splitOn 10).dropLast
        else bytes.splitOn 10).map dropReturn := rfl

/-- A document without carriage returns has the same lines when its line feeds are written as
carriage returns and line feeds. -/
theorem splitLines_crlfLineEnds {bytes : List UInt8} (noReturn : 13 ∉ bytes) :
    splitLines (crlfLineEnds bytes) = splitLines bytes := by
  have clean := not_mem_of_mem_splitOn noReturn
  have empty : (crlfLineEnds bytes).isEmpty = bytes.isEmpty := by
    cases bytes with
    | nil => rfl
    | cons b rest => by_cases feed : b = 10 <;> simp [crlfLineEnds, feed]
  rw [splitLines_eq, splitLines_eq, empty, getLast?_crlfLineEnds, splitOn_crlfLineEnds]
  split
  · rw [dropLast_markLineEnds, List.map_congr_left fun part member =>
      dropReturn_of_not_mem (clean part (List.dropLast_subset _ member)), List.map_id']
  · rw [map_markLineEnds _ clean, List.map_congr_left fun part member =>
      dropReturn_of_not_mem (clean part member), List.map_id']

/-- The lines a reader gives, as the check reads them from line `first` on. -/
def numberLines (file : String) : Nat → List (List UInt8) → List Line
  | _, [] => []
  | first, text :: rest => ⟨dropReturn text, file, first⟩ :: numberLines file (first + 1) rest

theorem mapIdx_eq_numberLines (file : String) (texts : List (List UInt8)) :
    ∀ first, (texts.map dropReturn).mapIdx (fun i text => (⟨text, file, i + first⟩ : Line)) =
      numberLines file first texts := by
  induction texts with
  | nil => intro first; rfl
  | cons text rest ih =>
    intro first
    rw [List.map_cons, List.mapIdx_cons, numberLines, ← ih (first + 1), Nat.zero_add]
    congr 2
    funext i line
    rw [Nat.add_right_comm i 1 first, Nat.add_assoc]

/-- The lines of a document are the reader's lines, numbered from 1. -/
theorem documentLines_eq_numberLines (file : String) (bytes : List UInt8) :
    documentLines file bytes = numberLines file 1
      (if bytes.isEmpty || bytes.getLast? = some 10 then (bytes.splitOn 10).dropLast
        else bytes.splitOn 10) := by
  rw [documentLines, splitLines_eq, mapIdx_eq_numberLines]

theorem numberLines_numbers (file : String) (texts : List (List UInt8)) :
    (numberLines file 1 texts).Pairwise fun a b => a.number < b.number := by
  rw [← mapIdx_eq_numberLines, List.pairwise_iff_getElem]
  intro i j _ _ lt
  simp [lt]

namespace Project

variable (p : Project) (file : String)

/-- Reading lines that were all read one after another feeds them, numbered on from `first`, and
goes on with what the reader gives next. -/
theorem readLines_append_ok (texts : List (List UInt8)) (more : List (Except IoFailure (List UInt8))) :
    ∀ first, p.readLines file first (texts.map .ok ++ more) =
      ((numberLines file first texts).forM p.feed >>= fun _ => p.readLines file (first + texts.length) more) := by
  induction texts with
  | nil => intro first; simp [numberLines]
  | cons text rest ih =>
    intro first
    have fed : (numberLines file first (text :: rest)).forM p.feed =
        (p.feed ⟨dropReturn text, file, first⟩ >>= fun _ => (numberLines file (first + 1) rest).forM p.feed) :=
      rfl
    rw [List.map_cons, List.cons_append, readLines, ih (first + 1), fed, bind_assoc, List.length_cons,
      Nat.add_right_comm first 1, Nat.add_assoc]

theorem readLines_readerLines (bytes : List UInt8) :
    p.readLines file 1 (readerLines bytes) = (documentLines file bytes).forM p.feed := by
  have whole := p.readLines_append_ok file
    (if bytes.isEmpty || bytes.getLast? = some 10 then (bytes.splitOn 10).dropLast
      else bytes.splitOn 10) [] 1
  rw [List.append_nil] at whole
  rw [readerLines, whole, readLines, bind_pure, documentLines_eq_numberLines]

/-- A document's bytes are checked line after line, and the end of the document follows. -/
theorem checkDocument_eq (bytes : List UInt8) :
    p.checkDocument file bytes = runCheck file ((documentLines file bytes).forM p.feed *> p.finish) := by
  rw [checkDocument, checkReader, readLines_readerLines]

end Project

/-- A document without carriage returns checks the same when its lines end in carriage returns
and line feeds: the same report, warnings and all, or the same error, and the same events. -/
theorem checkDocument_crlfLineEnds (p : Project) (file : String) {bytes : List UInt8}
    (noReturn : 13 ∉ bytes) :
    p.checkDocument file (crlfLineEnds bytes) = p.checkDocument file bytes := by
  rw [Project.checkDocument_eq, Project.checkDocument_eq, documentLines, documentLines,
    splitLines_crlfLineEnds noReturn]

/-- A session block, `` ```sh ``, `$ hebfmt` and `` ``` `` on lines of their own, written with
carriage returns and line feeds. -/
theorem checkDocument_crlfLineEnds_session :
    (13 : UInt8) ∉ [96, 96, 96, 115, 104, 10, 36, 32, 104, 101, 98, 102, 109, 116, 10, 96, 96, 96, 10] ∧
      Project.checkDocument ⟨Config.default, ⟨⟨Dict.empty, []⟩, some [], "."⟩⟩ "README.md"
          (crlfLineEnds
            [96, 96, 96, 115, 104, 10, 36, 32, 104, 101, 98, 102, 109, 116, 10, 96, 96, 96, 10]) =
        Project.checkDocument ⟨Config.default, ⟨⟨Dict.empty, []⟩, some [], "."⟩⟩ "README.md"
          [96, 96, 96, 115, 104, 10, 36, 32, 104, 101, 98, 102, 109, 116, 10, 96, 96, 96, 10] :=
  ⟨by decide, checkDocument_crlfLineEnds _ _ (by decide)⟩

end DocExamples
