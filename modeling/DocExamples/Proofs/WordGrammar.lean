import DocExamples.Proofs.Progress

namespace DocExamples

namespace Cursor

theorem advance_zero (c : Cursor) : c.advance 0 = c :=
  ext rfl (Nat.min_eq_left (by simpa using c.offset_le))

theorem advance_advance (c : Cursor) (m n : Nat) : (c.advance m).advance n = c.advance (m + n) := by
  refine ext rfl ?_
  simp only [advance]
  omega

end Cursor

theorem String.push_append_ofList (s : String) (c : Char) (l : List Char) :
    s.push c ++ String.ofList l = s ++ String.ofList (c :: l) := by
  simp [← String.toList_inj]

namespace Shell

/-- What the character after a backslash stands for in a double-quoted segment: `n`, `r` and `t`
stand for a line feed, a carriage return and a tab, any other character for itself. -/
inductive EscapeMeans : Char → Char → Prop
  | lineFeed : EscapeMeans 'n' '\n'
  | carriageReturn : EscapeMeans 'r' '\r'
  | tab : EscapeMeans 't' '\t'
  | other {e : Char} (notN : e ≠ 'n') (notR : e ≠ 'r') (notT : e ≠ 't') : EscapeMeans e e

theorem unescape_of_escapeMeans {e ch : Char} (means : EscapeMeans e ch) : unescape e = ch := by
  cases means with
  | lineFeed | carriageReturn | tab => rfl
  | other notN notR notT => simp [unescape, notN, notR, notT]

theorem escapeMeans_unescape (e : Char) : EscapeMeans e (unescape e) := by
  by_cases n : e = 'n'
  · subst n; exact .lineFeed
  by_cases r : e = 'r'
  · subst r; exact .carriageReturn
  by_cases t : e = 't'
  · subst t; exact .tab
  simpa [unescape, n, r, t] using EscapeMeans.other n r t

/-- The inside of a double-quoted segment up to its closing quote, with what it stands for: each
character other than a quote or a backslash for itself, and a backslash and any character for
what the escape means. -/
inductive DoubleBody : List UInt8 → List Char → Prop
  | nil : DoubleBody [] []
  | plain {ch : Char} {bytes : List UInt8} {value : List Char} (notQuote : ch ≠ '"')
      (notBackslash : ch ≠ '\\') (more : DoubleBody bytes value) :
      DoubleBody (String.utf8EncodeChar ch ++ bytes) (ch :: value)
  | escape {e ch : Char} {bytes : List UInt8} {value : List Char} (means : EscapeMeans e ch)
      (more : DoubleBody bytes value) :
      DoubleBody (92 :: String.utf8EncodeChar e ++ bytes) (ch :: value)

/-- One piece of a word with the characters it stands for: a double-quoted segment, a
single-quoted one (its bytes read as text, each bad stretch as U+FFFD), a character whose first
byte is not special, or a backslash and any character, taken as it is. -/
inductive WordPiece : List UInt8 → List Char → Prop
  | double {body : List UInt8} {value : List Char} (inside : DoubleBody body value) :
      WordPiece (34 :: body ++ [34]) value
  | single {body : List UInt8} (unquoted : 39 ∉ body) :
      WordPiece (39 :: body ++ [39]) (Utf8.lossy body).toList
  | plain {ch : Char} (notSpecial : ∀ b ∈ (String.utf8EncodeChar ch).head?, specials.contains b = false) :
      WordPiece (String.utf8EncodeChar ch) [ch]
  | escaped {ch : Char} : WordPiece (92 :: String.utf8EncodeChar ch) [ch]

/-- Pieces written one after another, with the characters they stand for. -/
inductive WordPieces : List UInt8 → List Char → Prop
  | nil : WordPieces [] []
  | cons {piece rest : List UInt8} {value more : List Char} (first : WordPiece piece value)
      (others : WordPieces rest more) : WordPieces (piece ++ rest) (value ++ more)

/-- Where reading one character, or a backslash and the character it escapes, fails: a backslash
that ends the line is reported at the backslash, and bytes that are no character are reported
over the bad stretch, after a backslash or not. -/
inductive CharFault : Cursor → SyntaxError → Prop
  | trailing {here : Cursor} (last : here.rest = [92]) :
      CharFault here (here.error .trailingBackslash)
  | badEscape {here : Cursor} {bad : List UInt8} {size : Nat} (escape : here.rest = 92 :: bad)
      (invalid : Utf8.decodeChar bad = some (.invalid size)) :
      CharFault here ((here.advance 1).invalidEncoding size)
  | bad {here : Cursor} {size : Nat} (invalid : Utf8.decodeChar here.rest = some (.invalid size)) :
      CharFault here (here.invalidEncoding size)

/-- Where reading a piece of a word fails. A bare piece fails as a character does; a
double-quoted segment fails as a character of its body does, or runs into the end of the line
and is unterminated from its quote to the end of the line; so is a single-quoted segment with
no closing quote. -/
inductive WordFault : Cursor → SyntaxError → Prop
  | bare {here : Cursor} {e : SyntaxError} (fault : CharFault here e) : WordFault here e
  | double {here : Cursor} {body more : List UInt8} {value : List Char} {e : SyntaxError}
      (opened : here.rest = 34 :: body ++ more) (inside : DoubleBody body value)
      (fault : CharFault (here.advance (body.length + 1)) e) : WordFault here e
  | unterminated {here : Cursor} {body : List UInt8} {value : List Char}
      (opened : here.rest = 34 :: body) (inside : DoubleBody body value) :
      WordFault here (here.errorToEnd .unterminatedString)
  | single {here : Cursor} {body : List UInt8} (opened : here.rest = 39 :: body)
      (unclosed : 39 ∉ body) : WordFault here (here.errorToEnd .unterminatedString)

section DoubleQuoted

variable {start : Cursor}

/-- The body of a double-quoted segment is read character by character, whatever follows it.
Induction on the body; the cursor and what was read so far vary. -/
theorem doubleQuotedFrom_body {body : List UInt8} {value : List Char} (inside : DoubleBody body value) :
    ∀ {cursor : Cursor} {read : String} {more : List UInt8}, cursor.rest = body ++ more →
      doubleQuotedFrom start cursor read =
        doubleQuotedFrom start (cursor.advance body.length) (read ++ String.ofList value) := by
  induction inside with
  | nil =>
    intro cursor read more _
    simp [Cursor.advance_zero]
  | @plain ch bytes value notQuote notBackslash _ ih =>
    intro cursor read more h
    rw [List.append_assoc] at h
    rw [doubleQuotedFrom_plain h notQuote notBackslash, ih (Cursor.rest_advance_char h),
      Cursor.advance_advance, List.length_append, String.length_utf8EncodeChar,
      String.push_append_ofList]
  | @escape e ch bytes value means _ ih =>
    intro cursor read more h
    rw [List.append_assoc] at h
    have after := Cursor.rest_advance_char (Cursor.rest_advance_cons h)
    rw [doubleQuotedFrom_escape h, ih after, Cursor.advance_advance, Cursor.advance_advance,
      unescape_of_escapeMeans means, String.push_append_ofList]
    congr 2
    simp only [List.length_append, List.length_cons, String.length_utf8EncodeChar]
    omega

theorem doubleQuotedFrom_charFault {cursor : Cursor} {e : SyntaxError} (fault : CharFault cursor e)
    (read : String) : doubleQuotedFrom start cursor read = .error e := by
  cases fault with
  | trailing last =>
    have backslash : cursor.rest = String.utf8EncodeChar '\\' ++ [] := last
    rw [doubleQuotedFrom, Cursor.nextChar_of_rest backslash]
    simp only [show ('\\' : Char) ≠ '"' by decide, if_false, if_true]
    rw [Cursor.nextChar_of_rest_nil (Cursor.rest_advance_char backslash)]
  | @badEscape bad size escape invalid =>
    have backslash : cursor.rest = String.utf8EncodeChar '\\' ++ bad := escape
    have escaped : (cursor.advance ('\\').utf8Size).nextChar = some (.invalid size) := by
      rw [Cursor.nextChar, Cursor.rest_advance_char backslash, invalid]
    rw [doubleQuotedFrom, Cursor.nextChar_of_rest backslash]
    simp only [show ('\\' : Char) ≠ '"' by decide, if_false, if_true]
    rw [escaped]
    rfl
  | bad invalid =>
    have unread : cursor.nextChar = some (.invalid _) := invalid
    rw [doubleQuotedFrom, unread]

theorem doubleQuoted_piece {c : Cursor} {body more : List UInt8} {value : List Char}
    (inside : DoubleBody body value) (h : c.rest = 34 :: body ++ 34 :: more) :
    doubleQuoted c = .matched (String.ofList value) (c.advance (body.length + 2)) := by
  have opened : (c.advance 1).rest = body ++ 34 :: more := Cursor.rest_advance_cons h
  rw [doubleQuoted, if_pos (Cursor.peek_of_rest h), doubleQuotedFrom_body inside opened,
    doubleQuotedFrom_close (Cursor.rest_advance_of_rest opened), Cursor.advance_advance,
    Cursor.advance_advance, String.empty_append]
  congr 2
  omega

theorem doubleQuoted_fault {c : Cursor} {body more : List UInt8} {value : List Char} {e : SyntaxError}
    (opened : c.rest = 34 :: body ++ more) (inside : DoubleBody body value)
    (fault : CharFault (c.advance (body.length + 1)) e) : doubleQuoted c = .error e := by
  have after : (c.advance 1).rest = body ++ more := Cursor.rest_advance_cons opened
  rw [doubleQuoted, if_pos (Cursor.peek_of_rest opened), doubleQuotedFrom_body inside after,
    Cursor.advance_advance, Nat.add_comm, doubleQuotedFrom_charFault fault]

theorem doubleQuoted_unterminated {c : Cursor} {body : List UInt8} {value : List Char}
    (opened : c.rest = 34 :: body) (inside : DoubleBody body value) :
    doubleQuoted c = .error (c.errorToEnd .unterminatedString) := by
  have after : (c.advance 1).rest = body ++ [] := by rw [List.append_nil]; exact Cursor.rest_advance_cons opened
  have ended := Cursor.rest_advance_of_rest after
  rw [doubleQuoted, if_pos (Cursor.peek_of_rest opened), doubleQuotedFrom_body inside after,
    doubleQuotedFrom, Cursor.nextChar_of_rest_nil ended]

end DoubleQuoted

theorem findIdx?_quote_eq_none {body : List UInt8} (unquoted : 39 ∉ body) :
    body.findIdx? (· == 39) = none :=
  List.findIdx?_eq_none_iff.mpr fun b member => by
    simpa using fun same : b = 39 => unquoted (same ▸ member)

theorem singleQuoted_piece {c : Cursor} {body more : List UInt8} (unquoted : 39 ∉ body)
    (h : c.rest = 39 :: body ++ 39 :: more) :
    singleQuoted c = .matched (Utf8.lossy body) (c.advance (body.length + 2)) := by
  have opened : (c.advance 1).rest = body ++ 39 :: more := Cursor.rest_advance_cons h
  have found : (body ++ 39 :: more).findIdx? (· == 39) = some body.length := by
    simp [List.findIdx?_append, findIdx?_quote_eq_none unquoted, List.findIdx?_cons]
  rw [singleQuoted, if_pos (Cursor.peek_of_rest h)]
  simp only [opened, found, List.take_left', Cursor.advance_advance]
  congr 2
  omega

theorem singleQuoted_unclosed {c : Cursor} {body : List UInt8} (opened : c.rest = 39 :: body)
    (unclosed : 39 ∉ body) : singleQuoted c = .error (c.errorToEnd .unterminatedString) := by
  rw [singleQuoted, if_pos (Cursor.peek_of_rest opened)]
  simp only [Cursor.rest_advance_cons opened, findIdx?_quote_eq_none unclosed]

section Bare

variable {cursor : Cursor} {value : String}

theorem bareFrom_escape_step {ch : Char} {t : List UInt8}
    (h : cursor.rest = 92 :: String.utf8EncodeChar ch ++ t) :
    bareFrom cursor value = bareFrom ((cursor.advance 1).advance ch.utf8Size) (value.push ch) := by
  rw [bareFrom, Cursor.peek_of_rest h]
  simp only [if_true]
  rw [Cursor.nextChar_of_rest (Cursor.rest_advance_cons h)]

theorem bareFrom_special {b : UInt8} {t : List UInt8} (h : cursor.rest = b :: t)
    (special : specials.contains b = true) (notBackslash : b ≠ 92) :
    bareFrom cursor value = .ok (value, cursor) := by
  rw [bareFrom, Cursor.peek_of_rest h]
  simp [notBackslash, special]

theorem bareFrom_at_quote {b : UInt8} (peeked : cursor.peek = some b) (quote : b = 34 ∨ b = 39) :
    bareFrom cursor value = .ok (value, cursor) := by
  obtain ⟨t, h⟩ : ∃ t, cursor.rest = b :: t := by
    cases rest : cursor.rest with
    | nil => simp [Cursor.peek, rest] at peeked
    | cons b' t => simp only [Cursor.peek, rest, List.head?_cons, Option.some.injEq] at peeked; exact ⟨t, by rw [peeked]⟩
  rcases quote with rfl | rfl
  · exact bareFrom_special h specials_contains_quote (by decide)
  · exact bareFrom_special h specials_contains_apostrophe (by decide)

theorem wide_of_decodeChar_invalid {b : UInt8} {t : List UInt8} {size : Nat}
    (invalid : Utf8.decodeChar (b :: t) = some (.invalid size)) : 0x80 ≤ b.toNat := by
  by_contra narrow
  have ascii : b < 0x80 := by simp only [UInt8.lt_iff_toNat_lt, UInt8.reduceToNat]; omega
  simp [Utf8.decodeChar, ascii] at invalid

theorem bareFrom_charFault {e : SyntaxError} (fault : CharFault cursor e) :
    bareFrom cursor value = .error e := by
  cases fault with
  | trailing last =>
    rw [bareFrom, Cursor.peek_of_rest last]
    simp only [if_true]
    rw [Cursor.nextChar_of_rest_nil (Cursor.rest_advance_cons last)]
  | @badEscape bad size escape invalid =>
    rw [bareFrom, Cursor.peek_of_rest escape]
    simp only [if_true]
    rw [show (cursor.advance 1).nextChar = some (.invalid size) by
      rw [Cursor.nextChar, Cursor.rest_advance_cons escape, invalid]]
  | @bad size invalid =>
    obtain ⟨b, t, h⟩ : ∃ b t, cursor.rest = b :: t := by
      cases rest : cursor.rest with
      | nil => rw [rest] at invalid; simp [Utf8.decodeChar] at invalid
      | cons b t => exact ⟨b, t, rfl⟩
    have wide := wide_of_decodeChar_invalid (h ▸ invalid)
    have notBackslash : b ≠ 92 := by rintro rfl; simp at wide
    have notSpecial : specials.contains b = false := by simp [AsciiSet.contains]; omega
    rw [bareFrom, Cursor.peek_of_rest h]
    simp only [notBackslash, notSpecial, if_false, Bool.false_eq_true]
    rw [show cursor.nextChar = some (.invalid size) from invalid]

theorem bareFrom_append (cursor : Cursor) (pre value : String) :
    bareFrom cursor (pre ++ value) = (bareFrom cursor value).map fun r => (pre ++ r.1, r.2) := by
  fun_induction bareFrom cursor value with
  | case1 cursor value peeked => rw [bareFrom, peeked]; rfl
  | case2 cursor value next none peeked =>
    rw [bareFrom, peeked]
    simp only [if_true]
    rw [none]
    rfl
  | case3 cursor value next size invalid peeked =>
    rw [bareFrom, peeked]
    simp only [if_true]
    rw [invalid]
    rfl
  | case4 cursor value next escaped width escapedRead peeked ih =>
    rw [bareFrom, peeked]
    simp only [if_true]
    rw [escapedRead]
    simpa only [String.push_eq_append, String.append_assoc] using ih
  | case5 cursor value b peeked notBackslash special =>
    rw [bareFrom, peeked]
    simp only [notBackslash, special, if_false, if_true]
    rfl
  | case6 cursor value b peeked notBackslash notSpecial c width read ih =>
    rw [bareFrom, peeked]
    simp only [notBackslash, notSpecial, Bool.false_eq_true, if_false]
    rw [read]
    simpa only [String.push_eq_append, String.append_assoc] using ih
  | case7 cursor value b peeked notBackslash notSpecial size invalid =>
    rw [bareFrom, peeked]
    simp only [notBackslash, notSpecial, Bool.false_eq_true, if_false]
    rw [invalid]
    rfl
  | case8 cursor value b peeked notBackslash notSpecial none =>
    rw [bareFrom, peeked]
    simp only [notBackslash, notSpecial, Bool.false_eq_true, if_false]
    rw [none]
    rfl
end Bare

theorem segment_unquoted {c : Cursor} (notQuote : c.peek ≠ some 34) (notApostrophe : c.peek ≠ some 39) :
    segment c = (bare c, false) := by
  unfold segment
  split
  · next same => exact absurd same notQuote
  · next same => exact absurd same notApostrophe
  · rfl

theorem segment_single {c : Cursor} {t : List UInt8} (h : c.rest = 39 :: t) :
    segment c = (singleQuoted c, true) := by
  rw [segment, Cursor.peek_of_rest h]
  rfl

theorem wordFrom_error {c : Cursor} {e : SyntaxError} {quoted : Bool} (read : segment c = (.error e, quoted))
    (value : String) (delimited : Bool) : wordFrom c value delimited = .error e := by
  rw [wordFrom, read]

theorem plain_of_head {ch : Char}
    (notSpecial : ∀ b ∈ (String.utf8EncodeChar ch).head?, specials.contains b = false) : Plain ch := by
  unfold Plain AsciiSet.containsChar
  by_cases ascii : ch.toNat < 128
  · rw [Utf8.utf8EncodeChar_of_ascii ascii] at notSpecial
    simpa [ascii, Nat.toUInt8] using notSpecial _ rfl
  · simp [ascii]

section Pieces

variable {c : Cursor} {value : String} {delimited : Bool}

/-- A bare piece is read into the bare run it belongs to: reading a word from it is reading the
word from just after it, with its character added. The run may go on after the piece, stop there,
or fail further on; in each case both readings do the same. -/
theorem wordFrom_bare_step (ch : Char) {item t : List UInt8} (h : c.rest = item ++ t)
    (lead : ∀ b ∈ item.head?, b ≠ 34 ∧ b ≠ 39) (filled : item ≠ [])
    (step : ∀ read, bareFrom c read = bareFrom (c.advance item.length) (read.push ch)) :
    wordFrom c value delimited = wordFrom (c.advance item.length) (value.push ch) delimited := by
  obtain ⟨b, bytes, rfl⟩ := List.exists_cons_of_ne_nil filled
  have peeked : c.peek = some b := Cursor.peek_of_rest h
  obtain ⟨notQuote, notApostrophe⟩ := lead b rfl
  have unquoted : segment c = (bare c, false) :=
    segment_unquoted (by simp [peeked, notQuote]) (by simp [peeked, notApostrophe])
  generalize after : c.advance (b :: bytes).length = a at step ⊢
  have moved : c.Passes a := after ▸ Cursor.passes_advance (Cursor.offset_lt_of_peek peeked) (by simp)
  have read : bareFrom c "" = (bareFrom a "").map fun r => ("".push ch ++ r.1, r.2) := by
    rw [step, ← bareFrom_append, String.append_empty]
  have unquotedAfter (goesOn : bareFrom a "" ≠ .ok ("", a)) : segment a = (bare a, false) :=
    segment_unquoted (fun quote => goesOn (bareFrom_at_quote quote (.inl rfl)))
      (fun quote => goesOn (bareFrom_at_quote quote (.inr rfl)))
  cases ran : bareFrom a "" with
  | error e =>
    have failed : bare c = .error e := by rw [bare, read, ran]; rfl
    have failedAfter : bare a = .error e := by rw [bare, ran]
    rw [wordFrom_error (by rw [unquoted, failed]), wordFrom_error (by rw [unquotedAfter (by simp [ran]), failedAfter])]
  | ok r =>
    obtain ⟨x, n⟩ := r
    rcases bareFrom_stays_or_passes ran with ⟨rfl, rfl⟩ | ⟨further, longer⟩
    · have single : bare c = .matched ("".push ch ++ "") n := by
        rw [bare, show bareFrom c "" = .ok ("".push ch ++ "", n) by rw [read, ran]; rfl]
        simp only [moved.offset_ne, if_false]
      rw [wordFrom_segment (by rw [unquoted, single]) moved.remaining_lt]
      congr 1
      · simp
      · simp
    · have whole : bare c = .matched ("".push ch ++ x) n := by
        rw [bare, show bareFrom c "" = .ok ("".push ch ++ x, n) by rw [read, ran]; rfl]
        simp only [(moved.trans further).offset_ne, if_false]
      have rest : bare a = .matched x n := by
        rw [bare, ran]
        simp only [further.offset_ne, if_false]
      have goesOn : bareFrom a "" ≠ .ok ("", a) := by
        rw [ran]
        intro same
        simp only [Except.ok.injEq, Prod.mk.injEq] at same
        simp [same.1] at longer
      rw [wordFrom_segment (by rw [unquoted, whole]) (moved.trans further).remaining_lt,
        wordFrom_segment (by rw [unquotedAfter goesOn, rest]) further.remaining_lt]
      congr 1
      simp [← String.toList_inj]

/-- Reading a word over one of its pieces: from just after the piece, with the piece's text
added; a quoted piece marks the word as quoted. -/
theorem wordFrom_piece {piece r : List UInt8} {chars : List Char} (first : WordPiece piece chars)
    (h : c.rest = piece ++ r) :
    ∃ delimited', (delimited = true → delimited' = true) ∧ (chars = [] → delimited' = true) ∧
      wordFrom c value delimited =
        wordFrom (c.advance piece.length) (value ++ String.ofList chars) delimited' := by
  cases first with
  | @double body chars inside =>
    have opened : c.rest = 34 :: body ++ 34 :: r := by simpa using h
    have read := doubleQuoted_piece inside opened
    refine ⟨true, fun _ => rfl, fun _ => rfl, ?_⟩
    rw [wordFrom_segment (by rw [segment_quoted opened, read])
      (doubleQuoted_passes read).remaining_lt]
    simp
  | @single body unquoted =>
    have opened : c.rest = 39 :: body ++ 39 :: r := by simpa using h
    have read := singleQuoted_piece unquoted opened
    refine ⟨true, fun _ => rfl, fun _ => rfl, ?_⟩
    rw [wordFrom_segment (by rw [segment_single opened, read])
      (singleQuoted_passes read).remaining_lt]
    simp
  | @plain ch notSpecial =>
    have lead : ∀ b ∈ (String.utf8EncodeChar ch).head?, b ≠ 34 ∧ b ≠ 39 := fun b first => by
      have := notSpecial b first
      refine ⟨?_, ?_⟩ <;> rintro rfl <;> simp_all [specials_contains_quote, specials_contains_apostrophe]
    refine ⟨delimited, id, by simp, ?_⟩
    rw [wordFrom_bare_step ch h lead (Utf8.utf8EncodeChar_ne_nil ch)
      (fun read => by rw [bareFrom_plain_step (plain_of_head notSpecial) h,
        String.length_utf8EncodeChar])]
    congr 1
  | @escaped ch =>
    have escape : c.rest = 92 :: String.utf8EncodeChar ch ++ r := by simpa using h
    refine ⟨delimited, id, by simp, ?_⟩
    rw [wordFrom_bare_step ch h (by simp) (by simp)
      (fun read => by rw [bareFrom_escape_step escape, Cursor.advance_advance]; simp [Nat.add_comm])]
    congr 1

theorem wordFrom_pieces {bytes : List UInt8} {chars : List Char} (pieces : WordPieces bytes chars) :
    ∀ {c : Cursor} {r : List UInt8} (value : String) (delimited : Bool), c.rest = bytes ++ r →
      ∃ delimited', (delimited = true → delimited' = true) ∧ (chars = [] → bytes ≠ [] → delimited' = true) ∧
        wordFrom c value delimited =
          wordFrom (c.advance bytes.length) (value ++ String.ofList chars) delimited' := by
  induction pieces with
  | nil =>
    intro c r value delimited _
    exact ⟨delimited, id, by simp, by simp [Cursor.advance_zero]⟩
  | @cons piece rest first more firstPiece _ ih =>
    intro c r value delimited h
    rw [List.append_assoc] at h
    obtain ⟨once, keeps, quoted, step⟩ := @wordFrom_piece c value delimited piece (rest ++ r) first firstPiece h
    obtain ⟨twice, keeps', quoted', step'⟩ :=
      ih (value ++ String.ofList first) once (Cursor.rest_advance_of_rest h)
    refine ⟨twice, keeps' ∘ keeps, fun empty _ => keeps' (quoted (List.append_eq_nil_iff.mp empty).1), ?_⟩
    rw [step, step', Cursor.advance_advance, List.length_append, String.ofList_append,
      String.append_assoc]

end Pieces

theorem CharFault.not_quoted {c : Cursor} {e : SyntaxError} (fault : CharFault c e) :
    c.peek ≠ some 34 ∧ c.peek ≠ some 39 := by
  cases fault with
  | trailing last => simp [Cursor.peek_of_rest last]
  | badEscape escape _ => simp [Cursor.peek_of_rest escape]
  | bad invalid =>
    cases rest : c.rest with
    | nil => simp [Cursor.peek, rest]
    | cons b t =>
      have wide := wide_of_decodeChar_invalid (rest ▸ invalid)
      simp only [Cursor.peek, rest, List.head?_cons, ne_eq, Option.some.injEq]
      constructor <;> rintro rfl <;> simp at wide

theorem wordFrom_fault {c : Cursor} {e : SyntaxError} (fault : WordFault c e) (value : String)
    (delimited : Bool) : wordFrom c value delimited = .error e := by
  cases fault with
  | bare fault =>
    obtain ⟨notQuote, notApostrophe⟩ := fault.not_quoted
    have failed : bare c = .error e := by rw [bare, bareFrom_charFault fault]
    exact wordFrom_error (by rw [segment_unquoted notQuote notApostrophe, failed]) value delimited
  | double opened inside fault =>
    exact wordFrom_error (by rw [segment_quoted opened, doubleQuoted_fault opened inside fault])
      value delimited
  | unterminated opened inside =>
    exact wordFrom_error (by rw [segment_quoted opened, doubleQuoted_unterminated opened inside])
      value delimited
  | single opened unclosed =>
    exact wordFrom_error (by rw [segment_single opened, singleQuoted_unclosed opened unclosed])
      value delimited

theorem word_of_endsWord {c : Cursor} (ends : EndsWord c.rest) : word c = .noMatch := by
  rw [word, wordFrom_end rfl ends]
  simp

theorem word_of_pieces {c next : Cursor} {bytes : List UInt8} {chars : List Char}
    (pieces : WordPieces bytes chars) (filled : bytes ≠ []) (line : next.line = c.line)
    (h : c.rest = bytes ++ next.rest) (ends : EndsWord next.rest) :
    word c = .matched (String.ofList chars) next := by
  have atNext : c.advance bytes.length = next :=
    Cursor.eq_of_rest line.symm (Cursor.rest_advance_of_rest h)
  have moved : c.Passes next := by
    obtain ⟨b, more, rfl⟩ := List.exists_cons_of_ne_nil filled
    exact atNext ▸ Cursor.passes_advance (Cursor.offset_lt_of_peek (Cursor.peek_of_rest h)) (by simp)
  obtain ⟨delimited, -, quoted, run⟩ := wordFrom_pieces pieces "" false h
  rw [word, run, atNext, wordFrom_end rfl ends, String.empty_append]
  dsimp only
  rw [if_neg]
  rintro (same | ⟨empty, notDelimited⟩)
  · exact moved.offset_ne same
  · have none : chars = [] := by simpa using empty
    simp [quoted none filled] at notDelimited

theorem word_of_fault {c : Cursor} {bytes r : List UInt8} {chars : List Char} {e : SyntaxError}
    (pieces : WordPieces bytes chars) (h : c.rest = bytes ++ r)
    (fault : WordFault (c.advance bytes.length) e) : word c = .error e := by
  obtain ⟨delimited, -, -, run⟩ := wordFrom_pieces pieces "" false h
  rw [word, run, wordFrom_fault fault]

/-- How the body of a double-quoted segment read from `cursor` ends: at a closing quote, at the
end of the line, or at a character that cannot be read. -/
def DoubleEnds (cursor : Cursor) (body : List UInt8) : Prop :=
  (∃ r, cursor.rest = body ++ 34 :: r) ∨ cursor.rest = body ∨
    ∃ more e, cursor.rest = body ++ more ∧ CharFault (cursor.advance body.length) e

theorem DoubleEnds.shift {cursor : Cursor} {lead t body : List UInt8} (h : cursor.rest = lead ++ t)
    (ends : DoubleEnds (cursor.advance lead.length) body) : DoubleEnds cursor (lead ++ body) := by
  have after := Cursor.rest_advance_of_rest h
  rcases ends with ⟨r, closed⟩ | ended | ⟨more, e, split, fault⟩
  · exact .inl ⟨r, by rw [h, ← after, closed, List.append_assoc]⟩
  · exact .inr (.inl (by rw [h, ← after, ended]))
  · refine .inr (.inr ⟨more, e, by rw [h, ← after, split, List.append_assoc], ?_⟩)
    rwa [Cursor.advance_advance, ← List.length_append] at fault

theorem DoubleEnds.of_fault {cursor : Cursor} {e : SyntaxError} (fault : CharFault cursor e) :
    DoubleEnds cursor [] :=
  .inr (.inr ⟨cursor.rest, e, rfl, by rwa [List.length_nil, Cursor.advance_zero]⟩)

theorem rest_eq_nil_of_decodeChar {bytes : List UInt8} (none : Utf8.decodeChar bytes = none) :
    bytes = [] := by
  cases bytes with
  | nil => rfl
  | cons b t =>
    simp only [Utf8.decodeChar] at none
    split at none
    · cases none
    · split at none
      · cases none
      · split at none <;> cases none

theorem char_reading (c : Cursor) :
    c.rest = [] ∨ (∃ ch r, c.rest = String.utf8EncodeChar ch ++ r) ∨ ∃ e, CharFault c e := by
  cases read : Utf8.decodeChar c.rest with
  | none => exact .inl (rest_eq_nil_of_decodeChar read)
  | some item =>
    cases item with
    | invalid size => exact .inr (.inr ⟨_, .bad read⟩)
    | char ch width =>
      obtain ⟨-, r, split⟩ := Utf8.decodeChar_eq_char read
      exact .inr (.inl ⟨ch, r, split⟩)

theorem escape_reading {c : Cursor} {t : List UInt8} (escape : c.rest = 92 :: t) :
    (∃ ch r, t = String.utf8EncodeChar ch ++ r) ∨ ∃ e, CharFault c e := by
  cases escaped : Utf8.decodeChar t with
  | none => exact .inr ⟨_, .trailing (by rw [escape, rest_eq_nil_of_decodeChar escaped])⟩
  | some item =>
    cases item with
    | invalid size => exact .inr ⟨_, .badEscape escape escaped⟩
    | char ch width =>
      obtain ⟨-, r, split⟩ := Utf8.decodeChar_eq_char escaped
      exact .inl ⟨ch, r, split⟩

/-- The body of a double-quoted segment always ends somewhere. Induction on what is left of the
line, one character or escape at a time. -/
theorem doubleBody_reading (cursor : Cursor) :
    ∃ body value, DoubleBody body value ∧ DoubleEnds cursor body := by
  induction size : cursor.rest.length using Nat.strong_induction_on generalizing cursor with
  | _ n ih =>
  have onward : ∀ {item t : List UInt8}, cursor.rest = item ++ t → item ≠ [] →
      ∃ body value, DoubleBody body value ∧ DoubleEnds (cursor.advance item.length) body := by
    intro item t whole filled
    have shorter : t.length < n := by
      rw [← size, whole, List.length_append]
      have := List.length_pos_iff.mpr filled
      omega
    exact ih t.length shorter _ (by rw [Cursor.rest_advance_of_rest whole])
  rcases char_reading cursor with ended | ⟨ch, t, split⟩ | ⟨e, fault⟩
  · exact ⟨[], [], .nil, .inr (.inl ended)⟩
  · by_cases quote : ch = '"'
    · subst quote
      exact ⟨[], [], .nil, .inl ⟨t, split⟩⟩
    by_cases backslash : ch = '\\'
    · subst backslash
      have escape : cursor.rest = 92 :: t := split
      rcases escape_reading escape with ⟨e, t', escaped⟩ | ⟨e, fault⟩
      · have whole : cursor.rest = (92 :: String.utf8EncodeChar e) ++ t' := by rw [escape, escaped]; rfl
        obtain ⟨body, value, inside, ends⟩ := onward whole (by simp)
        exact ⟨_, _, .escape (escapeMeans_unescape e) inside, ends.shift whole⟩
      · exact ⟨[], [], .nil, .of_fault fault⟩
    · obtain ⟨body, value, inside, ends⟩ := onward split (Utf8.utf8EncodeChar_ne_nil ch)
      exact ⟨_, _, .plain quote backslash inside, ends.shift split⟩
  · exact ⟨[], [], .nil, .of_fault fault⟩

theorem WordPiece.ne_nil {piece : List UInt8} {chars : List Char} (first : WordPiece piece chars) :
    piece ≠ [] := by
  cases first with
  | double | single | escaped => simp
  | plain => exact Utf8.utf8EncodeChar_ne_nil _

theorem single_reading (t : List UInt8) :
    39 ∉ t ∨ ∃ body r, 39 ∉ body ∧ t = body ++ 39 :: r := by
  by_cases inside : 39 ∈ t
  · have split := List.takeWhile_append_dropWhile (p := fun b => b != 39) (l := t)
    refine .inr ⟨t.takeWhile (fun b => b != 39), (t.dropWhile (fun b => b != 39)).tail,
      fun member => by simpa using List.mem_takeWhile_imp member, ?_⟩
    cases dropped : t.dropWhile (fun b => b != 39) with
    | nil =>
      have := List.dropWhile_eq_nil_iff.mp dropped 39 inside
      simp at this
    | cons b r =>
      have first := List.head?_dropWhile_not (fun b => b != 39) t
      rw [dropped] at first
      simp only [List.head?_cons, bne_eq_false_iff_eq] at first
      rw [dropped, first] at split
      simpa using split.symm
  · exact .inl inside

/-- At any cursor a word ends, a piece starts, or a piece starts that cannot be read; one case
per kind of first byte. -/
theorem piece_or_end_or_fault (c : Cursor) :
    EndsWord c.rest ∨ (∃ piece chars r, WordPiece piece chars ∧ c.rest = piece ++ r) ∨
      ∃ e, WordFault c e := by
  cases rest : c.rest with
  | nil => exact .inl trivial
  | cons b t =>
  by_cases quote : b = 34
  · subst quote
    obtain ⟨body, value, inside, ends⟩ := doubleBody_reading (c.advance 1)
    have opened := Cursor.rest_advance_cons rest
    unfold DoubleEnds at ends
    rw [opened] at ends
    rcases ends with ⟨r, closed⟩ | ended | ⟨more, e, split, fault⟩
    · exact .inr (.inl ⟨_, _, r, .double inside, by simp [closed]⟩)
    · exact .inr (.inr ⟨_, .unterminated (by rw [rest, ended]) inside⟩)
    · rw [Cursor.advance_advance, Nat.add_comm] at fault
      exact .inr (.inr ⟨e, .double (by rw [rest, split]; rfl) inside fault⟩)
  by_cases apostrophe : b = 39
  · subst apostrophe
    rcases single_reading t with unclosed | ⟨body, r, unquoted, split⟩
    · exact .inr (.inr ⟨_, .single rest unclosed⟩)
    · exact .inr (.inl ⟨_, _, r, .single unquoted, by simp [split]⟩)
  by_cases backslash : b = 92
  · subst backslash
    rcases escape_reading rest with ⟨ch, r, split⟩ | ⟨e, fault⟩
    · exact .inr (.inl ⟨_, _, r, @WordPiece.escaped ch, by simp [split]⟩)
    · exact .inr (.inr ⟨e, .bare fault⟩)
  by_cases special : specials.contains b = true
  · exact .inl ⟨special, quote, apostrophe, backslash⟩
  rcases char_reading c with ended | ⟨ch, r, split⟩ | ⟨e, fault⟩
  · rw [rest] at ended
    cases ended
  · rw [rest] at split
    have head : (String.utf8EncodeChar ch).head? = some b := by
      obtain ⟨lead, more, encoded⟩ := List.exists_cons_of_ne_nil (Utf8.utf8EncodeChar_ne_nil ch)
      rw [encoded] at split ⊢
      rw [(List.cons.inj split).1]
      rfl
    have notSpecial : ∀ lead ∈ (String.utf8EncodeChar ch).head?, specials.contains lead = false := by
      rw [head]
      intro lead first
      cases Option.mem_some_iff.mp first
      simpa using special
    exact .inr (.inl ⟨_, _, r, .plain notSpecial, split⟩)
  · exact .inr (.inr ⟨e, .bare fault⟩)

/-- From any cursor, the grammar reads pieces up to a word end or to a piece that cannot be read.
Induction on what is left of the line, one piece at a time. -/
theorem word_reading (c : Cursor) :
    ∃ bytes chars r, WordPieces bytes chars ∧ c.rest = bytes ++ r ∧
      (EndsWord r ∨ ∃ e, WordFault (c.advance bytes.length) e) := by
  induction size : c.rest.length using Nat.strong_induction_on generalizing c with
  | _ n ih =>
  rcases piece_or_end_or_fault c with ends | ⟨piece, chars, r, first, split⟩ | ⟨e, fault⟩
  · exact ⟨[], [], c.rest, .nil, rfl, .inl ends⟩
  · have after := Cursor.rest_advance_of_rest split
    have shorter : r.length < n := by
      rw [← size, split, List.length_append]
      have := List.length_pos_iff.mpr first.ne_nil
      omega
    obtain ⟨bytes, more, r', pieces, split', ending⟩ :=
      ih r.length shorter (c.advance piece.length) (by rw [after])
    refine ⟨piece ++ bytes, chars ++ more, r', .cons first pieces, ?_, ?_⟩
    · rw [split, ← after, split', List.append_assoc]
    · rwa [Cursor.advance_advance, ← List.length_append] at ending
  · exact ⟨[], [], c.rest, .nil, rfl, .inr ⟨e, by rwa [List.length_nil, Cursor.advance_zero]⟩⟩

/-- The grammar's reading of the line from `c`: no piece starts, or pieces run to a word end, or
pieces run to one that cannot be read. -/
theorem word_trichotomy (c : Cursor) :
    EndsWord c.rest ∨
      (∃ bytes chars, WordPieces bytes chars ∧ bytes ≠ [] ∧
        c.rest = bytes ++ (c.advance bytes.length).rest ∧ EndsWord (c.advance bytes.length).rest) ∨
      ∃ bytes chars r e, WordPieces bytes chars ∧ c.rest = bytes ++ r ∧
        WordFault (c.advance bytes.length) e := by
  obtain ⟨bytes, chars, r, pieces, split, ending⟩ := word_reading c
  have after := Cursor.rest_advance_of_rest split
  rcases ending with ends | ⟨e, fault⟩
  · by_cases filled : bytes = []
    · subst filled
      exact .inl (by rwa [split])
    · exact .inr (.inl ⟨bytes, chars, pieces, filled, by rw [after, split], by rwa [after]⟩)
  · exact .inr (.inr ⟨bytes, chars, r, e, pieces, split, fault⟩)

section Soundness

variable {c : Cursor}

theorem endsWord_of_word_noMatch (none : word c = .noMatch) : EndsWord c.rest := by
  rcases word_trichotomy c with ends | ⟨bytes, chars, pieces, filled, split, ends⟩ |
    ⟨bytes, chars, r, e, pieces, split, fault⟩
  · exact ends
  · rw [word_of_pieces pieces filled (Cursor.advance_line c bytes.length) split ends] at none
    cases none
  · rw [word_of_fault pieces split fault] at none
    cases none

theorem pieces_of_word_matched {value : String} {next : Cursor}
    (matched : word c = .matched value next) :
    next.line = c.line ∧ ∃ bytes chars, WordPieces bytes chars ∧ bytes ≠ [] ∧
      c.rest = bytes ++ next.rest ∧ EndsWord next.rest ∧ value = String.ofList chars := by
  rcases word_trichotomy c with ends | ⟨bytes, chars, pieces, filled, split, ends⟩ |
    ⟨bytes, chars, r, e, pieces, split, fault⟩
  · rw [word_of_endsWord ends] at matched
    cases matched
  · rw [word_of_pieces pieces filled (Cursor.advance_line c bytes.length) split ends] at matched
    cases matched
    exact ⟨rfl, bytes, chars, pieces, filled, split, ends, rfl⟩
  · rw [word_of_fault pieces split fault] at matched
    cases matched

theorem fault_of_word_error {e : SyntaxError} (error : word c = .error e) :
    ∃ bytes chars r, WordPieces bytes chars ∧ c.rest = bytes ++ r ∧
      WordFault (c.advance bytes.length) e := by
  rcases word_trichotomy c with ends | ⟨bytes, chars, pieces, filled, split, ends⟩ |
    ⟨bytes, chars, r, e', pieces, split, fault⟩
  · rw [word_of_endsWord ends] at error
    cases error
  · rw [word_of_pieces pieces filled (Cursor.advance_line c bytes.length) split ends] at error
    cases error
  · rw [word_of_fault pieces split fault] at error
    cases error
    exact ⟨bytes, chars, r, pieces, split, fault⟩

end Soundness

/-- A word is read exactly as the grammar reads it: no match where no piece starts, the joined
values of the longest run of pieces up to a word end, and the error of the first piece that
cannot be read. -/
theorem word_grammar (c : Cursor) :
    (word c = .noMatch ↔ EndsWord c.rest) ∧
    (∀ value next, word c = .matched value next ↔ next.line = c.line ∧
      ∃ bytes chars, WordPieces bytes chars ∧ bytes ≠ [] ∧ c.rest = bytes ++ next.rest ∧
        EndsWord next.rest ∧ value = String.ofList chars) ∧
    (∀ e, word c = .error e ↔ ∃ bytes chars r, WordPieces bytes chars ∧ c.rest = bytes ++ r ∧
        WordFault (c.advance bytes.length) e) := by
  refine ⟨⟨endsWord_of_word_noMatch, word_of_endsWord⟩, fun value next => ⟨pieces_of_word_matched, ?_⟩,
    fun e => ⟨fault_of_word_error, ?_⟩⟩
  · rintro ⟨line, bytes, chars, pieces, filled, split, ends, rfl⟩
    exact word_of_pieces pieces filled line split ends
  · rintro ⟨bytes, chars, r, pieces, split, fault⟩
    exact word_of_fault pieces split fault

theorem WordPieces.append {bytes bytes' : List UInt8} {chars chars' : List Char}
    (first : WordPieces bytes chars) (second : WordPieces bytes' chars') :
    WordPieces (bytes ++ bytes') (chars ++ chars') := by
  induction first with
  | nil => exact second
  | cons piece _ ih => simpa only [List.append_assoc] using WordPieces.cons piece ih

theorem WordPiece.of_plain {ch : Char} (plain : Plain ch) :
    WordPiece (String.utf8EncodeChar ch) [ch] := by
  obtain ⟨b, rest, split, notSpecial, -⟩ := plain_head plain
  refine .plain ?_
  rw [split]
  simpa using notSpecial

theorem wordPieces_plain (chars : List Char) (plain : ∀ ch ∈ chars, Plain ch) :
    WordPieces (chars.flatMap String.utf8EncodeChar) chars := by
  induction chars with
  | nil => exact .nil
  | cons ch chars ih =>
    exact .cons (.of_plain (plain ch List.mem_cons_self))
      (ih fun ch member => plain ch (List.mem_cons_of_mem _ member))

/-- The escaped characters between the quotes of `doubleQuote` are a body that reads as those
characters. -/
theorem doubleBody_escaped (chars : List Char) :
    DoubleBody (chars.flatMap fun ch => Utf8.encode (escapeChar ch)) chars := by
  induction chars with
  | nil => exact .nil
  | cons ch chars ih =>
    rw [List.flatMap_cons]
    rcases encode_escapeChar ch with ⟨plain, notQuote, notBackslash⟩ | ⟨e, escaped, back⟩
    · rw [plain]
      exact .plain notQuote notBackslash ih
    · rw [escaped, ← back]
      exact .escape (escapeMeans_unescape e) ih

theorem wordPieces_quote (s : String) : WordPieces (Utf8.encode (quote s)) s.toList := by
  rcases quote_cases s with ⟨bare, -, plain⟩ | double
  · rw [bare, Utf8.encode_eq_flatMap]
    exact wordPieces_plain s.toList plain
  · rw [double, encode_doubleQuote]
    simpa using WordPieces.cons (.double (doubleBody_escaped s.toList)) .nil

theorem encode_quote_ne_nil (s : String) : Utf8.encode (quote s) ≠ [] := by
  rcases quote_cases s with ⟨bare, nonempty, -⟩ | double
  · rw [bare]
    exact Utf8.encode_ne_nil nonempty
  · simp [double, encode_doubleQuote]

theorem wordPieces_quote_join (ss : List String) :
    WordPieces (Utf8.encode (String.join (ss.map quote))) (String.join ss).toList := by
  induction ss with
  | nil => simpa [Utf8.encode_eq_flatMap] using WordPieces.nil
  | cons s ss ih =>
    simpa only [List.map_cons, String.join_cons, Utf8.encode_append, String.toList_append]
      using (wordPieces_quote s).append ih

/-- Quoted strings written next to each other, from any column, then a word end, read back as
one word holding the strings joined, with the cursor at the word end; and a double-quoted string
reads back as the string, with the cursor just past its closing quote, whatever follows it. -/
theorem quote_join_readBack :
    (∀ (ss : List String) (t : List UInt8) (c : Cursor), ss ≠ [] → EndsWord t →
      c.rest = Utf8.encode (String.join (ss.map quote)) ++ t →
      ∃ next, word c = .matched (String.join ss) next ∧ next.line = c.line ∧ next.rest = t) ∧
    ∀ (s : String) (u : List UInt8) (c : Cursor), c.rest = Utf8.encode (doubleQuote s) ++ u →
      ∃ next, doubleQuoted c = .matched s next ∧ next.line = c.line ∧ next.rest = u := by
  refine ⟨fun ss t c nonempty ends h => ?_, fun s u c h => doubleQuoted_doubleQuote h⟩
  obtain ⟨s, more, rfl⟩ := List.exists_cons_of_ne_nil nonempty
  have filled : Utf8.encode (String.join ((s :: more).map quote)) ≠ [] := by
    simp [encode_quote_ne_nil]
  have after := Cursor.rest_advance_of_rest h
  refine ⟨_, ?_, Cursor.advance_line c _, after⟩
  have read := word_of_pieces (wordPieces_quote_join (s :: more)) filled (Cursor.advance_line c _)
    (by rw [after]; exact h) (by rwa [after])
  rwa [String.ofList_toList] at read

/-- The strings a, b c, the empty string and x"y, quoted and written next to each other at
column 3 and followed by a semicolon. -/
theorem quote_join_readBack_sample :
    ∃ next, word (Cursor.new ⟨[62, 32] ++ Utf8.encode (String.join (["a", "b c", "", "x\"y"].map quote)) ++ [59],
        "README.md", 1⟩ 3) = .matched "ab cx\"y" next ∧ next.rest = [59] := by
  obtain ⟨next, read, -, rest⟩ := quote_join_readBack.1 ["a", "b c", "", "x\"y"] [59]
    (Cursor.new ⟨[62, 32] ++ Utf8.encode (String.join (["a", "b c", "", "x\"y"].map quote)) ++ [59],
      "README.md", 1⟩ 3) (by decide) ⟨by decide, by decide, by decide, by decide⟩
    (by simp [Cursor.new, Cursor.rest])
  exact ⟨next, read, rest⟩

end Shell

end DocExamples

