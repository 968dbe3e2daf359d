import DocExamples.Proofs.Encoding
import DocExamples.Shell.Word

namespace DocExamples

namespace Cursor

@[simp] theorem advance_line (c : Cursor) (n : Nat) : (c.advance n).line = c.line := rfl

theorem rest_advance (c : Cursor) (n : Nat) : (c.advance n).rest = c.rest.drop n := by
  simp only [rest, advance, List.drop_drop]
  by_cases within : c.offset + n ≤ c.line.text.length
  · rw [Nat.min_eq_left within]
  · rw [Nat.min_eq_right (by omega), List.drop_length,
      List.drop_eq_nil_of_le (by omega)]

theorem rest_advance_of_rest {c : Cursor} {bytes t : List UInt8} (h : c.rest = bytes ++ t) :
    (c.advance bytes.length).rest = t := by
  rw [rest_advance, h, List.drop_left]

theorem rest_advance_cons {c : Cursor} {b : UInt8} {t : List UInt8} (h : c.rest = b :: t) :
    (c.advance 1).rest = t := by
  rw [rest_advance, h, List.drop_one, List.tail_cons]

theorem remaining_eq_length (c : Cursor) : c.remaining = c.rest.length := by
  simp [remaining, rest]

theorem eq_of_rest {a b : Cursor} (line : a.line = b.line) (same : a.rest = b.rest) : a = b := by
  obtain ⟨lineA, offsetA, withinA⟩ := a
  obtain ⟨lineB, offsetB, withinB⟩ := b
  simp only at line
  subst line
  have lengths := congrArg List.length same
  simp only [rest, List.length_drop] at lengths
  have offsets : offsetA = offsetB := by omega
  subst offsets
  rfl

theorem peek_of_rest {c : Cursor} {b : UInt8} {t : List UInt8} (h : c.rest = b :: t) :
    c.peek = some b := by
  simp [peek, h]

theorem peek_of_rest_nil {c : Cursor} (h : c.rest = []) : c.peek = none := by
  simp [peek, h]

theorem nextChar_of_rest {c : Cursor} {ch : Char} {t : List UInt8}
    (h : c.rest = String.utf8EncodeChar ch ++ t) : c.nextChar = some (.char ch ch.utf8Size) := by
  rw [nextChar, h, Utf8.decodeChar_utf8EncodeChar]

theorem nextChar_of_rest_nil {c : Cursor} (h : c.rest = []) : c.nextChar = none := by
  rw [nextChar, h, Utf8.decodeChar]

theorem rest_advance_char {c : Cursor} {ch : Char} {t : List UInt8}
    (h : c.rest = String.utf8EncodeChar ch ++ t) : (c.advance ch.utf8Size).rest = t := by
  rw [← String.length_utf8EncodeChar]
  exact rest_advance_of_rest h

theorem skipBlanks_of_rest {c : Cursor} {t : List UInt8} (h : c.rest = 32 :: t)
    (notBlank : ∀ b ∈ t.head?, isBlankByte b = false) : c.skipBlanks = c.advance 1 := by
  have stops : t.takeWhile isBlankByte = [] := by
    cases t with
    | nil => rfl
    | cons b rest => exact List.takeWhile_cons_of_neg (by simp [notBlank b rfl])
  simp [skipBlanks, h, List.takeWhile_cons_of_pos (show isBlankByte 32 = true by decide), stops]

theorem skipBlanks_of_rest_nil {c : Cursor} (h : c.rest = []) : c.skipBlanks = c.advance 0 := by
  simp [skipBlanks, h]

end Cursor

namespace AsciiSet

theorem containsChar_of_mem {set : AsciiSet} {ch : Char} {b : UInt8}
    (member : b ∈ String.utf8EncodeChar ch) (contained : set.contains b = true) :
    set.containsChar ch = true := by
  have ascii : b.toNat < 128 := by simp only [contains, Bool.and_eq_true, decide_eq_true_eq] at contained; exact contained.1
  have code := Utf8.ascii_of_mem_utf8EncodeChar member ascii
  simp [containsChar, code, ascii, contained]

end AsciiSet

namespace Shell

/-- What may follow a word without being read into it: the end of the line, or a special byte
other than a quote or a backslash. -/
def EndsWord : List UInt8 → Prop
  | [] => True
  | b :: _ => specials.contains b = true ∧ b ≠ 34 ∧ b ≠ 39 ∧ b ≠ 92

/-- A character written as itself in a bare word. -/
def Plain (ch : Char) : Prop :=
  specials.containsChar ch = false

theorem specials_contains_backslash : specials.contains 92 = true := by decide

theorem specials_contains_quote : specials.contains 34 = true := by decide

theorem specials_contains_apostrophe : specials.contains 39 = true := by decide

theorem specials_contains_space : specials.contains 32 = true := by decide

theorem specials_contains_tab : specials.contains 9 = true := by decide

theorem plain_head {ch : Char} (plain : Plain ch) :
    ∃ b rest, String.utf8EncodeChar ch = b :: rest ∧ specials.contains b = false ∧ b ≠ 92 := by
  obtain ⟨b, rest, split⟩ : ∃ b rest, String.utf8EncodeChar ch = b :: rest := by
    cases h : String.utf8EncodeChar ch with
    | nil =>
      have := String.length_utf8EncodeChar ch
      rw [h] at this
      have := ch.utf8Size_pos
      simp_all
    | cons b rest => exact ⟨b, rest, rfl⟩
  have member : b ∈ String.utf8EncodeChar ch := by simp [split]
  have notSpecial : specials.contains b = false := by
    cases contained : specials.contains b with
    | false => rfl
    | true =>
      have := AsciiSet.containsChar_of_mem member contained
      simp only [Plain] at plain
      simp_all
  refine ⟨b, rest, split, notSpecial, ?_⟩
  rintro rfl
  rw [specials_contains_backslash] at notSpecial
  cases notSpecial

section DoubleQuoted

variable {start cursor : Cursor} {value : String} {t : List UInt8}

theorem doubleQuotedFrom_close (h : cursor.rest = 34 :: t) :
    doubleQuotedFrom start cursor value = .matched value (cursor.advance 1) := by
  have quote : cursor.rest = String.utf8EncodeChar '"' ++ t := h
  rw [doubleQuotedFrom, Cursor.nextChar_of_rest quote]
  rfl

theorem doubleQuotedFrom_plain {ch : Char} (h : cursor.rest = String.utf8EncodeChar ch ++ t)
    (notQuote : ch ≠ '"') (notBackslash : ch ≠ '\\') :
    doubleQuotedFrom start cursor value =
      doubleQuotedFrom start (cursor.advance ch.utf8Size) (value.push ch) := by
  rw [doubleQuotedFrom, Cursor.nextChar_of_rest h]
  simp [notQuote, notBackslash]

theorem doubleQuotedFrom_escape {e : Char} (h : cursor.rest = 92 :: String.utf8EncodeChar e ++ t) :
    doubleQuotedFrom start cursor value =
      doubleQuotedFrom start ((cursor.advance 1).advance e.utf8Size) (value.push (unescape e)) := by
  have backslash : cursor.rest = String.utf8EncodeChar '\\' ++ (String.utf8EncodeChar e ++ t) := h
  have escaped : (cursor.advance ('\\').utf8Size).rest = String.utf8EncodeChar e ++ t :=
    Cursor.rest_advance_char backslash
  rw [doubleQuotedFrom, Cursor.nextChar_of_rest backslash]
  simp only [show ('\\' : Char) ≠ '"' by decide, if_false, if_true]
  rw [Cursor.nextChar_of_rest escaped]
  rfl

/-- Each character of a double-quoted text is its escape: its own bytes, or a backslash and a
character that `unescape` turns back into it. -/
theorem encode_escapeChar (ch : Char) :
    (Utf8.encode (escapeChar ch) = String.utf8EncodeChar ch ∧ ch ≠ '"' ∧ ch ≠ '\\') ∨
      ∃ e, Utf8.encode (escapeChar ch) = 92 :: String.utf8EncodeChar e ∧ unescape e = ch := by
  unfold escapeChar
  split
  · exact Or.inr ⟨'"', by subst_vars; rw [Utf8.encode_eq_flatMap]; rfl, by subst_vars; decide⟩
  split
  · exact Or.inr ⟨'\\', by subst_vars; rw [Utf8.encode_eq_flatMap]; rfl, by subst_vars; decide⟩
  split
  · exact Or.inr ⟨'n', by subst_vars; rw [Utf8.encode_eq_flatMap]; rfl, by subst_vars; decide⟩
  split
  · exact Or.inr ⟨'r', by subst_vars; rw [Utf8.encode_eq_flatMap]; rfl, by subst_vars; decide⟩
  split
  · exact Or.inr ⟨'t', by subst_vars; rw [Utf8.encode_eq_flatMap]; rfl, by subst_vars; decide⟩
  rename_i notQuote notBackslash _ _ _
  refine Or.inl ⟨?_, notQuote, notBackslash⟩
  simp [Utf8.encode_eq_flatMap, Char.toString_eq_singleton]

/-- The escaped characters of a double-quoted text, then its closing quote, read as those
characters. Induction on the characters; the cursor and what was read so far vary. -/
theorem doubleQuotedFrom_escaped (chars : List Char) :
    ∀ (cursor : Cursor) (value : String),
      cursor.rest = chars.flatMap (fun ch => Utf8.encode (escapeChar ch)) ++ 34 :: t →
      ∃ next, doubleQuotedFrom start cursor value = .matched (value ++ String.ofList chars) next ∧
        next.line = cursor.line ∧ next.rest = t := by
  induction chars with
  | nil =>
    intro cursor value h
    refine ⟨cursor.advance 1, ?_, rfl, ?_⟩
    · rw [doubleQuotedFrom_close h]
      simp
    · exact Cursor.rest_advance_cons h
  | cons ch chars ih =>
    intro cursor value h
    rw [List.flatMap_cons, List.append_assoc] at h
    rcases encode_escapeChar ch with ⟨plain, notQuote, notBackslash⟩ | ⟨e, escaped, back⟩
    · rw [plain] at h
      obtain ⟨next, run, line, rest⟩ := ih _ (value.push ch) (Cursor.rest_advance_char h)
      refine ⟨next, ?_, line, rest⟩
      rw [doubleQuotedFrom_plain h notQuote notBackslash, run]
      simp [← String.toList_inj]
    · rw [escaped, List.cons_append] at h
      have after : ((cursor.advance 1).advance e.utf8Size).rest =
          chars.flatMap (fun ch => Utf8.encode (escapeChar ch)) ++ 34 :: t := by
        have one : (cursor.advance 1).rest = String.utf8EncodeChar e ++ _ :=
          Cursor.rest_advance_cons h
        exact Cursor.rest_advance_char one
      obtain ⟨next, run, line, rest⟩ := ih _ (value.push (unescape e)) after
      refine ⟨next, ?_, line, rest⟩
      rw [doubleQuotedFrom_escape h, run, back]
      simp [← String.toList_inj]

end DoubleQuoted

theorem encode_doubleQuote (s : String) :
    Utf8.encode (doubleQuote s) =
      34 :: (s.toList.flatMap fun ch => Utf8.encode (escapeChar ch)) ++ [34] := by
  have quote : Utf8.encode "\"" = [34] := by
    rw [Utf8.encode_eq_flatMap]
    rfl
  rw [doubleQuote, Utf8.encode_append, Utf8.encode_append, Utf8.encode_join, quote,
    List.flatMap_map]
  rfl

theorem doubleQuoted_doubleQuote {c : Cursor} {s : String} {t : List UInt8}
    (h : c.rest = Utf8.encode (doubleQuote s) ++ t) :
    ∃ next, doubleQuoted c = .matched s next ∧ next.line = c.line ∧ next.rest = t := by
  have opened : c.rest =
      [34] ++ ((s.toList.flatMap fun ch => Utf8.encode (escapeChar ch)) ++ 34 :: t) := by
    rw [h, encode_doubleQuote]
    simp
  obtain ⟨next, run, line, rest⟩ :=
    doubleQuotedFrom_escaped s.toList (c.advance 1) "" (Cursor.rest_advance_of_rest opened)
  refine ⟨next, ?_, line, rest⟩
  rw [doubleQuoted, if_pos (Cursor.peek_of_rest opened), run]
  simp

section Bare

variable {t : List UInt8}

theorem bareFrom_stop {cursor : Cursor} {value : String} (h : cursor.rest = t)
    (ends : EndsWord t) : bareFrom cursor value = .ok (value, cursor) := by
  cases t with
  | nil => rw [bareFrom, Cursor.peek_of_rest_nil h]
  | cons b rest =>
    obtain ⟨special, -, -, notBackslash⟩ := ends
    rw [bareFrom, Cursor.peek_of_rest h]
    simp [notBackslash, special]

theorem bareFrom_plain_step {cursor : Cursor} {value : String} {ch : Char} (plain : Plain ch)
    (h : cursor.rest = String.utf8EncodeChar ch ++ t) :
    bareFrom cursor value = bareFrom (cursor.advance ch.utf8Size) (value.push ch) := by
  obtain ⟨b, rest, split, notSpecial, notBackslash⟩ := plain_head plain
  have peeked : cursor.rest = b :: (rest ++ t) := by rw [h, split, List.cons_append]
  rw [bareFrom, Cursor.peek_of_rest peeked]
  simp only [notBackslash, if_false, notSpecial, Bool.false_eq_true]
  rw [Cursor.nextChar_of_rest h]

/-- A run of plain characters that a word end follows reads as a bare run. Induction on the
characters; the cursor and what was read so far vary. -/
theorem bareFrom_plain (chars : List Char) (plain : ∀ ch ∈ chars, Plain ch) (ends : EndsWord t) :
    ∀ (cursor : Cursor) (value : String), cursor.rest = chars.flatMap String.utf8EncodeChar ++ t →
      ∃ next, bareFrom cursor value = .ok (value ++ String.ofList chars, next) ∧
        next.line = cursor.line ∧ next.rest = t := by
  induction chars with
  | nil =>
    intro cursor value h
    exact ⟨cursor, by simpa using bareFrom_stop h ends, rfl, h⟩
  | cons ch chars ih =>
    intro cursor value h
    rw [List.flatMap_cons, List.append_assoc] at h
    have plainRest : ∀ ch ∈ chars, Plain ch := fun ch member => plain ch (List.mem_cons_of_mem _ member)
    obtain ⟨next, run, line, rest⟩ :=
      ih plainRest _ (value.push ch) (Cursor.rest_advance_char h)
    refine ⟨next, ?_, line, rest⟩
    rw [bareFrom_plain_step (plain ch List.mem_cons_self) h, run]
    simp [← String.toList_inj]

end Bare

theorem offset_ne_of_rest {a b : Cursor} (line : a.line = b.line)
    (lengths : a.rest.length ≠ b.rest.length) : a.offset ≠ b.offset := by
  intro same
  apply lengths
  simp [Cursor.rest, line, same]

theorem remaining_lt_of_rest {a b : Cursor} {bytes t : List UInt8} (h : a.rest = bytes ++ t)
    (after : b.rest = t) (nonempty : bytes ≠ []) : b.remaining < a.remaining := by
  rw [Cursor.remaining_eq_length, Cursor.remaining_eq_length, h, after, List.length_append]
  have := List.length_pos_iff.mpr nonempty
  omega

theorem bare_plain {c : Cursor} {s : String} {t : List UInt8} (h : c.rest = Utf8.encode s ++ t)
    (nonempty : s ≠ "") (plain : ∀ ch ∈ s.toList, Plain ch) (ends : EndsWord t) :
    ∃ next, bare c = .matched s next ∧ next.line = c.line ∧ next.rest = t := by
  rw [Utf8.encode_eq_flatMap] at h
  obtain ⟨next, run, line, rest⟩ := bareFrom_plain s.toList plain ends c "" h
  have bytes : s.toList.flatMap String.utf8EncodeChar ≠ [] := by
    rw [← Utf8.encode_eq_flatMap]
    exact Utf8.encode_ne_nil nonempty
  have moved : next.offset ≠ c.offset := by
    refine offset_ne_of_rest line ?_
    rw [rest, h, List.length_append]
    have := List.length_pos_iff.mpr bytes
    omega
  refine ⟨next, ?_, line, rest⟩
  rw [bare, run]
  simp [moved]

theorem segment_end {c : Cursor} {t : List UInt8} (h : c.rest = t) (ends : EndsWord t) :
    segment c = (.noMatch, false) := by
  have stays : bare c = .noMatch := by
    rw [bare, bareFrom_stop h ends]
    simp
  cases t with
  | nil => rw [segment, Cursor.peek_of_rest_nil h, stays]
  | cons b rest =>
    obtain ⟨-, notQuote, notApostrophe, -⟩ := ends
    rw [segment, Cursor.peek_of_rest h]
    split
    · next same => exact absurd (Option.some.inj same) notQuote
    · next same => exact absurd (Option.some.inj same) notApostrophe
    · rw [stays]

theorem segment_quoted {c : Cursor} {t : List UInt8} (h : c.rest = 34 :: t) :
    segment c = (doubleQuoted c, true) := by
  rw [segment, Cursor.peek_of_rest h]
  rfl

theorem segment_bare {c : Cursor} {b : UInt8} {t : List UInt8} (h : c.rest = b :: t)
    (notQuote : b ≠ 34) (notApostrophe : b ≠ 39) : segment c = (bare c, false) := by
  rw [segment, Cursor.peek_of_rest h]
  split
  · next same => exact absurd (Option.some.inj same) notQuote
  · next same => exact absurd (Option.some.inj same) notApostrophe
  · rfl

theorem wordFrom_end {c : Cursor} {t : List UInt8} {value : String} {delimited : Bool}
    (h : c.rest = t) (ends : EndsWord t) : wordFrom c value delimited = .ok (value, c, delimited) := by
  rw [wordFrom, segment_end h ends]
  simp

theorem wordFrom_segment {c next : Cursor} {value part : String} {delimited quoted : Bool}
    (read : segment c = (.matched part next, quoted)) (moved : next.remaining < c.remaining) :
    wordFrom c value delimited = wordFrom next (value ++ part) (delimited || quoted) := by
  rw [wordFrom, read]
  simp [moved]

theorem word_one_segment {c next : Cursor} {t : List UInt8} {part : String} {quoted : Bool}
    (read : segment c = (.matched part next, quoted)) (line : next.line = c.line)
    (moved : next.remaining < c.remaining) (after : next.rest = t) (ends : EndsWord t)
    (filled : part ≠ "" ∨ quoted = true) : word c = .matched part next := by
  have offsets : next.offset ≠ c.offset := by
    intro same
    simp [Cursor.remaining, same, line] at moved
  rw [word, wordFrom_segment read moved, wordFrom_end after ends]
  rcases filled with nonempty | isQuoted
  · simp [offsets, nonempty]
  · simp [offsets, isQuoted]

theorem word_doubleQuote {c : Cursor} {s : String} {t : List UInt8}
    (h : c.rest = Utf8.encode (doubleQuote s) ++ t) (ends : EndsWord t) :
    ∃ next, word c = .matched s next ∧ next.line = c.line ∧ next.rest = t := by
  obtain ⟨next, read, line, rest⟩ := doubleQuoted_doubleQuote h
  have opened : c.rest = 34 :: (Utf8.encode (doubleQuote s)).tail ++ t := by
    rw [h, encode_doubleQuote]
    rfl
  have moved : next.remaining < c.remaining :=
    remaining_lt_of_rest h rest (by rw [encode_doubleQuote]; simp)
  have segmented : segment c = (.matched s next, true) := by rw [segment_quoted opened, read]
  exact ⟨next, word_one_segment segmented line moved rest ends (Or.inr rfl), line, rest⟩

theorem word_plain {c : Cursor} {s : String} {t : List UInt8} (h : c.rest = Utf8.encode s ++ t)
    (nonempty : s ≠ "") (plain : ∀ ch ∈ s.toList, Plain ch) (ends : EndsWord t) :
    ∃ next, word c = .matched s next ∧ next.line = c.line ∧ next.rest = t := by
  obtain ⟨next, read, line, rest⟩ := bare_plain h nonempty plain ends
  obtain ⟨ch, chars, split⟩ : ∃ ch chars, s.toList = ch :: chars := by
    cases listed : s.toList with
    | nil => exact absurd (String.toList_eq_nil_iff.mp listed) nonempty
    | cons ch chars => exact ⟨ch, chars, rfl⟩
  obtain ⟨b, bytes, first, notSpecial, -⟩ := plain_head (plain ch (by simp [split]))
  have opened : c.rest = b :: (bytes ++ chars.flatMap String.utf8EncodeChar ++ t) := by
    rw [h, Utf8.encode_eq_flatMap, split, List.flatMap_cons, first]
    simp
  have notQuote : b ≠ 34 := by
    rintro rfl
    rw [specials_contains_quote] at notSpecial
    cases notSpecial
  have notApostrophe : b ≠ 39 := by
    rintro rfl
    rw [specials_contains_apostrophe] at notSpecial
    cases notSpecial
  have moved : next.remaining < c.remaining :=
    remaining_lt_of_rest h rest (Utf8.encode_ne_nil nonempty)
  have segmented : segment c = (.matched s next, false) := by
    rw [segment_bare opened notQuote notApostrophe, read]
  exact ⟨next, word_one_segment segmented line moved rest ends (Or.inl nonempty), line, rest⟩

/-- `quote` writes a string as it is when it is a non-empty run of plain characters, and
double-quoted otherwise. -/
theorem quote_cases (s : String) :
    (quote s = s ∧ s ≠ "" ∧ ∀ ch ∈ s.toList, Plain ch) ∨ quote s = doubleQuote s := by
  unfold quote
  split
  · rename_i bare
    simp only [Bool.and_eq_true, Bool.not_eq_true', String.isEmpty_eq_false_iff] at bare
    obtain ⟨nonempty, noSpecial⟩ := bare
    rw [AsciiSet.any_contains_encode, List.any_eq_false] at noSpecial
    exact .inl ⟨rfl, nonempty, fun ch member => by simpa [Plain] using noSpecial ch member⟩
  · exact .inr rfl

theorem word_quote {c : Cursor} {s : String} {t : List UInt8}
    (h : c.rest = Utf8.encode (quote s) ++ t) (ends : EndsWord t) :
    ∃ next, word c = .matched s next ∧ next.line = c.line ∧ next.rest = t := by
  rcases quote_cases s with ⟨bare, nonempty, plain⟩ | double
  · rw [bare] at h
    exact word_plain h nonempty plain ends
  · rw [double] at h
    exact word_doubleQuote h ends

end Shell

end DocExamples
