import Mathlib.Tactic.SplitIfs
import DocExamples.Proofs.Reading
import DocExamples.Shell.Command

namespace DocExamples

namespace Dict

variable {β : Type}

theorem insertSorted_of_lt {key : String} {value : β} {entries : List (String × β)}
    (above : ∀ entry ∈ entries, entry.1 < key) :
    insertSorted key value entries = entries ++ [(key, value)] := by
  induction entries with
  | nil => rfl
  | cons head rest ih =>
    obtain ⟨k, v⟩ := head
    have below : k < key := above (k, v) List.mem_cons_self
    have notBelow : ¬ key < k := String.lt_asymm below
    have other : key ≠ k := (String.ne_of_lt below).symm
    simp only [insertSorted, notBelow, other, if_false, List.cons_append]
    rw [ih fun entry member => above entry (List.mem_cons_of_mem _ member)]

theorem foldl_insert_sorted (entries : List (String × β)) :
    ∀ acc : Dict β, (acc.entries ++ entries).Pairwise (fun a b => a.1 < b.1) →
      (entries.foldl (fun d (key, value) => d.insert key value) acc).entries =
        acc.entries ++ entries := by
  induction entries with
  | nil => simp
  | cons head rest ih =>
    intro acc sorted
    obtain ⟨key, value⟩ := head
    have above : ∀ entry ∈ acc.entries, entry.1 < key := fun entry member =>
      (List.pairwise_append.mp sorted).2.2 entry member (key, value) List.mem_cons_self
    have step : (acc.insert key value).entries = acc.entries ++ [(key, value)] :=
      insertSorted_of_lt above
    rw [List.foldl_cons, ih (acc.insert key value) (by rw [step]; simpa using sorted), step]
    simp

theorem ext_entries {a b : Dict β} (same : a.entries = b.entries) : a = b := by
  cases a
  cases b
  simp only at same
  subst same
  rfl

theorem foldl_insert_toList (d : Dict β) :
    d.toList.foldl (fun acc (key, value) => acc.insert key value) empty = d := by
  apply ext_entries
  have entries := foldl_insert_sorted d.toList empty (by simpa [empty, toList] using d.sorted)
  simpa [empty, toList] using entries

end Dict

namespace Shell

/-- A variable name as the dialect writes it, `[A-Za-z_][A-Za-z0-9_]*`. -/
def IsIdentifier (name : String) : Prop :=
  match name.toList with
  | [] => False
  | first :: rest =>
    (first = '_' ∨ first.isAlpha = true) ∧
      ∀ c ∈ rest, c = '_' ∨ c.isAlpha = true ∨ c.isDigit = true

instance : DecidablePred IsIdentifier := fun name =>
  match listed : name.toList with
  | [] => isFalse fun named => by rw [IsIdentifier, listed] at named; exact named
  | first :: rest =>
    @decidable_of_iff _ _ (by rw [IsIdentifier, listed])
      (@instDecidableAnd _ _ inferInstance (List.decidableBAll _ rest))

section Identifier

variable {cursor : Cursor} {value : String} {ch : Char} {t : List UInt8}

theorem identifierFrom_take (h : cursor.rest = String.utf8EncodeChar ch ++ t)
    (allowed : nameChar (!value.isEmpty) ch = true) :
    identifierFrom cursor value = identifierFrom (cursor.advance ch.utf8Size) (value.push ch) := by
  rw [identifierFrom, Cursor.nextChar_of_rest h]
  simp [allowed]

theorem identifierFrom_stop (h : cursor.rest = String.utf8EncodeChar ch ++ t)
    (refused : nameChar (!value.isEmpty) ch = false) :
    identifierFrom cursor value = .ok (value, cursor) := by
  rw [identifierFrom, Cursor.nextChar_of_rest h]
  simp [refused]

theorem identifierFrom_end (h : cursor.rest = []) : identifierFrom cursor value = .ok (value, cursor) := by
  rw [identifierFrom, Cursor.nextChar_of_rest_nil h]

end Identifier

theorem identifierFrom_rest (chars : List Char) {stop : Char} {t : List UInt8}
    (allowed : ∀ c ∈ chars, nameChar true c = true) (refused : nameChar true stop = false) :
    ∀ (cursor : Cursor) (value : String), value ≠ "" →
      cursor.rest = chars.flatMap String.utf8EncodeChar ++ String.utf8EncodeChar stop ++ t →
      ∃ next, identifierFrom cursor value = .ok (value ++ String.ofList chars, next) ∧
        next.line = cursor.line ∧ next.rest = String.utf8EncodeChar stop ++ t := by
  have started : ∀ value : String, value ≠ "" → (!value.isEmpty) = true := by
    intro value nonempty
    simpa [String.isEmpty_iff] using nonempty
  induction chars with
  | nil =>
    intro cursor value nonempty h
    refine ⟨cursor, ?_, rfl, by simpa using h⟩
    rw [identifierFrom_stop (by simpa using h) (by rw [started value nonempty]; exact refused)]
    simp
  | cons c chars ih =>
    intro cursor value nonempty h
    rw [List.flatMap_cons, List.append_assoc, List.append_assoc] at h
    have taken : identifierFrom cursor value =
        identifierFrom (cursor.advance c.utf8Size) (value.push c) :=
      identifierFrom_take h (by rw [started value nonempty]; exact allowed c List.mem_cons_self)
    obtain ⟨next, run, line, rest⟩ :=
      ih (fun c member => allowed c (List.mem_cons_of_mem _ member)) _ (value.push c)
        (fun empty => by simpa using congrArg String.length empty)
        (by rw [Cursor.rest_advance_char h, List.append_assoc])
    refine ⟨next, ?_, line, rest⟩
    rw [taken, run]
    simp [← String.toList_inj]

theorem identifier_isIdentifier {c : Cursor} {name : String} {stop : Char} {t : List UInt8}
    (isName : IsIdentifier name) (refused : nameChar true stop = false)
    (h : c.rest = Utf8.encode name ++ String.utf8EncodeChar stop ++ t) :
    ∃ next, identifier c = .matched name next ∧ next.line = c.line ∧
      next.rest = String.utf8EncodeChar stop ++ t := by
  unfold IsIdentifier at isName
  split at isName
  · exact isName.elim
  rename_i first rest listed
  obtain ⟨leading, following⟩ := isName
  rw [Utf8.encode_eq_flatMap, listed, List.flatMap_cons, List.append_assoc,
    List.append_assoc] at h
  have firstAllowed : nameChar (!"".isEmpty) first = true := by
    rcases leading with underscore | alpha
    · simp [nameChar, underscore]
    · simp [nameChar, alpha]
  have restAllowed : ∀ c ∈ rest, nameChar true c = true := by
    intro c member
    rcases following c member with underscore | alpha | digit
    · simp [nameChar, underscore]
    · simp [nameChar, alpha]
    · simp [nameChar, digit]
  obtain ⟨next, run, line, after⟩ := identifierFrom_rest rest restAllowed refused _
    ("".push first) (fun empty => by simpa using congrArg String.length empty)
    (by rw [Cursor.rest_advance_char h, List.append_assoc])
  have whole : "".push first ++ String.ofList rest = name := by
    rw [← String.toList_inj]
    simp [listed]
  refine ⟨next, ?_, line, after⟩
  rw [identifier, identifierFrom_take h firstAllowed, run, whole]
  have nonempty : name.isEmpty = false := by
    simp [← String.toList_inj, listed]
  simp [nonempty]

theorem assignment_text {c : Cursor} {name value : String} {t : List UInt8}
    (isName : IsIdentifier name) (ends : EndsWord t)
    (h : c.rest = Utf8.encode name ++ 61 :: (Utf8.encode (quote value) ++ t)) :
    ∃ next, assignment c = .matched (name, value) next ∧ next.line = c.line ∧ next.rest = t := by
  have equalsByte : String.utf8EncodeChar '=' = [61] := rfl
  have split : c.rest =
      Utf8.encode name ++ String.utf8EncodeChar '=' ++ (Utf8.encode (quote value) ++ t) := by
    rw [h, equalsByte]
    simp
  obtain ⟨afterName, read, line, rest⟩ := identifier_isIdentifier isName (by decide) split
  have equals : afterName.rest = 61 :: (Utf8.encode (quote value) ++ t) := rest
  obtain ⟨next, valued, valueLine, valueRest⟩ := word_quote (Cursor.rest_advance_cons equals) ends
  refine ⟨next, ?_, by rw [valueLine]; simpa using line, valueRest⟩
  rw [assignment, read]
  simp [Cursor.peek_of_rest equals, valued]

theorem assignment_of_quote {c : Cursor} {t : List UInt8} (h : c.rest = 34 :: t) :
    assignment c = .noMatch := by
  have quote : c.rest = String.utf8EncodeChar '"' ++ t := h
  rw [assignment, identifier, identifierFrom_stop quote (by decide)]
  simp

theorem identifierFrom_no_equals (chars : List Char) {t : List UInt8} (noEquals : '=' ∉ chars)
    (after : t = [] ∨ ∃ rest, t = 32 :: rest) :
    ∀ (cursor : Cursor) (value : String), cursor.rest = chars.flatMap String.utf8EncodeChar ++ t →
      ∃ name next, identifierFrom cursor value = .ok (name, next) ∧ next.peek ≠ some 61 := by
  induction chars with
  | nil =>
    intro cursor value h
    simp only [List.flatMap_nil, List.nil_append] at h
    rcases after with empty | ⟨rest, space⟩
    · subst empty
      exact ⟨value, cursor, identifierFrom_end h, by simp [Cursor.peek_of_rest_nil h]⟩
    · subst space
      have blank : cursor.rest = String.utf8EncodeChar ' ' ++ rest := h
      exact ⟨value, cursor, identifierFrom_stop blank (by simp [nameChar]),
        by simp [Cursor.peek_of_rest h]⟩
  | cons ch chars ih =>
    intro cursor value h
    rw [List.flatMap_cons, List.append_assoc] at h
    have notEquals : ch ≠ '=' := fun same => noEquals (same ▸ List.mem_cons_self)
    cases allowed : nameChar (!value.isEmpty) ch with
    | true =>
      rw [identifierFrom_take h allowed]
      exact ih (fun member => noEquals (List.mem_cons_of_mem _ member)) _ _
        (Cursor.rest_advance_char h)
    | false =>
      refine ⟨value, cursor, identifierFrom_stop h allowed, ?_⟩
      obtain ⟨b, bytes, first⟩ : ∃ b bytes, String.utf8EncodeChar ch = b :: bytes := by
        cases listed : String.utf8EncodeChar ch with
        | nil => exact absurd listed (Utf8.utf8EncodeChar_ne_nil ch)
        | cons b bytes => exact ⟨b, bytes, rfl⟩
      rw [first, List.cons_append] at h
      rw [Cursor.peek_of_rest h]
      rintro ⟨⟩
      have member : (61 : UInt8) ∈ String.utf8EncodeChar ch := by
        rw [first]
        exact List.mem_cons_self
      have code : ch.toNat = 61 := Utf8.ascii_of_mem_utf8EncodeChar member (by decide)
      exact notEquals (by rw [← Char.ofNat_toNat ch, code])

theorem assignment_no_equals {c : Cursor} {s : String} {t : List UInt8} (noEquals : '=' ∉ s.toList)
    (after : t = [] ∨ ∃ rest, t = 32 :: rest) (h : c.rest = Utf8.encode s ++ t) :
    assignment c = .noMatch := by
  rw [Utf8.encode_eq_flatMap] at h
  obtain ⟨name, next, run, stops⟩ := identifierFrom_no_equals s.toList noEquals after c "" h
  rw [assignment, identifier, run]
  by_cases empty : name.isEmpty
  · simp [empty]
  · simp [empty, stops]

theorem alpha_toNat_range {c : Char} (alpha : c.isAlpha = true) :
    (65 ≤ c.toNat ∧ c.toNat ≤ 90) ∨ (97 ≤ c.toNat ∧ c.toNat ≤ 122) := by
  simp only [Char.isAlpha, Char.isUpper, Char.isLower, Bool.or_eq_true, Bool.and_eq_true,
    decide_eq_true_eq, UInt32.le_iff_toNat_le] at alpha
  simpa using alpha

theorem head_not_blank_of_isIdentifier {name : String} (isName : IsIdentifier name)
    (rest : List UInt8) : ∀ b ∈ (Utf8.encode name ++ rest).head?, isBlankByte b = false := by
  unfold IsIdentifier at isName
  split at isName
  · exact isName.elim
  rename_i first chars listed
  have range : first.toNat = 95 ∨ (65 ≤ first.toNat ∧ first.toNat ≤ 90) ∨
      (97 ≤ first.toNat ∧ first.toNat ≤ 122) := by
    rcases isName.1 with underscore | alpha
    · exact Or.inl (by subst underscore; rfl)
    · exact Or.inr (alpha_toNat_range alpha)
  have byte := Utf8.byte_toNat (show first.toNat < 256 by omega)
  intro b member
  rw [Utf8.encode_eq_flatMap, listed, List.flatMap_cons,
    Utf8.utf8EncodeChar_of_ascii (by omega)] at member
  simp only [List.cons_append, List.head?_cons, Option.mem_def, Option.some.injEq] at member
  subst member
  simp only [isBlankByte, Bool.or_eq_false_iff, beq_eq_false_iff_ne, ne_eq, ← UInt8.toNat_inj,
    byte, UInt8.reduceToNat]
  omega

theorem head_not_blank_of_doubleQuote (s : String) (rest : List UInt8) :
    ∀ b ∈ (Utf8.encode (doubleQuote s) ++ rest).head?, isBlankByte b = false := by
  intro b member
  rw [encode_doubleQuote] at member
  simp only [List.cons_append, List.head?_cons, Option.mem_def, Option.some.injEq] at member
  subst member
  decide

theorem head_not_blank_of_quote (s : String) (rest : List UInt8) :
    ∀ b ∈ (Utf8.encode (quote s) ++ rest).head?, isBlankByte b = false := by
  intro b member
  rcases quote_cases s with ⟨bare, nonempty, plains⟩ | double
  · rw [bare] at member
    obtain ⟨ch, chars, listed⟩ : ∃ ch chars, s.toList = ch :: chars := by
      cases h : s.toList with
      | nil => exact absurd (String.toList_eq_nil_iff.mp h) nonempty
      | cons ch chars => exact ⟨ch, chars, rfl⟩
    have plain : Plain ch := plains ch (by simp [listed])
    obtain ⟨first, bytes, split, notSpecial, -⟩ := plain_head plain
    rw [Utf8.encode_eq_flatMap, listed, List.flatMap_cons, split] at member
    simp only [List.cons_append, List.head?_cons, Option.mem_def, Option.some.injEq] at member
    subst member
    cases blank : isBlankByte first with
    | false => rfl
    | true =>
      simp only [isBlankByte, Bool.or_eq_true, beq_iff_eq] at blank
      rcases blank with space | tab
      · rw [space, specials_contains_space] at notSpecial
        cases notSpecial
      · rw [tab, specials_contains_tab] at notSpecial
        cases notSpecial
  · rw [double] at member
    exact head_not_blank_of_doubleQuote s rest b member

/-- An assignment as written before a command name: `NAME=VALUE`, then a space. -/
def assignmentText (entry : String × String) : String :=
  entry.1 ++ "=" ++ quote entry.2 ++ " "

theorem encode_assignmentText (entry : String × String) (rest : List UInt8) :
    Utf8.encode (assignmentText entry) ++ rest =
      Utf8.encode entry.1 ++ 61 :: (Utf8.encode (quote entry.2) ++ 32 :: rest) := by
  have equals : Utf8.encode "=" = [61] := by
    rw [Utf8.encode_eq_flatMap]
    rfl
  have space : Utf8.encode " " = [32] := by
    rw [Utf8.encode_eq_flatMap]
    rfl
  simp [assignmentText, equals, space]

theorem envsText_eq (c : Command) : c.envsText = String.join (c.envs.toList.map assignmentText) := by
  have joined : ∀ parts : List String, parts ≠ [] →
      " ".intercalate parts ++ " " = String.join (parts.map (· ++ " ")) := by
    intro parts nonempty
    induction parts with
    | nil => exact absurd rfl nonempty
    | cons part rest ih =>
      cases rest with
      | nil => simp
      | cons next more =>
        rw [String.intercalate_cons_cons, String.append_assoc, String.append_assoc,
          ih (List.cons_ne_nil _ _)]
        simp [String.join_cons, String.append_assoc]
  unfold Command.envsText Vars.display
  split
  · rename_i empty
    simp only [Dict.isEmpty, List.isEmpty_iff] at empty
    simp [Dict.toList, empty]
  · rename_i nonempty
    simp only [Dict.isEmpty, List.isEmpty_iff] at nonempty
    rw [joined _ (by simpa [Dict.toList] using nonempty), List.map_map]
    rfl

theorem encode_space : Utf8.encode " " = [32] := by
  rw [Utf8.encode_eq_flatMap]
  rfl

theorem endsWord_space (rest : List UInt8) : EndsWord (32 :: rest) :=
  ⟨specials_contains_space, by decide, by decide, by decide⟩

/-- Assignments written as `NAME=VALUE ` in order, then text that is no assignment and does not
start with a blank, read into the map by inserting each binding in turn. Induction on the
assignments. -/
theorem envsFrom_text (entries : List (String × String))
    (names : ∀ entry ∈ entries, IsIdentifier entry.1) {after : List UInt8}
    (stops : ∀ c : Cursor, c.rest = after → assignment c = .noMatch)
    (notBlank : ∀ b ∈ after.head?, isBlankByte b = false) :
    ∀ (cursor : Cursor) (envs : Vars),
      cursor.rest = Utf8.encode (String.join (entries.map assignmentText)) ++ after →
      ∃ next, envsFrom cursor envs =
          .ok (entries.foldl (fun d (name, value) => d.insert name value) envs, next) ∧
        next.line = cursor.line ∧ next.rest = after := by
  induction entries with
  | nil =>
    intro cursor envs h
    simp only [List.map_nil, String.join_nil, Utf8.encode_empty, List.nil_append] at h
    refine ⟨cursor, ?_, rfl, h⟩
    rw [envsFrom, stops cursor h]
    rfl
  | cons entry rest ih =>
    intro cursor envs h
    obtain ⟨name, value⟩ := entry
    have isName : IsIdentifier name := names (name, value) List.mem_cons_self
    have laterNotBlank : ∀ b ∈ (Utf8.encode (String.join (rest.map assignmentText)) ++
        after).head?, isBlankByte b = false := by
      cases rest with
      | nil => simpa using notBlank
      | cons next more =>
        have shape : Utf8.encode (String.join ((next :: more).map assignmentText)) ++ after =
            Utf8.encode next.1 ++ (61 :: (Utf8.encode (quote next.2) ++
              32 :: (Utf8.encode (String.join (more.map assignmentText)) ++ after))) := by
          rw [← encode_assignmentText]
          simp [String.join_cons]
        rw [shape]
        exact head_not_blank_of_isIdentifier (names next (by simp)) _
    have split : cursor.rest = Utf8.encode name ++ 61 :: (Utf8.encode (quote value) ++
        32 :: (Utf8.encode (String.join (rest.map assignmentText)) ++ after)) := by
      rw [h, List.map_cons, String.join_cons, Utf8.encode_append, List.append_assoc,
        encode_assignmentText]
    have whole : cursor.rest =
        (Utf8.encode name ++ 61 :: (Utf8.encode (quote value) ++ [32])) ++
          (Utf8.encode (String.join (rest.map assignmentText)) ++ after) := by
      rw [split]
      simp
    obtain ⟨next, read, line, afterValue⟩ := assignment_text isName (endsWord_space _) split
    have skipped := Cursor.skipBlanks_of_rest afterValue laterNotBlank
    have afterSpace := Cursor.rest_advance_cons afterValue
    have moved : (next.advance 1).remaining < cursor.remaining :=
      remaining_lt_of_rest whole afterSpace (by simp)
    obtain ⟨final, run, finalLine, finalRest⟩ :=
      ih (fun entry member => names entry (List.mem_cons_of_mem _ member)) (next.advance 1)
        (envs.insert name value) afterSpace
    refine ⟨final, ?_, by rw [finalLine, Cursor.advance_line, line], finalRest⟩
    rw [envsFrom, read]
    simp only [skipped, moved, if_true, run, List.foldl_cons]

/-- Arguments written each after one space, up to the end of the line, read as those arguments
in order. Induction on the arguments. -/
theorem argsFrom_text (args : List String) :
    ∀ (cursor : Cursor) (parsed : List String),
      cursor.rest = Utf8.encode (String.join (args.map fun arg => " " ++ quote arg)) →
      ∃ next, argsFrom (fun (_ : Unit) c => (word c, ())) () cursor parsed =
          (.ok (parsed ++ args, next), ()) ∧ next.line = cursor.line ∧ next.rest = [] := by
  induction args with
  | nil =>
    intro cursor parsed h
    simp only [List.map_nil, String.join_nil, Utf8.encode_empty] at h
    refine ⟨cursor, ?_, rfl, h⟩
    have stays : (cursor.skipBlanks).offset = cursor.offset := by
      rw [Cursor.skipBlanks_of_rest_nil h]
      simp [Cursor.advance, cursor.offset_le]
    rw [argsFrom]
    simp [stays]
  | cons arg rest ih =>
    intro cursor parsed h
    have whole : cursor.rest = (32 :: Utf8.encode (quote arg)) ++
        Utf8.encode (String.join (rest.map fun arg => " " ++ quote arg)) := by
      rw [h]
      simp [String.join_cons, encode_space]
    have spaced : cursor.rest = 32 :: (Utf8.encode (quote arg) ++
        Utf8.encode (String.join (rest.map fun arg => " " ++ quote arg))) := by
      rw [whole]
      simp
    have skipped := Cursor.skipBlanks_of_rest spaced (head_not_blank_of_quote arg _)
    have afterSpace := Cursor.rest_advance_cons spaced
    have moved : (cursor.advance 1).offset ≠ cursor.offset := by
      refine offset_ne_of_rest rfl ?_
      rw [afterSpace, spaced]
      simp
    have laterEnds : EndsWord (Utf8.encode (String.join (rest.map fun arg => " " ++ quote arg))) := by
      cases rest with
      | nil => simp [EndsWord]
      | cons next more =>
        simpa [String.join_cons, encode_space] using endsWord_space
          (Utf8.encode (quote next) ++ Utf8.encode (String.join (more.map fun arg => " " ++ quote arg)))
    obtain ⟨after, read, line, afterArg⟩ := word_quote afterSpace laterEnds
    have shorter : after.remaining < cursor.remaining :=
      remaining_lt_of_rest whole afterArg (by simp)
    obtain ⟨final, run, finalLine, finalRest⟩ := ih after (parsed ++ [arg]) afterArg
    refine ⟨final, ?_, by rw [finalLine, line, Cursor.advance_line], finalRest⟩
    rw [argsFrom]
    simp only [skipped, moved, if_false, read, shorter, if_true, run]
    simp

namespace Command

theorem assignment_nameText (c : Command) {cursor : Cursor} {t : List UInt8}
    (after : t = [] ∨ ∃ rest, t = 32 :: rest) (h : cursor.rest = Utf8.encode c.nameText ++ t) :
    assignment cursor = .noMatch := by
  unfold nameText at h
  split at h
  · rw [encode_doubleQuote] at h
    exact assignment_of_quote (by rw [h]; rfl)
  · rename_i hasEquals
    have noEquals : '=' ∉ c.name.toList := by simpa using hasEquals
    unfold quote at h
    split at h
    · exact assignment_no_equals noEquals after h
    · rw [encode_doubleQuote] at h
      exact assignment_of_quote (by rw [h]; rfl)

theorem word_nameText (c : Command) {cursor : Cursor} {t : List UInt8}
    (h : cursor.rest = Utf8.encode c.nameText ++ t) (ends : EndsWord t) :
    ∃ next, word cursor = .matched c.name next ∧ next.line = cursor.line ∧ next.rest = t := by
  unfold nameText at h
  split at h
  · exact word_doubleQuote h ends
  · exact word_quote h ends

theorem head_not_blank_of_nameText (c : Command) (rest : List UInt8) :
    ∀ b ∈ (Utf8.encode c.nameText ++ rest).head?, isBlankByte b = false := by
  unfold nameText
  split
  · exact head_not_blank_of_doubleQuote c.name rest
  · exact head_not_blank_of_quote c.name rest

theorem argsText_start (c : Command) :
    Utf8.encode c.argsText = [] ∨ ∃ rest, Utf8.encode c.argsText = 32 :: rest := by
  unfold argsText
  cases c.args with
  | nil => simp
  | cons arg more =>
    right
    refine ⟨Utf8.encode (quote arg) ++ Utf8.encode (String.join (more.map fun arg => " " ++ quote arg)), ?_⟩
    simp [String.join_cons, encode_space]

theorem endsWord_argsText (c : Command) : EndsWord (Utf8.encode c.argsText) := by
  rcases argsText_start c with empty | ⟨rest, spaced⟩
  · rw [empty]
    trivial
  · rw [spaced]
    exact endsWord_space rest

end Command

/-- A text on one line: it holds no line feed and no carriage return. -/
def SingleLine (s : String) : Prop :=
  ∀ ch ∈ s.toList, ch ≠ '\n' ∧ ch ≠ '\r'

instance : DecidablePred SingleLine := fun s => List.decidableBAll _ s.toList

namespace SingleLine

theorem append {s t : String} (left : SingleLine s) (right : SingleLine t) :
    SingleLine (s ++ t) := by
  intro ch member
  rw [String.toList_append, List.mem_append] at member
  rcases member with inLeft | inRight
  · exact left ch inLeft
  · exact right ch inRight

theorem join {parts : List String} (each : ∀ part ∈ parts, SingleLine part) :
    SingleLine (String.join parts) := by
  intro ch member
  rw [String.toList_join, List.mem_flatMap] at member
  obtain ⟨part, inParts, inPart⟩ := member
  exact each part inParts ch inPart

theorem escapeChar (x : Char) : SingleLine (Shell.escapeChar x) := by
  unfold Shell.escapeChar
  split_ifs with quote backslash newline carriage tab
  any_goals decide
  intro ch member
  simp only [Char.toString_eq_singleton, String.toList_singleton, List.mem_singleton] at member
  subst member
  exact ⟨newline, carriage⟩

theorem doubleQuote (s : String) : SingleLine (Shell.doubleQuote s) := by
  unfold Shell.doubleQuote
  refine append (append (by decide) (join ?_)) (by decide)
  intro part member
  obtain ⟨x, -, rfl⟩ := List.mem_map.mp member
  exact escapeChar x

theorem quote (s : String) : SingleLine (Shell.quote s) := by
  rcases quote_cases s with ⟨bare, -, plains⟩ | double
  · rw [bare]
    intro ch member
    have plain : specials.containsChar ch = false := plains ch member
    constructor
    · rintro rfl
      exact absurd plain (by decide)
    · rintro rfl
      exact absurd plain (by decide)
  · rw [double]
    exact doubleQuote s

theorem of_name_char {ch : Char} (named : ch = '_' ∨ ch.isAlpha = true ∨ ch.isDigit = true) :
    ch ≠ '\n' ∧ ch ≠ '\r' := by
  rcases named with rfl | alpha | digit
  · decide
  · constructor <;> rintro rfl <;> exact absurd alpha (by decide)
  · constructor <;> rintro rfl <;> exact absurd digit (by decide)

theorem of_isIdentifier {name : String} (isName : IsIdentifier name) : SingleLine name := by
  unfold IsIdentifier at isName
  split at isName
  · exact isName.elim
  rename_i first rest listed
  intro ch member
  rw [listed] at member
  rcases List.mem_cons.mp member with same | later
  · subst same
    exact of_name_char (isName.1.elim Or.inl (fun alpha => Or.inr (Or.inl alpha)))
  · exact of_name_char (isName.2 ch later)

theorem not_mem_encode {s : String} (single : SingleLine s) :
    10 ∉ Utf8.encode s ∧ 13 ∉ Utf8.encode s := by
  constructor
  · intro member
    obtain ⟨ch, inText, code⟩ := (Utf8.ascii_mem_encode (by decide)).mp member
    apply (single ch inText).1
    rw [← Char.ofNat_toNat ch, code]
    rfl
  · intro member
    obtain ⟨ch, inText, code⟩ := (Utf8.ascii_mem_encode (by decide)).mp member
    apply (single ch inText).2
    rw [← Char.ofNat_toNat ch, code]
    rfl

end SingleLine

namespace Command

theorem singleLine_display (c : Command) (names : ∀ entry ∈ c.envs.toList, IsIdentifier entry.1) :
    SingleLine c.display := by
  have envs : SingleLine c.envsText := by
    rw [envsText_eq]
    refine SingleLine.join fun part member => ?_
    obtain ⟨entry, listed, rfl⟩ := List.mem_map.mp member
    exact ((SingleLine.of_isIdentifier (names entry listed)).append (by decide)).append
      (SingleLine.quote entry.2) |>.append (by decide)
  have name : SingleLine c.nameText := by
    unfold nameText
    split
    · exact SingleLine.doubleQuote c.name
    · exact SingleLine.quote c.name
  have args : SingleLine c.argsText := by
    refine SingleLine.join fun part member => ?_
    obtain ⟨arg, -, rfl⟩ := List.mem_map.mp member
    exact SingleLine.append (by decide) (SingleLine.quote arg)
  exact (envs.append name).append args

/-- A command written on a line of its own reads back as itself. The written text holds no line
break; the whole line is read; the span of the command is its written name, which follows the
assignments. Environment names must be identifiers, as only those read as assignments. -/
theorem command_display (c : Command) (names : ∀ entry ∈ c.envs.toList, IsIdentifier entry.1)
    (line : Line) (text : line.text = Utf8.encode c.display) :
    10 ∉ line.text ∧ 13 ∉ line.text ∧
      command (Cursor.new line 1) =
        .matched (c, ⟨(Cursor.new line 1).advance (Utf8.encode c.envsText).length,
            (Cursor.new line 1).advance (Utf8.encode (c.envsText ++ c.nameText)).length⟩)
          ((Cursor.new line 1).advance line.text.length) := by
  rw [text]
  refine ⟨(SingleLine.not_mem_encode (singleLine_display c names)).1,
    (SingleLine.not_mem_encode (singleLine_display c names)).2, ?_⟩
  have whole : (Cursor.new line 1).rest = Utf8.encode c.envsText ++ (Utf8.encode c.nameText ++
      Utf8.encode c.argsText) := by
    simp [Cursor.new, Cursor.rest, text, display, Utf8.encode_append]
  generalize Cursor.new line 1 = start at whole ⊢
  have envsWritten := whole
  rw [envsText_eq] at envsWritten
  obtain ⟨afterEnvs, envsRun, envsLine, envsRest⟩ :=
    envsFrom_text c.envs.toList names (fun _ placed => assignment_nameText c (argsText_start c) placed)
      (head_not_blank_of_nameText c _) start Dict.empty envsWritten
  rw [Dict.foldl_insert_toList] at envsRun
  obtain ⟨afterName, nameRun, nameLine, nameRest⟩ :=
    word_nameText c envsRest (endsWord_argsText c)
  obtain ⟨stop, argsRun, stopLine, stopRest⟩ := argsFrom_text c.args afterName [] nameRest
  have envsAt : afterEnvs = start.advance (Utf8.encode c.envsText).length :=
    Cursor.eq_of_rest envsLine (by rw [envsRest, Cursor.rest_advance_of_rest whole])
  have nameAt : afterName = start.advance (Utf8.encode (c.envsText ++ c.nameText)).length := by
    refine Cursor.eq_of_rest (by rw [nameLine, envsLine]; rfl) ?_
    rw [nameRest, Cursor.rest_advance_of_rest (t := Utf8.encode c.argsText)]
    rw [whole, Utf8.encode_append, List.append_assoc]
  have stopAt : stop = start.advance (Utf8.encode c.display).length := by
    refine Cursor.eq_of_rest (by rw [stopLine, nameLine, envsLine]; rfl) ?_
    rw [stopRest, Cursor.rest_advance_of_rest (t := [])]
    rw [whole, List.append_nil, display, Utf8.encode_append, Utf8.encode_append, List.append_assoc]
  simp only [command, commandWith, envsRun, nameRun, argsRun, List.nil_append]
  rw [envsAt, nameAt, stopAt]

/-- A name holding `=`, an empty argument and a quote in an argument all read back. -/
theorem command_display_quoted_name :
    ∃ span next, command (Cursor.new ⟨Utf8.encode
        (Command.display ⟨"a=b", (Dict.empty.insert "PATH" "/bin").insert "HOME" "~", ["", "it's"]⟩),
        "README.md", 1⟩ 1) =
      .matched (⟨"a=b", (Dict.empty.insert "PATH" "/bin").insert "HOME" "~", ["", "it's"]⟩, span) next :=
  ⟨_, _, (command_display _ (by decide) _ rfl).2.2⟩

end Command

end Shell

end DocExamples
