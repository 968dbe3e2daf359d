import DocExamples.Log.Event

namespace DocExamples

namespace Log

/-- A rule of a filter: events whose target starts with `target`, when there is one, and which
carry every field named in `fields`, are shown up to verbosity `verbosity`, from 0 for nothing to
5 for everything. -/
structure Directive where
  target : Option String
  fields : List String
  verbosity : Nat
  deriving DecidableEq, Repr

/-- A filter: its rules, the most specific first. -/
structure Filter where
  directives : List Directive
  deriving DecidableEq, Repr

namespace Directive

/-- Whether the rule speaks about the event. -/
def appliesTo (d : Directive) (e : Event) : Bool :=
  (d.target.all fun t => t.isPrefixOf e.target) &&
    d.fields.all fun name => name = "message" || e.fields.any fun field => field.1 = name

/-- Whether two rules are about the same events, so that the later one replaces the earlier. -/
def sameScope (a b : Directive) : Bool :=
  a.target = b.target && a.fields = b.fields

/-- Whether `a` is tried before `b`: a longer target first, then more fields, and between rules
equally specific, the greater target and then the greater field names. -/
def before (a b : Directive) : Bool :=
  let length (d : Directive) := d.target.map String.length
  if length a ≠ length b then compare (length a) (length b) == .gt
  else if a.fields.length ≠ b.fields.length then b.fields.length < a.fields.length
  else if a.target ≠ b.target then compare a.target b.target == .gt
  else compare a.fields b.fields == .gt

end Directive

namespace Filter

/-- The filter with no rules, which shows nothing. -/
def empty : Filter := ⟨[]⟩

/-- The rule added in its place by specificity, replacing a rule about the same events. -/
def insert (d : Directive) : List Directive → List Directive
  | [] => [d]
  | first :: rest =>
    if d.sameScope first then d :: rest
    else if d.before first then d :: first :: rest
    else first :: insert d rest

/-- The filter that shows every event up to a verbosity. -/
def upTo (verbosity : Nat) : Filter :=
  ⟨[⟨none, [], verbosity⟩]⟩

/-- Whether the filter shows the event: the first rule that applies decides by the event's
level; when none applies the event is not shown. -/
def enables (f : Filter) (e : Event) : Bool :=
  match f.directives.find? (·.appliesTo e) with
  | some d => e.level.rank ≤ d.verbosity
  | none => false

end Filter

namespace Verbosity

/-- The verbosity that a level name stands for, in any case; `off` is 0. -/
def ofName (s : String) : Option Nat :=
  match s.toLower with
  | "off" => some 0
  | "error" => some 1
  | "warn" => some 2
  | "info" => some 3
  | "debug" => some 4
  | "trace" => some 5
  | _ => none

/-- A verbosity as written in a directive: a level name or a single digit from 0 to 5. -/
def ofWord (s : String) : Option Nat :=
  match s.toList with
  | [c] => if '0' ≤ c && c ≤ '5' then some (c.toNat - '0'.toNat) else ofName s
  | _ => ofName s

/-- Whether a target name reads as a verbosity: a number from 0 to 5, with any leading zeros,
or a level name. Such a target stands for no target at all. -/
def isVerbosity (s : String) : Bool :=
  if !s.isEmpty && s.all Char.isDigit then s.toNat?.all (· ≤ 5) else (ofName s).isSome

end Verbosity

/-- Characters of a target: letters, digits, underscores, colons and hyphens. -/
def isTargetChar (c : Char) : Bool :=
  c.isAlphanum || c = '_' || c = ':' || c = '-' || 0x80 ≤ c.toNat

/-- A part of a directive before its verbosity: a target name, or the text of a bracketed span
part. -/
inductive Scope where
  | target (name : String)
  | span (text : String)
  deriving DecidableEq, Repr

/-- Where reading the parts of a directive stands: between parts, inside a target name, or inside
brackets, with the characters read of the current part. -/
inductive ScopeState where
  | between
  | name (read : List Char)
  | bracket (read : List Char)

/-- The parts of a directive in order, and the text after its `=` when it has one; `none` when
the text holds something else or leaves a bracket open. -/
def scopes (parts : List Scope) : ScopeState → List Char → Option (List Scope × Option String)
  | .between, [] => some (parts, none)
  | .name read, [] => some (parts ++ [.target (String.ofList read)], none)
  | .bracket _, [] => none
  | .bracket read, c :: rest =>
    if c = ']' then scopes (parts ++ [.span (String.ofList read)]) .between rest
    else scopes parts (.bracket (read ++ [c])) rest
  | .between, c :: rest =>
    if c = '=' then some (parts, some (String.ofList rest))
    else if c = '[' then scopes parts (.bracket []) rest
    else if isTargetChar c then scopes parts (.name [c]) rest
    else none
  | .name read, c :: rest =>
    if c = '=' then some (parts ++ [.target (String.ofList read)], some (String.ofList rest))
    else if c = '[' then scopes (parts ++ [.target (String.ofList read)]) (.bracket []) rest
    else if isTargetChar c then scopes parts (.name (read ++ [c])) rest
    else none

/-- Characters of a field name. -/
def isFieldChar (c : Char) : Bool :=
  c.isAlphanum || c = '_'

/-- The field filter of a span part's braces, which hold no comma: the text from the first
letter, digit or underscore whose run of those and dots is followed by the end, or by `=` and a
value. -/
def fieldFilter : List Char → Option (List Char)
  | [] => none
  | c :: rest =>
    let fits := match rest.dropWhile fun x => isFieldChar x || x = '.' with
      | [] => true
      | '=' :: _ :: _ => true
      | _ => false
    if isFieldChar c && fits then some (c :: rest) else fieldFilter rest

/-- What the text of a directive says: a rule for events, or a rule that names a span or a
field value and so only speaks inside spans. -/
inductive Rule where
  | events (d : Directive)
  | inSpans
  deriving DecidableEq, Repr

/-- The last target name among the parts. -/
def lastTarget (parts : List Scope) : Option String :=
  parts.foldl (fun found part => match part with
    | .target name => some name
    | .span _ => found) none

/-- The last span part among the parts. -/
def lastSpan (parts : List Scope) : Option String :=
  parts.foldl (fun found part => match part with
    | .span text => some text
    | .target _ => found) none

/-- The rule of a span part: with a span name, or a field with a value, it speaks inside spans;
otherwise it asks for the field it names, if any. -/
def spanRule (target : Option String) (verbosity : Nat) (span : String) : Rule :=
  let inner := ((span.toList.dropWhile (· = '[')).reverse.dropWhile (· = '[')).reverse
  let (name, rest) := inner.span (· ≠ '{')
  let field := match rest with
    | '{' :: more => if more.contains '}' then fieldFilter (more.takeWhile (· ≠ '}')) else none
    | _ => none
  if !name.isEmpty || field.any (·.contains '=') then .inSpans
  else .events ⟨target, field.toList.map (String.ofList ∘ List.takeWhile (· ≠ '=')), verbosity⟩

/-- The rule a directive's text says, or `none` when the text is no directive. -/
def Rule.parse? (text : String) : Option Rule :=
  match Verbosity.ofWord text with
  | some verbosity => some (.events ⟨none, [], verbosity⟩)
  | none =>
    match scopes [] .between text.toList with
    | none => none
    | some (parts, word) =>
      if parts.isEmpty || 2 < parts.length then none
      else
        let verbosity := match word with
          | none => some 5
          | some "" => some 5
          | some word => Verbosity.ofWord word
        verbosity.map fun verbosity =>
          let target := (lastTarget parts).filter fun name => !Verbosity.isVerbosity name
          match lastSpan parts with
          | none => .events ⟨target, [], verbosity⟩
          | some span => spanRule target verbosity span

namespace Filter

/-- The filter a text describes: its directives separated by commas, empty ones skipped; `none`
when one of them cannot be read. -/
def parse? (text : String) : Option Filter :=
  ((text.splitOn ",").filter (!·.isEmpty)).foldlM (fun f piece =>
    (Rule.parse? piece).map fun
      | .events d => ⟨insert d f.directives⟩
      | .inSpans => f) empty

end Filter

end Log

end DocExamples
