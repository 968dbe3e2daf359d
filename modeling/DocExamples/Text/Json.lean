namespace DocExamples

/-- A JSON value whose object members keep the order they were given in. -/
inductive JsonValue where
  | bool (b : Bool)
  | number (n : Nat)
  | string (s : String)
  | array (items : List JsonValue)
  | object (members : List (String × JsonValue))
  deriving Repr

namespace JsonValue

/-- The hex digit of a number below sixteen, in lowercase. -/
def hexDigit (n : Nat) : Char :=
  if n < 10 then Char.ofNat (48 + n) else Char.ofNat (87 + n)

/-- A character as it is written inside a JSON string. -/
def escapeChar (c : Char) : String :=
  match c with
  | '"' => "\\\""
  | '\\' => "\\\\"
  | '\n' => "\\n"
  | '\r' => "\\r"
  | '\t' => "\\t"
  | '\x08' => "\\b"
  | '\x0c' => "\\f"
  | c =>
    if c.toNat < 0x20 then "\\u00" ++ String.ofList [hexDigit (c.toNat / 16), hexDigit (c.toNat % 16)]
    else String.singleton c

/-- A string as a JSON string, quotes included. -/
def quote (s : String) : String :=
  "\"" ++ String.join (s.toList.map escapeChar) ++ "\""

/-- The compact text of a value. -/
def render : JsonValue → String
  | .bool b => if b then "true" else "false"
  | .number n => toString n
  | .string s => quote s
  | .array items =>
    "[" ++ ",".intercalate (items.attach.map fun ⟨v, _member⟩ => render v) ++ "]"
  | .object members =>
    "\x7b" ++ ",".intercalate (members.attach.map fun ⟨(k, v), _member⟩ =>
      quote k ++ ":" ++ render v) ++ "\x7d"
termination_by v => v
decreasing_by
  · have := List.sizeOf_lt_of_mem _member
    simp only [array.sizeOf_spec]
    omega
  · have := List.sizeOf_lt_of_mem _member
    simp only [object.sizeOf_spec, Prod.mk.sizeOf_spec] at this ⊢
    omega

end JsonValue

end DocExamples
