import Calculator.Text.Quoted

/-!
# Text in JSON

A JSON string here holds ASCII only. The quote, the backslash and five control characters
have short forms; any other character outside the range from the space to the tilde is
written as one UTF-16 unit or as a surrogate pair.
-/

namespace Calculator.Text

/-- One UTF-16 unit of a JSON string. -/
def jsonUnit (n : Nat) : List Char :=
  '\\' :: 'u' :: hexDigits 4 n

def jsonChar (c : Char) : List Char :=
  if c = '"' ∨ c = '\\' then ['\\', c]
  else if c = '\n' then ['\\', 'n']
  else if c = '\r' then ['\\', 'r']
  else if c = '\t' then ['\\', 't']
  else if c = '\x08' then ['\\', 'b']
  else if c = '\x0c' then ['\\', 'f']
  else if ' ' ≤ c ∧ c ≤ '~' then [c]
  else if c.toNat < 0x10000 then jsonUnit c.toNat
  else
    let above := c.toNat - 0x10000
    jsonUnit (0xd800 + above / 0x400) ++ jsonUnit (0xdc00 + above % 0x400)

def jsonString (s : String) : String :=
  String.ofList ('"' :: s.toList.flatMap jsonChar ++ ['"'])

/-- A JSON object over several lines, each field two spaces further to the right than
the braces. The values are texts of JSON already. -/
def jsonObject (indent : Nat) (fields : List (String × String)) : String :=
  let margin := String.ofList (List.replicate indent ' ')
  let line (field : String × String) : String :=
    margin ++ "  " ++ jsonString field.1 ++ ": " ++ field.2
  "\x7b\n" ++ String.intercalate ",\n" (fields.map line) ++ "\n" ++ margin ++ "\x7d"

end Calculator.Text
