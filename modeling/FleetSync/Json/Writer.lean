import FleetSync.Json.Basic

/-!
The compact text of a JSON document.

There is no white space, members keep their order, and a string escapes the quote, the backslash
and the characters below the space, everything else standing for itself. The text of a document
without ill-formed literals reads back as that document.
-/
namespace FleetSync.Json

/-- Lower-case hexadecimal digit of a number below sixteen. -/
def hexDigit (n : Nat) : Char := Nat.digitChar n

/-- One character as it stands inside a string literal. -/
def escapeChar (c : Char) : List Char :=
  if c = '"' then ['\\', '"']
  else if c = '\\' then ['\\', '\\']
  else if c = '\x08' then ['\\', 'b']
  else if c = '\x0c' then ['\\', 'f']
  else if c = '\n' then ['\\', 'n']
  else if c = '\r' then ['\\', 'r']
  else if c = '\t' then ['\\', 't']
  else if c.toNat < 32 then
    ['\\', 'u', '0', '0', hexDigit (c.toNat / 16), hexDigit (c.toNat % 16)]
  else [c]

def quote (s : String) : List Char := '"' :: s.toList.flatMap escapeChar ++ ['"']

/-- A literal without characters has no written form of its own; it is written as an unpaired
escape. -/
def renderLiteral : Literal → List Char
  | some s => quote s
  | none => ['"', '\\', 'u', 'd', '8', '0', '0', '"']

def renderNumber : Number → List Char
  | .whole negative n => (if negative then ['-'] else []) ++ Decimal.ofNat n
  | .scaled negative n e =>
    (if negative then ['-'] else []) ++ Decimal.ofNat n ++ 'e' :: Decimal.ofInt e

mutual
/-- The compact text of a document. -/
def render : Json → List Char
  | .null => ['n', 'u', 'l', 'l']
  | .bool true => ['t', 'r', 'u', 'e']
  | .bool false => ['f', 'a', 'l', 's', 'e']
  | .number n => renderNumber n
  | .str s => renderLiteral s
  | .arr items => '[' :: renderItems items
  | .obj members => '{' :: renderMembers members

/-- The items of an array and the bracket that closes it. -/
def renderItems : List Json → List Char
  | [] => [']']
  | [j] => render j ++ [']']
  | j :: rest => render j ++ ',' :: renderItems rest

/-- The members of an object and the brace that closes it. -/
def renderMembers : List (Literal × Json) → List Char
  | [] => ['}']
  | [(k, j)] => renderLiteral k ++ ':' :: render j ++ ['}']
  | (k, j) :: rest => renderLiteral k ++ ':' :: render j ++ ',' :: renderMembers rest
end

def toText (j : Json) : String := String.ofList j.render

end FleetSync.Json
