import FleetSync.Json.Basic
import FleetSync.Text.Hex

/-!
Reading JSON texts.

The grammar is the strict one: no byte order mark, no comment, no trailing comma, no leading zero,
no control character inside a string. A reader takes the characters ahead and gives back a value
and the rest, so that values written one after another are read one after another.
-/
namespace FleetSync.Json

/-- White space between tokens. -/
def isBlank (c : Char) : Bool := c = ' ' || c = '\n' || c = '\r' || c = '\t'

def skipBlank (cs : List Char) : List Char := cs.dropWhile isBlank

/-- The 16-bit unit of four hexadecimal digits. -/
def unit? (a b c d : Char) : Option Nat := do
  return (((← Hex.value? a) * 16 + (← Hex.value? b)) * 16 + (← Hex.value? c)) * 16 + (← Hex.value? d)

/-- The character of an escape by one letter. -/
def letterEscape? (c : Char) : Option Char :=
  if c = '"' ∨ c = '\\' ∨ c = '/' then some c
  else if c = 'b' then some '\x08'
  else if c = 'f' then some '\x0c'
  else if c = 'n' then some '\n'
  else if c = 'r' then some '\r'
  else if c = 't' then some '\t'
  else none

/-- A string literal piece by piece: a character, or the 16-bit unit of a numeric escape. -/
inductive Piece where
  | char (c : Char)
  | unit (n : Nat)
  deriving DecidableEq

/-- The pieces up to the closing quote, and what follows it. -/
def readPieces : List Char → Option (List Piece × List Char)
  | '"' :: rest => some ([], rest)
  | '\\' :: 'u' :: a :: b :: c :: d :: rest => do
    let n ← unit? a b c d
    let (ps, rest) ← readPieces rest
    return (.unit n :: ps, rest)
  | '\\' :: c :: rest => do
    let e ← letterEscape? c
    let (ps, rest) ← readPieces rest
    return (.char e :: ps, rest)
  | c :: rest =>
    if c.toNat < 32 ∨ c = '\\' then none
    else do
      let (ps, rest) ← readPieces rest
      return (.char c :: ps, rest)
  | [] => none

def isHighHalf (n : Nat) : Bool := 0xD800 ≤ n && n < 0xDC00

def isLowHalf (n : Nat) : Bool := 0xDC00 ≤ n && n < 0xE000

/-- Joins a high and a low unit that stand together; a unit that is half of a pair and stands
alone has no characters. -/
def joinPieces : List Piece → Option (List Char)
  | [] => some []
  | .char c :: ps => (joinPieces ps).map (c :: ·)
  | .unit n :: ps =>
    if isHighHalf n then
      match ps with
      | .unit m :: ps =>
        if isLowHalf m then
          (joinPieces ps).map (Char.ofNat (0x10000 + (n - 0xD800) * 0x400 + (m - 0xDC00)) :: ·)
        else none
      | _ => none
    else if isLowHalf n then none
    else (joinPieces ps).map (Char.ofNat n :: ·)

/-- A string literal after its opening quote. -/
def readLiteral (cs : List Char) : Option (Literal × List Char) :=
  (readPieces cs).map fun (ps, rest) => ((joinPieces ps).map String.ofList, rest)

/-- One or more digits. -/
def readDigits (cs : List Char) : Option (List Char × List Char) :=
  if (cs.takeWhile Char.isDigit).isEmpty then none
  else some (cs.takeWhile Char.isDigit, cs.dropWhile Char.isDigit)

/-- The digits before the point: a zero alone, or digits that start with none. -/
def readWhole : List Char → Option (List Char × List Char)
  | '0' :: rest =>
    match rest with
    | c :: _ => if c.isDigit then none else some (['0'], rest)
    | [] => some (['0'], rest)
  | cs => readDigits cs

/-- The digits after a point, if there is one. -/
def readFraction : List Char → Option (List Char × List Char)
  | '.' :: rest => readDigits rest
  | cs => some ([], cs)

/-- The exponent, if there is one. -/
def readExponent : List Char → Option (Option Int × List Char)
  | c :: rest =>
    if c = 'e' ∨ c = 'E' then
      match rest with
      | '-' :: rest => (readDigits rest).map fun (ds, r) => (some (-(Nat.ofDigitChars 10 ds 0 : Int)), r)
      | '+' :: rest => (readDigits rest).map fun (ds, r) => (some (Nat.ofDigitChars 10 ds 0 : Int), r)
      | rest => (readDigits rest).map fun (ds, r) => (some (Nat.ofDigitChars 10 ds 0 : Int), r)
    else some (none, c :: rest)
  | [] => some (none, [])

/-- A number after its sign. -/
def readUnsigned (negative : Bool) (cs : List Char) : Option (Number × List Char) := do
  let (ds, rest) ← readWhole cs
  let (fs, rest) ← readFraction rest
  let (e, rest) ← readExponent rest
  match fs, e with
  | [], none => return (.whole negative (Nat.ofDigitChars 10 ds 0), rest)
  | fs, e => return (.scaled negative (Nat.ofDigitChars 10 (ds ++ fs) 0) (e.getD 0 - fs.length), rest)

def readNumber : List Char → Option (Number × List Char)
  | '-' :: rest => readUnsigned true rest
  | cs => readUnsigned false cs

mutual
/-- A value after optional white space. Every call that goes deeper or on to a next item uses one
unit of fuel, so twice the length of the text suffices. -/
def readValue : Nat → List Char → Option (Json × List Char)
  | 0, _ => none
  | fuel + 1, cs =>
    match skipBlank cs with
    | 'n' :: 'u' :: 'l' :: 'l' :: rest => some (.null, rest)
    | 't' :: 'r' :: 'u' :: 'e' :: rest => some (.bool true, rest)
    | 'f' :: 'a' :: 'l' :: 's' :: 'e' :: rest => some (.bool false, rest)
    | '"' :: rest => (readLiteral rest).map fun (s, rest) => (.str s, rest)
    | '[' :: rest =>
      match skipBlank rest with
      | ']' :: rest => some (.arr [], rest)
      | rest => (readItems fuel rest).map fun (js, rest) => (.arr js, rest)
    | '{' :: rest =>
      match skipBlank rest with
      | '}' :: rest => some (.obj [], rest)
      | rest => (readMembers fuel rest).map fun (ms, rest) => (.obj ms, rest)
    | cs => (readNumber cs).map fun (n, rest) => (.number n, rest)

/-- The items of a non-empty array and the bracket that closes it. -/
def readItems : Nat → List Char → Option (List Json × List Char)
  | 0, _ => none
  | fuel + 1, cs => do
    let (j, rest) ← readValue fuel cs
    match skipBlank rest with
    | ']' :: rest => return ([j], rest)
    | ',' :: rest =>
      let (js, rest) ← readItems fuel rest
      return (j :: js, rest)
    | _ => none

/-- The members of a non-empty object and the brace that closes it. -/
def readMembers : Nat → List Char → Option (List (Literal × Json) × List Char)
  | 0, _ => none
  | fuel + 1, cs => do
    let '"' :: rest := skipBlank cs | none
    let (k, rest) ← readLiteral rest
    let ':' :: rest := skipBlank rest | none
    let (j, rest) ← readValue fuel rest
    match skipBlank rest with
    | '}' :: rest => return ([(k, j)], rest)
    | ',' :: rest =>
      let (ms, rest) ← readMembers fuel rest
      return ((k, j) :: ms, rest)
    | _ => none
end

/-- The document a text holds, with nothing but white space around it. -/
def parse (cs : List Char) : Option Json := do
  let (j, rest) ← readValue (2 * cs.length + 2) cs
  if skipBlank rest = [] then return j else none

def ofText? (s : String) : Option Json := parse s.toList

end FleetSync.Json
