import FleetSync.Text.Hex
import FleetSync.Toml.Basic

/-!
Reading strings, numbers and words of TOML.

A string is basic or literal, and each kind has a form over several lines. In a basic string the
backslash escapes; in a literal one it stands for itself. No control character but the tab stands
in a string, apart from the line ends of the longer forms, which are all read as line feeds. Digits
of a number may be parted by underscores.
-/
namespace FleetSync.Toml

/-- White space within a line. -/
def isBlank (c : Char) : Bool := c = ' ' || c = '\t'

/-- A character that may stand in a comment or a string. -/
def isPlain (c : Char) : Bool := c = '\t' || (32 ≤ c.toNat && c ≠ '\x7f')

/-- The number of hexadecimal digits. -/
def hexNumber? (cs : List Char) : Option Nat :=
  cs.foldlM (fun n c => (Hex.value? c).map (16 * n + ·)) 0

/-- The character of a number; halves of pairs and numbers beyond the last character have none. -/
def charOf? (n : Nat) : Option Char := if n.isValidChar then some (Char.ofNat n) else none

/-- The character of hexadecimal digits. -/
def hexChar? (cs : List Char) : Option Char := (hexNumber? cs).bind charOf?

/-- The character of an escape by one letter. -/
def letterEscape? (c : Char) : Option Char :=
  if c = '"' ∨ c = '\\' then some c
  else if c = 'b' then some '\x08'
  else if c = 't' then some '\t'
  else if c = 'n' then some '\n'
  else if c = 'f' then some '\x0c'
  else if c = 'r' then some '\r'
  else none

/-- The character of an escape, after its backslash, and how many characters the escape has. -/
def escape? : List Char → Option (Char × Nat)
  | 'u' :: rest => if 4 ≤ rest.length then (hexChar? (rest.take 4)).map fun c => (c, 5) else none
  | 'U' :: rest => if 8 ≤ rest.length then (hexChar? (rest.take 8)).map fun c => (c, 9) else none
  | c :: _ => (letterEscape? c).map fun c => (c, 1)
  | [] => none

/-- How many characters of white space and line ends are at the front. -/
def blankLines : List Char → Nat
  | '\r' :: '\n' :: rest => blankLines rest + 2
  | c :: rest => if isBlank c ∨ c = '\n' then blankLines rest + 1 else 0
  | [] => 0

/-- How many characters a line end has that follows a backslash, with all white space before and
behind it. -/
def foldedLine? (cs : List Char) : Option Nat :=
  match cs.dropWhile isBlank with
  | '\n' :: _ => some (blankLines cs)
  | '\r' :: '\n' :: _ => some (blankLines cs)
  | _ => none

def found (c : Char) (r : Option (List Char × List Char)) : Option (List Char × List Char) :=
  r.map fun (cs, rest) => (c :: cs, rest)

/-- A basic string after its quote. The first `skip` characters have been read. -/
def readBasic (skip : Nat) : List Char → Option (List Char × List Char)
  | [] => none
  | c :: rest =>
    match skip with
    | skip + 1 => readBasic skip rest
    | 0 =>
      if c = '"' then some ([], rest)
      else if c = '\\' then do
        let (e, n) ← escape? rest
        found e (readBasic n rest)
      else if isPlain c then found c (readBasic 0 rest)
      else none

/-- A literal string after its quote. -/
def readLiteral : List Char → Option (List Char × List Char)
  | [] => none
  | c :: rest =>
    if c = '\'' then some ([], rest)
    else if isPlain c then found c (readLiteral rest)
    else none

/-- The end of a string over several lines, after its three quotes: up to two more belong to the
string. -/
def lastQuotes (quote : Char) : List Char → List Char × List Char
  | a :: b :: rest =>
    if a = quote then (if b = quote then ([a, b], rest) else ([a], b :: rest)) else ([], a :: b :: rest)
  | [a] => if a = quote then ([a], []) else ([], [a])
  | [] => ([], [])

/-- A string over several lines after its three quotes. The first `skip` characters have been
read. -/
def readLong (quote : Char) (skip : Nat) : List Char → Option (List Char × List Char)
  | [] => none
  | c :: rest =>
    match skip with
    | skip + 1 => readLong quote skip rest
    | 0 =>
      if c = quote then
        match rest with
        | a :: b :: rest' =>
          if a = quote ∧ b = quote then some (lastQuotes quote rest')
          else found c (readLong quote 0 rest)
        | _ => none
      else if c = '\\' ∧ quote = '"' then
        match foldedLine? rest with
        | some n => readLong quote n rest
        | none => do
          let (e, n) ← escape? rest
          found e (readLong quote n rest)
      else if c = '\n' ∨ isPlain c then found c (readLong quote 0 rest)
      else if c = '\r' ∧ rest.head? = some '\n' then readLong quote 0 rest
      else none

/-- A line end right after the opening quotes is no part of the string. -/
def readLongBody (quote : Char) : List Char → Option (List Char × List Char)
  | '\n' :: rest => readLong quote 0 rest
  | '\r' :: '\n' :: rest => readLong quote 0 rest
  | rest => readLong quote 0 rest

/-- A string of any of the four kinds. -/
def readString : List Char → Option (List Char × List Char)
  | '"' :: '"' :: '"' :: rest => readLongBody '"' rest
  | '"' :: rest => readBasic 0 rest
  | '\'' :: '\'' :: '\'' :: rest => readLongBody '\'' rest
  | '\'' :: rest => readLiteral rest
  | _ => none

/-- The digits at the front. An underscore between two of them is left out; `inside` says that a
digit came right before. -/
def splitDigits (isDigit : Char → Bool) (inside : Bool) : List Char → List Char × List Char
  | [] => ([], [])
  | c :: rest =>
    if isDigit c then
      let (ds, rest) := splitDigits isDigit true rest
      (c :: ds, rest)
    else if inside ∧ c = '_' ∧ rest.head?.any isDigit then splitDigits isDigit false rest
    else ([], c :: rest)

/-- One or more digits. -/
def readDigits (isDigit : Char → Bool) (cs : List Char) : Option (List Char × List Char) :=
  let (ds, rest) := splitDigits isDigit false cs
  if ds = [] then none else some (ds, rest)

/-- Digits without a leading zero, or a zero alone. -/
def readWhole : List Char → Option (List Char × List Char)
  | '0' :: rest => some (['0'], rest)
  | cs => readDigits Char.isDigit cs

/-- The digits behind a point, if there is one. -/
def readFraction : List Char → Option (List Char × List Char)
  | '.' :: rest => readDigits Char.isDigit rest
  | rest => some ([], rest)

/-- The exponent, if there is one. -/
def readExponent : List Char → Option (Option Int × List Char)
  | c :: rest =>
    if c = 'e' ∨ c = 'E' then
      let (negative, digits) : Bool × List Char :=
        match rest with
        | '-' :: rest => (true, rest)
        | '+' :: rest => (false, rest)
        | rest => (false, rest)
      (readDigits Char.isDigit digits).map fun (ds, rest) =>
        let n : Int := Nat.ofDigitChars 10 ds 0
        (some (if negative then -n else n), rest)
    else some (none, c :: rest)
  | [] => some (none, [])

/-- A decimal number after its sign. A whole one has to fit 64 bits; one with a fraction or an
exponent must not exceed the largest number. -/
def readDecimal (negative : Bool) (cs : List Char) : Option (Toml × List Char) := do
  let (ds, rest) ← readWhole cs
  let (fs, rest) ← readFraction rest
  let (e, rest) ← readExponent rest
  if fs = [] ∧ e = none then
    let n : Int := Nat.ofDigitChars 10 ds 0
    return (.whole (← Decimal.narrow? (if negative then -n else n)), rest)
  else
    let x := Double.nearest negative (Nat.ofDigitChars 10 (ds ++ fs) 0) (e.getD 0 - fs.length)
    if x = .infinite false then none else return (.real x, rest)

/-- A number after its sign. -/
def readUnsigned (negative : Bool) : List Char → Option (Toml × List Char)
  | 'i' :: 'n' :: 'f' :: rest => some (.real (.infinite negative), rest)
  | 'n' :: 'a' :: 'n' :: rest => some (.real .nan, rest)
  | cs => readDecimal negative cs

/-- A whole number in another base, after the mark of the base. -/
def readBased (base : Nat) (cs : List Char) : Option (Toml × List Char) := do
  let (ds, rest) ← readDigits (fun c => (Hex.value? c).any (· < base)) cs
  let n := ds.foldl (fun n c => base * n + (Hex.value? c).getD 0) 0
  return (.whole (← Decimal.narrow? n), rest)

def readNumber : List Char → Option (Toml × List Char)
  | '0' :: 'x' :: rest => readBased 16 rest
  | '0' :: 'o' :: rest => readBased 8 rest
  | '0' :: 'b' :: rest => readBased 2 rest
  | '-' :: rest => readUnsigned true rest
  | '+' :: rest => readUnsigned false rest
  | rest => readUnsigned false rest

/-- A value that is neither a list nor a table. -/
def readScalar (cs : List Char) : Option (Toml × List Char) :=
  match cs with
  | 't' :: 'r' :: 'u' :: 'e' :: rest => some (.flag true, rest)
  | 'f' :: 'a' :: 'l' :: 's' :: 'e' :: rest => some (.flag false, rest)
  | '"' :: _ => (readString cs).map fun (s, rest) => (.text (String.ofList s), rest)
  | '\'' :: _ => (readString cs).map fun (s, rest) => (.text (String.ofList s), rest)
  | _ =>
    if Moment.begins cs then (Moment.read cs).map fun (m, rest) => (.moment m, rest)
    else readNumber cs

end FleetSync.Toml
