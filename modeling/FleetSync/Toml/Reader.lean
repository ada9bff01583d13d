import FleetSync.Toml.Scalar
import FleetSync.Toml.Spelled

/-!
Reading TOML documents.

A document is read line by line: blank lines, comments, headers, and keys with their values. Lists
may go over several lines and end with a comma; inline tables may not. Values are nested less than
eighty deep, and a key has less than eighty parts.
-/
namespace FleetSync.Toml

/-- The limit of nesting. -/
def maxDepth : Nat := 80

def skipBlank (cs : List Char) : List Char := cs.dropWhile isBlank

mutual
/-- Skips white space, line ends and comments between the items of a list. -/
def skipLines : List Char → Option (List Char)
  | '\r' :: '\n' :: rest => skipLines rest
  | c :: rest =>
    if isBlank c ∨ c = '\n' then skipLines rest
    else if c = '#' then skipComment rest
    else some (c :: rest)
  | [] => some []

/-- Skips the rest of a comment, which has to end with its line. -/
def skipComment : List Char → Option (List Char)
  | '\r' :: '\n' :: rest => skipLines rest
  | c :: rest => if c = '\n' then skipLines rest else if isPlain c then skipComment rest else none
  | [] => none
end

/-- A line end, or the end of the document. -/
def readLineEnd : List Char → Option (List Char)
  | '\n' :: rest => some rest
  | '\r' :: '\n' :: rest => some rest
  | [] => some []
  | _ => none

/-- The rest of a line that says nothing any more. -/
def finishLine (cs : List Char) : Option (List Char) :=
  match skipBlank cs with
  | '#' :: rest => readLineEnd (rest.dropWhile isPlain)
  | rest => readLineEnd rest

/-- A character of a key without quotes. -/
def isBare (c : Char) : Bool := c.isAlphanum || c = '_' || c = '-'

/-- One part of a key. -/
def readName : List Char → Option (String × List Char)
  | '"' :: rest => (readBasic 0 rest).map fun (s, rest) => (String.ofList s, rest)
  | '\'' :: rest => (readLiteral rest).map fun (s, rest) => (String.ofList s, rest)
  | cs =>
    if (cs.takeWhile isBare).isEmpty then none
    else some (String.ofList (cs.takeWhile isBare), cs.dropWhile isBare)

/-- The parts of a key, at most `limit` of them. -/
def readKey (limit : Nat) (cs : List Char) : Option (Key × List Char) :=
  match limit with
  | 0 => none
  | limit + 1 => do
    let (name, rest) ← readName (skipBlank cs)
    match skipBlank rest with
    | '.' :: rest =>
      let (k, rest) ← readKey limit rest
      return (⟨name :: k.parents, k.name⟩, rest)
    | rest => return (⟨[], name⟩, rest)

mutual
/-- A value. Every call that goes deeper or on to a next item uses one unit of fuel, so twice the
length of the text suffices. -/
def readValue (fuel depth : Nat) (cs : List Char) : Option (Toml × List Char) :=
  match fuel with
  | 0 => none
  | fuel + 1 =>
    match cs, depth with
    | '[' :: _, 0 => none
    | '{' :: _, 0 => none
    | '[' :: rest, depth + 1 => (readItems fuel depth rest).map fun (vs, rest) => (.list vs, rest)
    | '{' :: rest, depth + 1 => do
      match skipBlank rest with
      | '}' :: rest => return (.table .inline [], rest)
      | rest =>
        let (pairs, rest) ← readPairs fuel depth rest
        return (← ofPairs pairs, rest)
    | cs, _ => readScalar cs

/-- The items of a list and the bracket that closes it. -/
def readItems (fuel depth : Nat) (cs : List Char) : Option (List Toml × List Char) :=
  match fuel with
  | 0 => none
  | fuel + 1 => do
    match ← skipLines cs with
    | ']' :: rest => return ([], rest)
    | cs =>
      let (v, rest) ← readValue fuel depth cs
      match ← skipLines rest with
      | ']' :: rest => return ([v], rest)
      | ',' :: rest =>
        let (vs, rest) ← readItems fuel depth rest
        return (v :: vs, rest)
      | _ => none

/-- The pairs of a non-empty inline table and the brace that closes it. -/
def readPairs (fuel depth : Nat) (cs : List Char) : Option (List (Key × Toml) × List Char) :=
  match fuel with
  | 0 => none
  | fuel + 1 => do
    let (k, rest) ← readKey (maxDepth - 1) cs
    let rest ← readMark '=' rest
    let (v, rest) ← readValue fuel depth (skipBlank rest)
    match skipBlank rest with
    | '}' :: rest => return ([(k, v)], rest)
    | ',' :: rest =>
      let (pairs, rest) ← readPairs fuel depth rest
      return ((k, v) :: pairs, rest)
    | _ => none
end

/-- A line with a header, or a key and its value. -/
def readStatement (cs : List Char) : Option (Statement × List Char) := do
  match cs with
  | '[' :: '[' :: rest =>
    let (k, rest) ← readKey (maxDepth - 1) rest
    let rest ← readMark ']' rest
    let rest ← readMark ']' rest
    return (.element k, ← finishLine rest)
  | '[' :: rest =>
    let (k, rest) ← readKey (maxDepth - 1) rest
    let rest ← readMark ']' rest
    return (.header k, ← finishLine rest)
  | cs =>
    let (k, rest) ← readKey (maxDepth - 1) cs
    let rest ← readMark '=' rest
    let (v, rest) ← readValue (2 * cs.length + 2) (maxDepth - 1) (skipBlank rest)
    return (.assign k v, ← finishLine rest)

/-- All statements. Every line has a character at least, so the length of the text suffices as
fuel. -/
def readStatements : Nat → List Char → Option (List Statement)
  | 0, cs => if skipBlank cs = [] then some [] else none
  | fuel + 1, cs =>
    match skipBlank cs with
    | [] => some []
    | '\n' :: rest => readStatements fuel rest
    | '\r' :: '\n' :: rest => readStatements fuel rest
    | '#' :: rest => do readStatements fuel (← finishLine ('#' :: rest))
    | rest => do
      let (s, rest) ← readStatement rest
      return s :: (← readStatements fuel rest)

/-- The document of a text, which may begin with a byte order mark. -/
def parse (cs : List Char) : Option Toml :=
  let cs := if cs.head? = some '\uFEFF' then cs.tail else cs
  ((readStatements cs.length cs).bind ofStatements).bind withMoments

end FleetSync.Toml
