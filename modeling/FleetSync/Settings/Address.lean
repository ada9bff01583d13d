import FleetSync.Settings.Tree

/-!
Addresses of settings as texts.

An address is a name, then names behind points and numbers in brackets, such as `publisher.destination`
or `names[0]`. A name has letters, digits, spaces, underscores and hyphens. A text that is not of this
form is a single name as a whole. Names are the same in either case of their letters.
-/
namespace FleetSync.Address

open Setting (Step)

def isNameChar (c : Char) : Bool := c.isAlphanum || c = ' ' || c = '_' || c = '-'

/-- A name at the front. -/
def readName (cs : List Char) : Option (String × List Char) :=
  if (cs.takeWhile isNameChar).isEmpty then none
  else some (String.ofList (cs.takeWhile isNameChar), cs.dropWhile isNameChar)

def skipSpace (cs : List Char) : List Char := cs.dropWhile fun c => c = ' ' ∨ c = '\t'

/-- A number and the bracket that closes it. -/
def readIndex (cs : List Char) : Option (Int × List Char) := do
  let (negative, digits) : Bool × List Char :=
    match skipSpace cs with
    | '-' :: rest => (true, rest)
    | rest => (false, rest)
  let n : Int ← Decimal.nat? (digits.takeWhile Char.isDigit)
  let i ← Decimal.narrow? (if negative then -n else n)
  match skipSpace (digits.dropWhile Char.isDigit) with
  | ']' :: rest => return (i.toInt, rest)
  | _ => none

/-- The steps behind the first name. -/
def readSteps : Nat → List Char → Option (List Step)
  | _, [] => some []
  | fuel + 1, '.' :: rest => do
    let (s, rest) ← readName rest
    return .name s :: (← readSteps fuel rest)
  | fuel + 1, '[' :: rest => do
    let (i, rest) ← readIndex rest
    return .index i :: (← readSteps fuel rest)
  | _, _ => none

def parse? (cs : List Char) : Option (List Step) := do
  let (s, rest) ← readName cs
  return .name s :: (← readSteps rest.length rest)

/-- The steps of an address. -/
def ofText (s : String) : List Step :=
  let lower := Text.toAsciiLower s
  (parse? lower.toList).getD [.name lower]

end FleetSync.Address
