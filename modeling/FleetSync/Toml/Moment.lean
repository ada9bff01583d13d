import FleetSync.Text.Decimal

/-!
Dates and times as TOML writes them.

A moment is a date, a time of day, or both, and only with both an offset from universal time.
Seconds may reach 60 to admit leap seconds; digits beyond nanoseconds are dropped. The text of a
moment has a `T` between date and time and ends its fraction with the last digit that is not zero.
-/
namespace FleetSync.Toml

structure Date where
  year : Nat
  month : Nat
  day : Nat
  deriving DecidableEq

structure Time where
  hour : Nat
  minute : Nat
  second : Nat
  nanosecond : Nat
  deriving DecidableEq

/-- The distance from universal time. -/
inductive Offset where
  | universal
  | minutes (ahead : Int)
  deriving DecidableEq

inductive Moment where
  | date (date : Date)
  | time (time : Time)
  | both (date : Date) (time : Time) (offset : Option Offset)
  deriving DecidableEq

/-- The number of two digits. -/
def twoDigits? (a b : Char) : Option Nat := Decimal.nat? [a, b]

/-- A number of two digits within bounds. -/
def readPair (low high : Nat) : List Char → Option (Nat × List Char)
  | a :: b :: rest => do
    let n ← twoDigits? a b
    if low ≤ n ∧ n ≤ high then return (n, rest) else none
  | _ => none

def readMark (mark : Char) : List Char → Option (List Char)
  | c :: rest => if c = mark then some rest else none
  | [] => none

namespace Date

def isLeap (year : Nat) : Bool := year % 4 = 0 && (year % 100 ≠ 0 || year % 400 = 0)

def daysIn (year month : Nat) : Nat :=
  if month = 2 then (if isLeap year then 29 else 28)
  else if month ∈ [4, 6, 9, 11] then 30
  else 31

/-- Four digits and a hyphen can be nothing but a date. -/
def begins : List Char → Bool
  | a :: b :: c :: d :: '-' :: _ => [a, b, c, d].all Char.isDigit
  | _ => false

def read : List Char → Option (Date × List Char)
  | a :: b :: c :: d :: rest => do
    let year ← Decimal.nat? [a, b, c, d]
    let rest ← readMark '-' rest
    let (month, rest) ← readPair 1 12 rest
    let rest ← readMark '-' rest
    let (day, rest) ← readPair 1 (daysIn year month) rest
    return (⟨year, month, day⟩, rest)
  | _ => none

end Date

namespace Time

/-- Two digits and a colon can be nothing but a time. -/
def begins : List Char → Bool
  | a :: b :: ':' :: _ => a.isDigit && b.isDigit
  | _ => false

/-- The nanoseconds of the digits behind the point. -/
def ofFraction (digits : List Char) : Nat :=
  Nat.ofDigitChars 10 ((digits ++ List.replicate 9 '0').take 9) 0

/-- The fraction of a second, if there is one. -/
def readFraction : List Char → Nat × List Char
  | '.' :: rest =>
    let digits := rest.takeWhile Char.isDigit
    if digits = [] then (0, '.' :: rest) else (ofFraction digits, rest.dropWhile Char.isDigit)
  | rest => (0, rest)

def read (cs : List Char) : Option (Time × List Char) := do
  let (hour, rest) ← readPair 0 23 cs
  let rest ← readMark ':' rest
  let (minute, rest) ← readPair 0 59 rest
  let rest ← readMark ':' rest
  let (second, rest) ← readPair 0 60 rest
  let (nanosecond, rest) := readFraction rest
  return (⟨hour, minute, second, nanosecond⟩, rest)

end Time

namespace Offset

/-- The hours and minutes behind a sign. -/
def readMinutes (cs : List Char) : Option (Int × List Char) := do
  let (hour, rest) ← readPair 0 23 cs
  let rest ← readMark ':' rest
  let (minute, rest) ← readPair 0 59 rest
  return (60 * hour + minute, rest)

/-- The offset, if there is one. -/
def read : List Char → Option (Option Offset × List Char)
  | 'Z' :: rest => some (some .universal, rest)
  | 'z' :: rest => some (some .universal, rest)
  | '+' :: rest => (readMinutes rest).map fun (m, rest) => (some (.minutes m), rest)
  | '-' :: rest => (readMinutes rest).map fun (m, rest) => (some (.minutes (-m)), rest)
  | rest => some (none, rest)

end Offset

namespace Moment

def begins (cs : List Char) : Bool := Date.begins cs || Time.begins cs

/-- The time behind a date, if there is one, and its offset. -/
def readClock (d : Date) : List Char → Option (Moment × List Char)
  | c :: rest =>
    if (c = 'T' ∨ c = 't' ∨ c = ' ') ∧ Time.begins rest then do
      let (t, rest) ← Time.read rest
      let (offset, rest) ← Offset.read rest
      return (.both d t offset, rest)
    else some (.date d, c :: rest)
  | [] => some (.date d, [])

def read (cs : List Char) : Option (Moment × List Char) :=
  if Date.begins cs then do
    let (d, rest) ← Date.read cs
    readClock d rest
  else (Time.read cs).map fun (t, rest) => (.time t, rest)

/-- The moment that a string spells out as a whole. -/
def ofText? (s : String) : Option Moment :=
  match read s.toList with
  | some (m, []) => some m
  | _ => none

/-- A number with zeros in front up to a width. -/
def padded (width n : Nat) : List Char :=
  List.replicate (width - (Decimal.ofNat n).length) '0' ++ Decimal.ofNat n

def dateChars (d : Date) : List Char :=
  padded 4 d.year ++ '-' :: padded 2 d.month ++ '-' :: padded 2 d.day

def timeChars (t : Time) : List Char :=
  padded 2 t.hour ++ ':' :: padded 2 t.minute ++ ':' :: padded 2 t.second ++
    if t.nanosecond = 0 then []
    else '.' :: ((padded 9 t.nanosecond).reverse.dropWhile (· = '0')).reverse

def offsetChars : Offset → List Char
  | .universal => ['Z']
  | .minutes m =>
    (if m < 0 then '-' else '+') :: padded 2 (m.natAbs / 60) ++ ':' :: padded 2 (m.natAbs % 60)

def toText (m : Moment) : String := String.ofList <|
  match m with
  | .date d => dateChars d
  | .time t => timeChars t
  | .both d t offset => dateChars d ++ 'T' :: timeChars t ++ (offset.map offsetChars).getD []

end Moment
end FleetSync.Toml
