/-!
Rows of comma-separated text.

Cells are separated by commas and rows by line ends of any of the three kinds; empty lines are no
rows. A cell that starts with a quote goes on to the closing quote, line ends and commas included,
and a quote inside it is written twice; what follows the closing quote still belongs to the cell. A
quote left open reaches to the end of the text. Each row knows the line on which its reading began,
which is right after the byte that ended the row before it.
-/
namespace FleetSync

/-- The cells of a row as bytes. -/
structure RawRow where
  line : Nat
  cells : List (List UInt8)
  deriving DecidableEq

namespace RawRow

/-- Where in a row the reader is. -/
inductive Place where
  /-- Between rows. -/
  | outside
  /-- At the start of a cell. -/
  | start
  | plain
  | quoted
  /-- After a quote within a quoted cell, which closes it unless another one follows. -/
  | quoteSeen
  deriving DecidableEq

/-- The reader between two bytes. Cells and the current cell are kept in reverse. -/
structure Reader where
  place : Place := .outside
  /-- The current line. -/
  line : Nat := 1
  /-- The line on which the reading of the row began. -/
  rowLine : Nat := 1
  cells : List (List UInt8) := []
  cell : List UInt8 := []

namespace Reader

def quote : UInt8 := 34
def comma : UInt8 := 44
def lineFeed : UInt8 := 10
def carriageReturn : UInt8 := 13

/-- The row as far as it has been read. -/
def row (r : Reader) : RawRow := ⟨r.rowLine, (r.cell.reverse :: r.cells).reverse⟩

def endCell (r : Reader) : Reader :=
  { r with place := .start, cells := r.cell.reverse :: r.cells, cell := [] }

def push (r : Reader) (place : Place) (b : UInt8) : Reader := { r with place, cell := b :: r.cell }

/-- A byte outside quotes that does not end the row. -/
def takePlain (r : Reader) (b : UInt8) : Reader :=
  if b = comma then r.endCell else r.push .plain b

/-- Takes one byte, and gives back the row that it ends, if it does. -/
def step (r : Reader) (b : UInt8) : Reader × Option RawRow :=
  let isEnd := b = lineFeed ∨ b = carriageReturn
  let r := if b = lineFeed then { r with line := r.line + 1 } else r
  match r.place with
  | .quoted => (if b = quote then { r with place := .quoteSeen } else r.push .quoted b, none)
  | .outside =>
    if isEnd then (r, none)
    else if b = quote then ({ r with place := .quoted }, none)
    else (r.takePlain b, none)
  | .start =>
    if isEnd then ({ line := r.line, rowLine := r.line }, some r.row)
    else if b = quote then ({ r with place := .quoted }, none)
    else (r.takePlain b, none)
  | .plain =>
    if isEnd then ({ line := r.line, rowLine := r.line }, some r.row) else (r.takePlain b, none)
  | .quoteSeen =>
    if isEnd then ({ line := r.line, rowLine := r.line }, some r.row)
    else if b = quote then (r.push .quoted b, none)
    else (r.takePlain b, none)

/-- The rows of the bytes ahead; the end of the text ends a row that has begun. -/
def run (r : Reader) : List UInt8 → List RawRow
  | [] => if r.place = .outside then [] else [r.row]
  | b :: rest =>
    let (r, row) := r.step b
    row.toList ++ r.run rest

end Reader

/-- The rows of a text. A byte order mark at the start is not part of it. -/
def readAll : List UInt8 → List RawRow
  | 0xEF :: 0xBB :: 0xBF :: rest => Reader.run {} rest
  | bytes => Reader.run {} bytes

end RawRow
end FleetSync
