import FleetSync.Keytab.Rows

/-!
Rows that are written and read back.

A row is written with each of its cells in quotes. The reader takes such a cell for what it is,
whatever bytes are in it (`run_quoted`), hence a row (`run_writeRow`), hence rows one after another
(`readAll_writeRows`).
-/
namespace FleetSync.RawRow

open Reader

/-- A byte in a quoted cell: a quote is written twice. -/
def quotedByte (b : UInt8) : List UInt8 := if b = quote then [quote, quote] else [b]

/-- A cell in quotes. -/
def writeCell (cell : List UInt8) : List UInt8 := quote :: (cell.flatMap quotedByte ++ [quote])

/-- A row with its cells in quotes. -/
def writeRow : List (List UInt8) → List UInt8
  | [] => [lineFeed]
  | [cell] => writeCell cell ++ [lineFeed]
  | cell :: cells => writeCell cell ++ comma :: writeRow cells

namespace Reader

theorem run_cons (r : Reader) (b : UInt8) (rest : List UInt8) :
    r.run (b :: rest) = (r.step b).2.toList ++ (r.step b).1.run rest := rfl

/-- What is written of a cell between its quotes is read into the cell. -/
theorem run_quoted (cell : List UInt8) (r : Reader) (hr : r.place = .quoted) (rest : List UInt8) :
    ∃ line, r.run (cell.flatMap quotedByte ++ quote :: rest) =
      { r with place := .quoteSeen, line, cell := cell.reverse ++ r.cell }.run rest := by
  induction cell generalizing r with
  | nil =>
    refine ⟨r.line, ?_⟩
    have hstep : r.step quote = ({ r with place := .quoteSeen }, none) := by
      simp [step, hr, quote, lineFeed]
    rw [List.flatMap_nil, List.nil_append, run_cons, hstep]
    rfl
  | cons b cell ih =>
    rw [List.flatMap_cons, List.append_assoc]
    by_cases hb : b = quote
    · subst hb
      have hfirst : r.step quote = ({ r with place := .quoteSeen }, none) := by
        simp [step, hr, quote, lineFeed]
      have hsecond : { r with place := .quoteSeen }.step quote = (r.push .quoted quote, none) := by
        simp [step, push, quote, lineFeed, carriageReturn]
      obtain ⟨line, h⟩ := ih (r.push .quoted quote) rfl
      refine ⟨line, ?_⟩
      rw [quotedByte, if_pos rfl, List.cons_append, List.cons_append, List.nil_append, run_cons,
        hfirst, run_cons, hsecond]
      simpa [push] using h
    · obtain ⟨line, hstep⟩ : ∃ line, r.step b = ({ r with line }.push .quoted b, none) := by
        by_cases hl : b = lineFeed
        · exact ⟨r.line + 1, by simp [step, hr, hl, push, quote, lineFeed]⟩
        · exact ⟨r.line, by simp [step, hr, hb, hl, push]⟩
      obtain ⟨line', h⟩ := ih ({ r with line }.push .quoted b) rfl
      refine ⟨line', ?_⟩
      rw [quotedByte, if_neg hb, List.cons_append, List.nil_append, run_cons, hstep]
      simpa [push] using h

/-- A cell in quotes is read where a cell may start. -/
theorem run_writeCell (cell : List UInt8) (r : Reader) (hr : r.place = .outside ∨ r.place = .start)
    (hcell : r.cell = []) (rest : List UInt8) :
    ∃ line, r.run (writeCell cell ++ rest) =
      { r with place := .quoteSeen, line, cell := cell.reverse }.run rest := by
  have hstep : r.step quote = ({ r with place := .quoted }, none) := by
    rcases hr with hr | hr <;>
      simp [step, hr, quote, lineFeed, carriageReturn]
  obtain ⟨line, h⟩ := run_quoted cell { r with place := .quoted } rfl rest
  refine ⟨line, ?_⟩
  rw [writeCell, List.cons_append, run_cons, hstep, List.append_assoc, List.singleton_append]
  simpa [hcell] using h

/-- A row is read where a cell may start, as the cells before it and its own. -/
theorem run_writeRow (cells : List (List UInt8)) (hne : cells ≠ []) (r : Reader)
    (hr : r.place = .outside ∨ r.place = .start) (hcell : r.cell = []) (rest : List UInt8) :
    ∃ line, r.run (writeRow cells ++ rest) =
      ⟨r.rowLine, r.cells.reverse ++ cells⟩ :: Reader.run { line, rowLine := line } rest := by
  induction cells generalizing r with
  | nil => exact absurd rfl hne
  | cons cell cells ih =>
    cases cells with
    | nil =>
      obtain ⟨line, h⟩ := run_writeCell cell r hr hcell (lineFeed :: rest)
      refine ⟨line + 1, ?_⟩
      rw [writeRow, List.append_assoc, List.singleton_append, h, run_cons]
      simp [step, row]
    | cons next cells =>
      obtain ⟨line, h⟩ := run_writeCell cell r hr hcell (comma :: (writeRow (next :: cells) ++ rest))
      obtain ⟨line', h'⟩ := ih (List.cons_ne_nil _ _)
        { r with place := .start, line, cells := cell :: r.cells, cell := [] } (.inr rfl) rfl
      refine ⟨line', ?_⟩
      have hwrite : writeRow (cell :: next :: cells) = writeCell cell ++ comma :: writeRow (next :: cells) := rfl
      have hstep : ({ r with place := .quoteSeen, line, cell := cell.reverse } : Reader).step comma =
          ({ r with place := .start, line, cells := cell :: r.cells, cell := [] }, none) := by
        simp [step, takePlain, endCell, comma, lineFeed, carriageReturn, quote]
      rw [hwrite, List.append_assoc, List.cons_append, h, run_cons, hstep]
      simpa using h'

theorem run_writeRows (rows : List (List (List UInt8))) (hne : ∀ cells ∈ rows, cells ≠ []) (line : Nat) :
    (Reader.run { line, rowLine := line } (rows.flatMap writeRow)).map (·.cells) = rows := by
  induction rows generalizing line with
  | nil => rfl
  | cons cells rows ih =>
    obtain ⟨line', h⟩ := run_writeRow cells (hne _ List.mem_cons_self) { line, rowLine := line } (.inl rfl) rfl
      (rows.flatMap writeRow)
    rw [List.flatMap_cons, h, List.map_cons, ih fun cells hc => hne cells (List.mem_cons_of_mem _ hc)]
    rfl

end Reader

theorem exists_writeRow_eq {cells : List (List UInt8)} (hne : cells ≠ []) :
    ∃ rest, writeRow cells = quote :: rest := by
  match cells with
  | [] => exact absurd rfl hne
  | [cell] => exact ⟨_, rfl⟩
  | cell :: next :: cells => exact ⟨_, rfl⟩

/-- Rows that are written one after another are read back. -/
theorem readAll_writeRows {rows : List (List (List UInt8))} (hne : ∀ cells ∈ rows, cells ≠ []) :
    (readAll (rows.flatMap writeRow)).map (·.cells) = rows := by
  -- what starts with a quote does not start with a byte order mark
  have hmark : readAll (rows.flatMap writeRow) = Reader.run {} (rows.flatMap writeRow) := by
    cases rows with
    | nil => rfl
    | cons cells rows =>
      obtain ⟨rest, h⟩ := exists_writeRow_eq (hne cells List.mem_cons_self)
      rw [List.flatMap_cons, h]
      rfl
  rw [hmark]
  exact run_writeRows rows hne 1

end FleetSync.RawRow
