import FleetSync.Json.Reader
import FleetSync.Json.Writer
import Mathlib.Tactic

/-!
String literals and numbers read back as they were written.

A character is written in one of three ways (`escapeChar_cases`), and each of them is read as one
piece that stands for that character and never joins with the piece behind it. A number is read up to
the first character that does not go on with it, so the statements about numbers ask for a rest that
ends one (`EndsNumber`). A number that begins with a zero is zero, which is why digits that were
written are never taken for a zero with something behind it.
-/
namespace FleetSync.Json

/-! ### String literals -/

/-- A piece that is read as the character `c`, whatever pieces follow. -/
def Piece.StandsFor (p : Piece) (c : Char) : Prop :=
  ∀ ps, joinPieces (p :: ps) = (joinPieces ps).map (c :: ·)

theorem Piece.char_standsFor (c : Char) : (Piece.char c).StandsFor c := by
  intro ps
  rw [joinPieces]

/-- The unit of a control character is no half of a pair. -/
theorem Piece.unit_standsFor {c : Char} (h : c.toNat < 32) : (Piece.unit c.toNat).StandsFor c := by
  intro ps
  have hh : isHighHalf c.toNat = false := by simp [isHighHalf]; omega
  have hl : isLowHalf c.toNat = false := by simp [isLowHalf]; omega
  rw [joinPieces.eq_def]
  simp [hh, hl]

/-- A character is escaped by a letter, escaped by its number, or stands for itself. -/
theorem escapeChar_cases (c : Char) :
    (∃ x, x ≠ 'u' ∧ letterEscape? x = some c ∧ escapeChar c = ['\\', x]) ∨
    (c.toNat < 32 ∧ escapeChar c =
      ['\\', 'u', '0', '0', hexDigit (c.toNat / 16), hexDigit (c.toNat % 16)]) ∨
    (c ≠ '"' ∧ c ≠ '\\' ∧ ¬ c.toNat < 32 ∧ escapeChar c = [c]) := by
  by_cases hl : c ∈ ['"', '\\', '\x08', '\x0c', '\n', '\r', '\t']
  · refine .inl ?_
    simp only [List.mem_cons, List.not_mem_nil, or_false] at hl
    rcases hl with rfl | rfl | rfl | rfl | rfl | rfl | rfl <;>
      exact ⟨_, by decide, by decide, rfl⟩
  · simp only [List.mem_cons, List.not_mem_nil, or_false, not_or] at hl
    by_cases hc : c.toNat < 32
    · exact .inr (.inl ⟨hc, by simp [escapeChar, hl, hc]⟩)
    · exact .inr (.inr ⟨hl.1, hl.2.1, hc, by simp [escapeChar, hl, hc]⟩)

theorem readPieces_letter {x c : Char} (hx : x ≠ 'u') (h : letterEscape? x = some c)
    (rest : List Char) :
    readPieces ('\\' :: x :: rest) = (readPieces rest).map fun r => (.char c :: r.1, r.2) := by
  rw [readPieces]
  · rw [h]
    cases readPieces rest <;> rfl
  · intro a b c d r hr
    exact absurd hr hx

theorem unit?_hexDigit {n : Nat} (h : n < 256) :
    unit? '0' '0' (hexDigit (n / 16)) (hexDigit (n % 16)) = some n := by
  have h0 : Hex.value? '0' = some 0 := by decide
  rw [unit?, h0, hexDigit, hexDigit, Hex.value?_digitChar (by omega), Hex.value?_digitChar (by omega)]
  show some _ = some _
  rw [Option.some.injEq]
  omega

theorem readPieces_plain {c : Char} (hq : c ≠ '"') (hb : c ≠ '\\') (h : ¬ c.toNat < 32)
    (rest : List Char) :
    readPieces (c :: rest) = (readPieces rest).map fun r => (.char c :: r.1, r.2) := by
  rw [readPieces]
  · have hn : ¬ (c.toNat < 32 ∨ c = '\\') := by simp [h, hb]
    rw [if_neg hn]
    cases readPieces rest <;> rfl
  · exact hq
  · intro a b c d r hr
    exact absurd hr hb
  · intro a r hr
    exact absurd hr hb

/-- A character as it stands in a literal is read as one piece. -/
theorem readPieces_escapeChar (c : Char) (rest : List Char) :
    ∃ p : Piece, p.StandsFor c ∧
      readPieces (escapeChar c ++ rest) = (readPieces rest).map fun r => (p :: r.1, r.2) := by
  rcases escapeChar_cases c with ⟨x, hx, hl, he⟩ | ⟨hc, he⟩ | ⟨hq, hb, hc, he⟩
  · rw [he]
    exact ⟨.char c, Piece.char_standsFor c, readPieces_letter hx hl rest⟩
  · refine ⟨.unit c.toNat, Piece.unit_standsFor hc, ?_⟩
    rw [he]
    simp only [List.cons_append, List.nil_append]
    rw [readPieces, unit?_hexDigit (by omega)]
    cases readPieces rest <;> rfl
  · rw [he]
    exact ⟨.char c, Piece.char_standsFor c, readPieces_plain hq hb hc rest⟩

theorem readPieces_escaped (cs rest : List Char) :
    ∃ ps, joinPieces ps = some cs ∧
      readPieces (cs.flatMap escapeChar ++ '"' :: rest) = some (ps, rest) := by
  induction cs with
  | nil => exact ⟨[], rfl, by simp [readPieces]⟩
  | cons c cs ih =>
    obtain ⟨ps, hj, hr⟩ := ih
    obtain ⟨p, hp, hc⟩ := readPieces_escapeChar c (cs.flatMap escapeChar ++ '"' :: rest)
    refine ⟨p :: ps, by rw [hp, hj]; rfl, ?_⟩
    rw [List.flatMap_cons, List.append_assoc, hc, hr]
    rfl

/-- A literal starts with a quote, and what comes after the quote reads back as the literal. -/
theorem readLiteral_renderLiteral (l : Literal) :
    ∃ body, renderLiteral l = '"' :: body ∧
      ∀ rest, readLiteral (body ++ rest) = some (l, rest) := by
  cases l with
  | none =>
    refine ⟨_, rfl, fun rest => ?_⟩
    have hu : unit? 'd' '8' '0' '0' = some 0xD800 := by decide
    have hj : joinPieces [.unit 0xD800] = none := by decide
    simp [readLiteral, readPieces, hu, hj]
  | some s =>
    refine ⟨s.toList.flatMap escapeChar ++ ['"'], rfl, fun rest => ?_⟩
    obtain ⟨ps, hj, hr⟩ := readPieces_escaped s.toList rest
    rw [List.append_assoc, List.singleton_append, readLiteral, hr]
    simp [hj]

/-! ### Numbers -/

/-- A rest that does not go on with the number in front of it. -/
def EndsNumber (rest : List Char) : Prop :=
  ∀ c tail, rest = c :: tail → c.isDigit = false ∧ c ≠ '.' ∧ c ≠ 'e' ∧ c ≠ 'E'

theorem endsNumber_nil : EndsNumber [] := by
  intro c tail h
  cases h

/-- What may stand behind a value in an array or an object ends a number. -/
theorem endsNumber_cons {c : Char} {rest : List Char} (h : c = ',' ∨ c = ']' ∨ c = '}') :
    EndsNumber (c :: rest) := by
  intro c' tail h'
  obtain ⟨rfl, -⟩ := List.cons.inj h'
  rcases h with rfl | rfl | rfl <;> decide

/-- A rest that does not start with a digit. -/
abbrev EndsDigits (rest : List Char) : Prop := ∀ c tail, rest = c :: tail → c.isDigit = false

theorem readDigits_ofNat (n : Nat) {rest : List Char} (hr : EndsDigits rest) :
    readDigits (Decimal.ofNat n ++ rest) = some (Decimal.ofNat n, rest) := by
  have hd : ∀ c ∈ Decimal.ofNat n, c.isDigit = true := fun _ => Decimal.isDigit_of_mem_ofNat
  have ht : (Decimal.ofNat n ++ rest).takeWhile Char.isDigit = Decimal.ofNat n := by
    rw [List.takeWhile_append_of_pos hd]
    cases rest with
    | nil => simp
    | cons c tail => simp [hr c tail rfl]
  have hw : (Decimal.ofNat n ++ rest).dropWhile Char.isDigit = rest := by
    rw [List.dropWhile_append_of_pos hd]
    cases rest with
    | nil => rfl
    | cons c tail => simp [hr c tail rfl]
  have he : (Decimal.ofNat n).isEmpty = false := by simp [Decimal.ofNat_ne_nil]
  rw [readDigits, ht, hw, he]
  rfl

theorem readWhole_ofNat (n : Nat) {rest : List Char} (hr : EndsDigits rest) :
    readWhole (Decimal.ofNat n ++ rest) = some (Decimal.ofNat n, rest) := by
  by_cases hn : n = 0
  · subst hn
    show readWhole ('0' :: rest) = some (['0'], rest)
    cases rest with
    | nil => rfl
    | cons c tail => simp [readWhole, hr c tail rfl]
  · rw [readWhole, readDigits_ofNat n hr]
    intro tail h
    obtain ⟨c, cs, hc, -⟩ := Decimal.ofNat_eq_cons n
    rw [hc] at h
    obtain ⟨rfl, -⟩ := List.cons.inj h
    exact hn (Decimal.eq_zero_of_ofNat_eq_cons hc)

theorem readFraction_of_ne {rest : List Char} (hr : ∀ c tail, rest = c :: tail → c ≠ '.') :
    readFraction rest = some ([], rest) := by
  rw [readFraction]
  intro tail h
  exact hr _ _ h rfl

theorem readExponent_of_ne {rest : List Char}
    (hr : ∀ c tail, rest = c :: tail → c ≠ 'e' ∧ c ≠ 'E') :
    readExponent rest = some (none, rest) := by
  cases rest with
  | nil => rfl
  | cons c tail => simp [readExponent, hr c tail rfl]

theorem ne_of_isDigit {c d : Char} (hc : c.isDigit = true) (hd : d.isDigit = false) : c ≠ d := by
  rintro rfl
  rw [hc] at hd
  cases hd

theorem readExponent_ofInt (e : Int) {rest : List Char} (hr : EndsNumber rest) :
    readExponent ('e' :: (Decimal.ofInt e ++ rest)) = some (some e, rest) := by
  have hd : EndsDigits rest := fun c tail h => (hr c tail h).1
  cases e with
  | ofNat n =>
    obtain ⟨c, cs, hn, hc⟩ := Decimal.ofNat_eq_cons n
    have hread := readDigits_ofNat n hd
    have hval := Decimal.ofDigitChars_ofNat n
    rw [hn] at hread hval
    simp only [readExponent, Decimal.ofInt, hn, List.cons_append, true_or, if_true] at hread ⊢
    split
    next h => exact absurd (List.cons.inj h).1 (ne_of_isDigit hc (by decide))
    next h => exact absurd (List.cons.inj h).1 (ne_of_isDigit hc (by decide))
    next => rw [hread]; simp [hval]
  | negSucc n =>
    simp only [readExponent, Decimal.ofInt, List.cons_append, true_or, if_true]
    rw [readDigits_ofNat (n + 1) hd]
    simp [Decimal.ofDigitChars_ofNat, Int.negSucc_eq]

theorem readUnsigned_whole (negative : Bool) (n : Nat) {rest : List Char} (hr : EndsNumber rest) :
    readUnsigned negative (Decimal.ofNat n ++ rest) = some (.whole negative n, rest) := by
  rw [readUnsigned, readWhole_ofNat n fun c tail h => (hr c tail h).1]
  simp only [Option.bind_eq_bind, Option.bind_some]
  rw [readFraction_of_ne fun c tail h => (hr c tail h).2.1]
  simp only [Option.bind_some]
  rw [readExponent_of_ne fun c tail h => (hr c tail h).2.2]
  simp [Decimal.ofDigitChars_ofNat]

theorem readUnsigned_scaled (negative : Bool) (n : Nat) (e : Int) {rest : List Char}
    (hr : EndsNumber rest) :
    readUnsigned negative (Decimal.ofNat n ++ 'e' :: (Decimal.ofInt e ++ rest)) =
      some (.scaled negative n e, rest) := by
  rw [readUnsigned, readWhole_ofNat n fun c tail h => (List.cons.inj h).1 ▸ (by decide)]
  simp only [Option.bind_eq_bind, Option.bind_some]
  rw [readFraction_of_ne fun c tail h => (List.cons.inj h).1 ▸ (by decide)]
  simp only [Option.bind_some]
  rw [readExponent_ofInt e hr]
  simp [Decimal.ofDigitChars_ofNat]

/-- A number starts with its sign or with a digit. -/
theorem renderNumber_eq_cons (n : Number) :
    ∃ c cs, renderNumber n = c :: cs ∧ (c = '-' ∨ c.isDigit = true) := by
  rcases n with ⟨_ | _, n⟩ | ⟨_ | _, n, e⟩
  · obtain ⟨c, cs, hc, hd⟩ := Decimal.ofNat_eq_cons n
    exact ⟨c, cs, by simp [renderNumber, hc], .inr hd⟩
  · exact ⟨_, _, rfl, .inl rfl⟩
  · obtain ⟨c, cs, hc, hd⟩ := Decimal.ofNat_eq_cons n
    exact ⟨c, cs ++ 'e' :: Decimal.ofInt e, by simp [renderNumber, hc], .inr hd⟩
  · exact ⟨_, _, rfl, .inl rfl⟩

/-- Digits without a sign are read without one. -/
theorem readNumber_ofNat_append (n : Nat) (rest : List Char) :
    readNumber (Decimal.ofNat n ++ rest) = readUnsigned false (Decimal.ofNat n ++ rest) := by
  rw [readNumber]
  intro tail h
  obtain ⟨c, cs, hc, hd⟩ := Decimal.ofNat_eq_cons n
  rw [hc] at h
  exact ne_of_isDigit hd (by decide) (List.cons.inj h).1

/-- A number reads back, up to where it ends. -/
theorem readNumber_renderNumber (n : Number) {rest : List Char} (hr : EndsNumber rest) :
    readNumber (renderNumber n ++ rest) = some (n, rest) := by
  rcases n with ⟨_ | _, n⟩ | ⟨_ | _, n, e⟩
  · show readNumber (Decimal.ofNat n ++ rest) = _
    rw [readNumber_ofNat_append, readUnsigned_whole false n hr]
  · exact readUnsigned_whole true n hr
  · have he : renderNumber (.scaled false n e) ++ rest =
        Decimal.ofNat n ++ 'e' :: (Decimal.ofInt e ++ rest) := by simp [renderNumber]
    rw [he, readNumber_ofNat_append, readUnsigned_scaled false n e hr]
  · have he : renderNumber (.scaled true n e) ++ rest =
        '-' :: (Decimal.ofNat n ++ 'e' :: (Decimal.ofInt e ++ rest)) := by simp [renderNumber]
    rw [he]
    exact readUnsigned_scaled true n e hr

end FleetSync.Json
