/-!
Decimal texts of whole numbers.

A number is written with a minus sign if it is negative and without leading zeros. Reading is more
liberal: a plus sign and leading zeros are accepted, so several texts name one number, but a text
that was written reads back as the number it was written from (`int64?_ofInt64`).
-/
namespace FleetSync.Decimal

/-- The decimal digits of a number, the most significant first. -/
def ofNat (n : Nat) : List Char := Nat.toDigits 10 n

def ofInt : Int → List Char
  | .ofNat n => ofNat n
  | .negSucc n => '-' :: ofNat (n + 1)

def ofInt64 (i : Int64) : List Char := ofInt i.toInt

/-- The number of a text of one or more digits. -/
def nat? (cs : List Char) : Option Nat :=
  if cs ≠ [] ∧ cs.all Char.isDigit then some (Nat.ofDigitChars 10 cs 0) else none

/-- The number of a text of digits with at most one sign in front. -/
def int? : List Char → Option Int
  | '-' :: cs => (nat? cs).map fun n => -(n : Int)
  | '+' :: cs => (nat? cs).map fun n => (n : Int)
  | cs => (nat? cs).map fun n => (n : Int)

/-- Narrows a number to the signed 64-bit range, refusing one outside it. -/
def narrow? (i : Int) : Option Int64 :=
  if Int64.minValue.toInt ≤ i ∧ i ≤ Int64.maxValue.toInt then some (Int64.ofInt i) else none

/-- The signed 64-bit number of a text; one that does not fit is refused. -/
def int64? (cs : List Char) : Option Int64 := (int? cs).bind narrow?

/-- The text of an id as a string. -/
def idText (i : Int64) : String := String.ofList (ofInt64 i)

theorem ofNat_ne_nil (n : Nat) : ofNat n ≠ [] := Nat.toDigits_ne_nil

theorem isDigit_of_mem_ofNat {n : Nat} {c : Char} (h : c ∈ ofNat n) : c.isDigit :=
  Nat.isDigit_of_mem_toDigits (by decide) (by decide) h

theorem ofNat_eq_cons (n : Nat) : ∃ c cs, ofNat n = c :: cs ∧ c.isDigit = true := by
  rcases h : ofNat n with _ | ⟨c, cs⟩
  · exact absurd h (ofNat_ne_nil n)
  · exact ⟨c, cs, rfl, isDigit_of_mem_ofNat (h ▸ List.mem_cons_self)⟩

/-- No other number starts with a zero. -/
theorem eq_zero_of_ofNat_eq_cons {n : Nat} {ds : List Char} (h : ofNat n = '0' :: ds) : n = 0 := by
  induction n using Nat.strongRecOn generalizing ds with
  | ind n ih =>
    rw [ofNat, Nat.toDigits_eq_if (by decide)] at h
    split at h
    next hn =>
      have all : ∀ m : Fin 10, Nat.digitChar m = '0' → m.val = 0 := by decide
      exact all ⟨n, hn⟩ (List.cons.inj h).1
    next hn =>
      obtain ⟨c, cs, hc, -⟩ := ofNat_eq_cons (n / 10)
      rw [ofNat] at hc
      rw [hc] at h
      obtain ⟨rfl, -⟩ := List.cons.inj h
      have hz := ih (n / 10) (by omega) hc
      omega

/-- The digits of a number give the number. -/
theorem ofDigitChars_ofNat (n : Nat) : Nat.ofDigitChars 10 (ofNat n) 0 = n :=
  Nat.ofDigitChars_ten_toDigits

theorem nat?_ofNat (n : Nat) : nat? (ofNat n) = some n := by
  have h : (ofNat n).all Char.isDigit = true := List.all_eq_true.2 fun _ => isDigit_of_mem_ofNat
  rw [nat?, if_pos ⟨ofNat_ne_nil n, h⟩, ofNat, Nat.ofDigitChars_toDigits (by decide) (by decide)]

theorem int?_ofNat (n : Nat) : int? (ofNat n) = some (n : Int) := by
  have hd : ∀ c ∈ ofNat n, c.isDigit = true := fun _ => isDigit_of_mem_ofNat
  have hn := nat?_ofNat n
  unfold int?
  split
  next cs h => exact absurd (hd '-' (h ▸ List.mem_cons_self)) (by decide)
  next cs h => exact absurd (hd '+' (h ▸ List.mem_cons_self)) (by decide)
  next => simp [hn]

theorem int?_ofInt (i : Int) : int? (ofInt i) = some i := by
  cases i with
  | ofNat n => exact int?_ofNat n
  | negSucc n => simp [ofInt, int?, nat?_ofNat, Int.negSucc_eq]

theorem narrow?_toInt (i : Int64) : narrow? i.toInt = some i := by
  rw [narrow?, if_pos ⟨Int64.minValue_le_toInt i, Int64.toInt_le i⟩, Int64.ofInt_toInt]

/-- A written id reads back. -/
theorem int64?_ofInt64 (i : Int64) : int64? (ofInt64 i) = some i := by
  simp [int64?, ofInt64, int?_ofInt, narrow?_toInt]

theorem ofInt64_injective {i j : Int64} (h : ofInt64 i = ofInt64 j) : i = j :=
  Option.some.inj (by rw [← int64?_ofInt64 i, h, int64?_ofInt64])

/-- The text of an id is a number, that id. -/
theorem int64?_idText (i : Int64) : int64? (idText i).toList = some i := by
  rw [idText, String.toList_ofList, int64?_ofInt64]

/-- Different ids have different texts. -/
theorem idText_inj {i j : Int64} : idText i = idText j ↔ i = j :=
  ⟨fun h => ofInt64_injective (String.ofList_injective h), fun h => h ▸ rfl⟩

end FleetSync.Decimal
