/-!
Hexadecimal text. Bytes are written with two lower-case digits each, so that distinct sequences of
bytes have distinct texts (`encode_injective`); digits are read in either case.
-/
namespace FleetSync.Hex

def ofByte (b : UInt8) : List Char := [Nat.digitChar (b.toNat / 16), Nat.digitChar (b.toNat % 16)]

def encode (bytes : List UInt8) : List Char := bytes.flatMap ofByte

/-- The value of a digit of either case. -/
def value? (c : Char) : Option Nat :=
  if '0' ≤ c ∧ c ≤ '9' then some (c.toNat - 48)
  else if 'a' ≤ c ∧ c ≤ 'f' then some (c.toNat - 87)
  else if 'A' ≤ c ∧ c ≤ 'F' then some (c.toNat - 55)
  else none

theorem digitChar_injective {m n : Nat} (hm : m < 16) (hn : n < 16)
    (h : Nat.digitChar m = Nat.digitChar n) : m = n := by
  have all : ∀ a b : Fin 16, Nat.digitChar a = Nat.digitChar b → a = b := by decide
  exact Fin.mk.inj_iff.1 (all ⟨m, hm⟩ ⟨n, hn⟩ h)

/-- A digit reads back. -/
theorem value?_digitChar {n : Nat} (h : n < 16) : value? (Nat.digitChar n) = some n := by
  have all : ∀ m : Fin 16, value? (Nat.digitChar m) = some m.val := by decide
  exact all ⟨n, h⟩

/-- Whatever is written is a digit. -/
theorem value?_of_mem_encode {bytes : List UInt8} {c : Char} (hc : c ∈ encode bytes) : (value? c).isSome := by
  obtain ⟨b, -, hc⟩ := List.mem_flatMap.1 hc
  have hb := b.toNat_lt
  have hdigit : c = Nat.digitChar (b.toNat / 16) ∨ c = Nat.digitChar (b.toNat % 16) := by
    simpa [ofByte] using hc
  rcases hdigit with rfl | rfl <;> rw [value?_digitChar (by omega), Option.isSome_some]

theorem ofByte_injective {b c : UInt8} (h : ofByte b = ofByte c) : b = c := by
  have hb := b.toNat_lt
  have hc := c.toNat_lt
  simp only [ofByte, List.cons.injEq, and_true] at h
  have h₁ := digitChar_injective (by omega) (by omega) h.1
  have h₂ := digitChar_injective (by omega) (by omega) h.2
  exact UInt8.toNat_inj.1 (by omega)

/-- Distinct bytes have distinct texts. -/
theorem encode_injective {bs cs : List UInt8} (h : encode bs = encode cs) : bs = cs := by
  induction bs generalizing cs with
  | nil => cases cs with
    | nil => rfl
    | cons c cs => simp [encode, ofByte] at h
  | cons b bs ih => cases cs with
    | nil => simp [encode, ofByte] at h
    | cons c cs =>
      simp only [encode, List.flatMap_cons, ofByte, List.cons_append, List.nil_append,
        List.cons.injEq] at h
      rw [ih h.2.2, ofByte_injective (b := b) (c := c) (by simp [ofByte, h.1, h.2.1])]

end FleetSync.Hex
