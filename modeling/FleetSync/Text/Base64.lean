/-!
Bytes as text in base 64, with the standard alphabet and padding.

Three bytes make four digits; one or two bytes at the end make two or three digits, filled up with
equals signs. Reading accepts exactly what writing produces, and gives back what was written
(`decode?_encode`).
-/
namespace FleetSync.Base64

/-- The digit of a value below 64. -/
def digit (n : Nat) : Char :=
  if n < 26 then Char.ofNat (65 + n)
  else if n < 52 then Char.ofNat (71 + n)
  else if n < 62 then Char.ofNat (n - 4)
  else if n = 62 then '+' else '/'

/-- The value of a digit. -/
def value? (c : Char) : Option Nat :=
  if 'A' ≤ c ∧ c ≤ 'Z' then some (c.toNat - 65)
  else if 'a' ≤ c ∧ c ≤ 'z' then some (c.toNat - 71)
  else if '0' ≤ c ∧ c ≤ '9' then some (c.toNat + 4)
  else if c = '+' then some 62
  else if c = '/' then some 63
  else none

def encode : List UInt8 → List Char
  | [] => []
  | [a] =>
    let a := a.toNat
    [digit (a / 4), digit (a % 4 * 16), '=', '=']
  | [a, b] =>
    let a := a.toNat
    let b := b.toNat
    [digit (a / 4), digit (a % 4 * 16 + b / 16), digit (b % 16 * 4), '=']
  | a :: b :: c :: rest =>
    let (x, y, z) := (a.toNat, b.toNat, c.toNat)
    digit (x / 4) :: digit (x % 4 * 16 + y / 16) :: digit (y % 16 * 4 + z / 64) :: digit (z % 64) ::
      encode rest

/-- The bytes of a text, if it is the written form of any. -/
def decode? : List Char → Option (List UInt8)
  | [] => some []
  | p :: q :: r :: s :: rest =>
    if s = '=' then
      if rest ≠ [] then none
      else if r = '=' then do
        let a ← value? p
        let b ← value? q
        if b % 16 = 0 then some [UInt8.ofNat (a * 4 + b / 16)] else none
      else do
        let a ← value? p
        let b ← value? q
        let c ← value? r
        if c % 4 = 0 then
          some [UInt8.ofNat (a * 4 + b / 16), UInt8.ofNat (b % 16 * 16 + c / 4)]
        else none
    else do
      let a ← value? p
      let b ← value? q
      let c ← value? r
      let d ← value? s
      let bytes ← decode? rest
      return UInt8.ofNat (a * 4 + b / 16) :: UInt8.ofNat (b % 16 * 16 + c / 4) ::
        UInt8.ofNat (c % 4 * 64 + d) :: bytes
  | _ => none

def encodeText (bytes : List UInt8) : String := String.ofList (encode bytes)

theorem value?_digit {n : Nat} (h : n < 64) : value? (digit n) = some n := by
  have all : ∀ m : Fin 64, value? (digit m) = some m.val := by decide
  exact all ⟨n, h⟩

theorem digit_ne_pad {n : Nat} (h : n < 64) : digit n ≠ '=' := by
  have all : ∀ m : Fin 64, digit m ≠ '=' := by decide
  exact all ⟨n, h⟩

theorem ofNat_eq {n : Nat} {b : UInt8} (h : n = b.toNat) : UInt8.ofNat n = b := by
  rw [h, UInt8.ofNat_toNat]

/-- Bytes that were written read back. -/
@[simp] theorem decode?_encode (bytes : List UInt8) : decode? (encode bytes) = some bytes := by
  fun_induction encode bytes with
  | case1 => rfl
  | case2 a x =>
    have ha := a.toNat_lt
    rw [decode?, if_pos rfl, if_neg (by simp), if_pos rfl, value?_digit (by omega),
      value?_digit (by omega)]
    show (if x % 4 * 16 % 16 = 0 then _ else _) = _
    rw [if_pos (by omega), ofNat_eq (b := a) (by omega)]
  | case3 a b x y =>
    have ha := a.toNat_lt
    have hb := b.toNat_lt
    rw [decode?, if_pos rfl, if_neg (by simp), if_neg (digit_ne_pad (by omega)),
      value?_digit (by omega), value?_digit (by omega), value?_digit (by omega)]
    show (if y % 16 * 4 % 4 = 0 then _ else _) = _
    rw [if_pos (by omega), ofNat_eq (b := a) (by omega), ofNat_eq (b := b) (by omega)]
  | case4 a b c rest x y z h ih =>
    obtain ⟨rfl, rfl, rfl⟩ : a.toNat = x ∧ b.toNat = y ∧ c.toNat = z := by
      simpa only [Prod.mk.injEq] using h
    have ha := a.toNat_lt
    have hb := b.toNat_lt
    have hc := c.toNat_lt
    rw [decode?, if_neg (digit_ne_pad (by omega)), value?_digit (by omega),
      value?_digit (by omega), value?_digit (by omega), value?_digit (by omega), ih]
    show some _ = some _
    rw [ofNat_eq (b := a) (by omega), ofNat_eq (b := b) (by omega), ofNat_eq (b := c) (by omega)]

@[simp] theorem toList_encodeText (bytes : List UInt8) : (encodeText bytes).toList = encode bytes :=
  String.toList_ofList

end FleetSync.Base64
