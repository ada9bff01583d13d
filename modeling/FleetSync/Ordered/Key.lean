/-!
Keys that can be kept in strictly ascending order.

Scope keys and names are texts, ordered by code point, which is the order of their UTF-8 bytes.
Host, cluster and task ids are fixed-width integers, ordered by value. All that a sorted container
needs of either is that `<` is a strict linear order.
-/
namespace FleetSync

/-- The order of the keys is strict and linear. -/
class LinearKey (κ : Type) [LT κ] : Prop where
  irrefl : ∀ a : κ, ¬ a < a
  trans : ∀ a b c : κ, a < b → b < c → a < c
  connected : ∀ a b : κ, ¬ a < b → ¬ b < a → a = b

instance : LinearKey String where
  irrefl := String.lt_irrefl
  trans _ _ _ := String.lt_trans
  connected _ _ hab hba := String.le_antisymm (String.not_lt.1 hba) (String.not_lt.1 hab)

instance : LinearKey Int64 where
  irrefl a h := Int.lt_irrefl _ (Int64.lt_iff_toInt_lt.1 h)
  trans _ _ _ hab hbc :=
    Int64.lt_iff_toInt_lt.2 (Int.lt_trans (Int64.lt_iff_toInt_lt.1 hab) (Int64.lt_iff_toInt_lt.1 hbc))
  connected a b hab hba := Int64.toInt_inj.1 (by
    have h₁ := mt Int64.lt_iff_toInt_lt.2 hab
    have h₂ := mt Int64.lt_iff_toInt_lt.2 hba
    omega)

instance : LinearKey UInt64 where
  irrefl a h := Nat.lt_irrefl _ (UInt64.lt_iff_toNat_lt.1 h)
  trans _ _ _ hab hbc :=
    UInt64.lt_iff_toNat_lt.2 (Nat.lt_trans (UInt64.lt_iff_toNat_lt.1 hab) (UInt64.lt_iff_toNat_lt.1 hbc))
  connected a b hab hba := UInt64.toNat_inj.1 (by
    have h₁ := mt UInt64.lt_iff_toNat_lt.2 hab
    have h₂ := mt UInt64.lt_iff_toNat_lt.2 hba
    omega)

end FleetSync
