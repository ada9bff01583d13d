import FleetSync.Fingerprint
import FleetSync.Proofs.Wire.Records
import Mathlib.Data.Set.Function

/-!
Fingerprints identify what they stand for.

A fingerprint is a digest of a text, written down so that the digest can be read off it again. Texts
differ where values differ (`Wire.toText_inj`), so all that may confuse two fingerprints is a collision
of the digest itself. Every statement therefore names the texts among which there is none. The empty
state needs no digest to be told from others: its fingerprint is empty, and no digest is.
-/
namespace FleetSync

/-- No two of the texts have the same digest. -/
def Digest.Sha256.CollisionFree (texts : Set String) : Prop :=
  Set.InjOn (fun s => digest s.toUTF8.toList) texts

/-! ### Digests as text -/

section
open Digest.Sha256
variable {texts : Set String} {s t : String}

/-- The digest can be read off its text. -/
theorem digest_eq_of_digestText_eq (h : digestText s = digestText t) :
    digest s.toUTF8.toList = digest t.toUTF8.toList :=
  Hex.encode_injective (String.ofList_injective h)

theorem digestText_inj (hfree : CollisionFree texts) (hs : s ∈ texts) (ht : t ∈ texts) :
    digestText s = digestText t ↔ s = t := by
  constructor
  · intro h
    exact hfree hs ht (digest_eq_of_digestText_eq h)
  · rintro rfl
    rfl

/-- A digest has bytes, and so its text has characters. -/
theorem digestText_ne_empty (s : String) : digestText s ≠ "" := by
  intro h
  have hnil : Hex.encode (digest s.toUTF8.toList) = Hex.encode [] := String.ofList_injective h
  exact absurd (Hex.encode_injective hnil) (List.cons_ne_nil _ _)

end

/-! ### States and values -/

section
open Digest.Sha256
variable {α : Type} [Wire α] {texts : Set String} {m n : OrdMap ScopeKey α}

@[simp] theorem fingerprint_empty : fingerprint (∅ : OrdMap ScopeKey α) = "" := rfl

theorem fingerprint_of_ne (h : m ≠ ∅) : fingerprint m = digestText (Wire.toText m) := by
  have hm : m.isEmpty = false := by
    rw [Bool.eq_false_iff]
    intro he
    exact h (OrdMap.isEmpty_iff.1 he)
  rw [fingerprint, hm]
  rfl

theorem fingerprint_eq_empty_iff : fingerprint m = "" ↔ m = ∅ := by
  constructor
  · intro h
    by_contra hm
    rw [fingerprint_of_ne hm] at h
    exact digestText_ne_empty _ h
  · rintro rfl
    rfl

/-- The text that the fingerprint of a state is taken of is one of `texts`. The empty state has none. -/
def HashedAmong (texts : Set String) (m : OrdMap ScopeKey α) : Prop := m ≠ ∅ → Wire.toText m ∈ texts

variable [Wire.Lawful α]

theorem fingerprint_inj (hfree : CollisionFree texts) (hm : HashedAmong texts m)
    (hn : HashedAmong texts n) : fingerprint m = fingerprint n ↔ m = n := by
  by_cases hm' : m = ∅
  · rw [hm', fingerprint_empty, eq_comm, fingerprint_eq_empty_iff, eq_comm]
  by_cases hn' : n = ∅
  · rw [hn', fingerprint_empty, fingerprint_eq_empty_iff]
  rw [fingerprint_of_ne hm', fingerprint_of_ne hn', digestText_inj hfree (hm hm') (hn hn'),
    Wire.toText_inj]

theorem scopeFingerprint_inj (hfree : CollisionFree texts) {v w : α} (hv : Wire.toText v ∈ texts)
    (hw : Wire.toText w ∈ texts) : scopeFingerprint v = scopeFingerprint w ↔ v = w := by
  rw [scopeFingerprint, scopeFingerprint, digestText_inj hfree hv hw, Wire.toText_inj]

end

/-- What the fingerprints of a type tell of its values, as long as the texts they are taken of are
among `texts`. -/
structure Fingerprinted (α : Type) [Wire α] (texts : Set String) : Prop where
  /-- States with the same fingerprint are the same in every scope and every field. -/
  states : ∀ m n : OrdMap ScopeKey α, HashedAmong texts m → HashedAmong texts n →
    (fingerprint m = fingerprint n ↔ m = n)
  /-- Only the empty state has the empty fingerprint. -/
  empty : ∀ m : OrdMap ScopeKey α, fingerprint m = "" ↔ m = ∅
  /-- Values with the same fingerprint are the same in every field. -/
  values : ∀ v w : α, Wire.toText v ∈ texts → Wire.toText w ∈ texts →
    (scopeFingerprint v = scopeFingerprint w ↔ v = w)

theorem fingerprinted_of_lawful {α : Type} [Wire α] [Wire.Lawful α] {texts : Set String}
    (hfree : Digest.Sha256.CollisionFree texts) : Fingerprinted α texts where
  states _ _ := fingerprint_inj hfree
  empty _ := fingerprint_eq_empty_iff
  values _ _ := scopeFingerprint_inj hfree

/-- Fingerprints identify topologies and configurations, whole states of them and single ones, unless
the digest has a collision among their texts. -/
theorem fingerprints_identify {texts : Set String} (hfree : Digest.Sha256.CollisionFree texts) :
    Fingerprinted Topology texts ∧ Fingerprinted HostConfigs texts :=
  ⟨fingerprinted_of_lawful hfree, fingerprinted_of_lawful hfree⟩

/-- A cluster of one component that has the given display name, or none. -/
def clusterDisplaying (displayName : Option String) : Topology :=
  { components := [{ name := "C", service := "S", displayName }] }

/-- The state that holds this cluster alone. -/
def heldDisplaying (displayName : Option String) : OrdMap ScopeKey Topology :=
  (∅ : OrdMap ScopeKey Topology).insert "1" (clusterDisplaying displayName)

/-- A display name that is empty is told from one that is missing, though identities do not differ. -/
theorem fingerprints_identify_displayNames :
    (clusterDisplaying (some "")).sameOutline (clusterDisplaying none) = true ∧
      fingerprint (heldDisplaying (some "")) ≠ fingerprint (heldDisplaying none) := by
  have hdigests : Digest.Sha256.digest (Wire.toText (heldDisplaying (some ""))).toUTF8.toList ≠
      Digest.Sha256.digest (Wire.toText (heldDisplaying none)).toUTF8.toList := by
    decide +kernel
  have hfree : Digest.Sha256.CollisionFree
      {Wire.toText (heldDisplaying (some "")), Wire.toText (heldDisplaying none)} := by
    refine Set.injOn_pair.2 fun h => ?_
    exact absurd h hdigests
  have hne : heldDisplaying (some "") ≠ heldDisplaying none := by decide
  refine ⟨by decide, fun h => ?_⟩
  refine hne (((fingerprints_identify hfree).1.states _ _ ?_ ?_).1 h)
  · intro _
    exact .inl rfl
  · intro _
    exact .inr rfl

end FleetSync
