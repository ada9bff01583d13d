import FleetSync.Command.Basic
import FleetSync.Json.Readable
import Mathlib.Tactic

/-!
Which documents can be read completely.

A document of text, flags and whole numbers of 64 bits lacks nothing but perhaps room: rounding at most
doubles a number (`roundTo53_le`), so such a number stays far below the largest double. Depths add up
from the inside out, an array or an object being one deeper than what it holds.
-/
namespace FleetSync
namespace Json

/-! ### Numbers -/

theorem roundTo53_le (n : Nat) : roundTo53 n ≤ 2 * n := by
  by_cases hn : n = 0
  · subst hn
    decide
  · rw [roundTo53]
    generalize hu : Nat.pow 2 (n.log2 + 1 - 53) = unit
    have hunit : unit ≤ n := by
      rw [← hu]
      exact (Nat.pow_le_pow_right (by decide) (by omega)).trans (Nat.log2_self_le hn)
    have hround : Double.roundQuotient n unit ≤ n / unit + 1 := by
      rw [Double.roundQuotient]
      split <;> omega
    have hdiv : n / unit * unit ≤ n := Nat.div_mul_le_self n unit
    calc Double.roundQuotient n unit * unit
        ≤ (n / unit + 1) * unit := Nat.mul_le_mul_right _ hround
      _ = n / unit * unit + unit := Nat.succ_mul _ _
      _ ≤ 2 * n := by omega

/-- A whole number of 64 bits is far from the largest double. -/
theorem overflowsDouble_of_lt {n : Nat} (h : n < UInt64.size) : overflowsDouble n 0 = false := by
  have hone : roundTo53 (Nat.pow 10 0) = 1 := by decide
  have hround : ∀ k, 66 ≤ k → roundTo53 (roundTo53 n * 1) < Nat.pow 2 k := by
    intro k hk
    have houter := roundTo53_le (roundTo53 n * 1)
    have hinner := roundTo53_le n
    have hsize : 4 * UInt64.size = Nat.pow 2 66 := by decide
    calc roundTo53 (roundTo53 n * 1) < 4 * UInt64.size := by omega
      _ = Nat.pow 2 66 := hsize
      _ ≤ Nat.pow 2 k := Nat.pow_le_pow_right Nat.two_pos hk
  rw [overflowsDouble, leading64, if_pos h]
  show (if n = 0 ∨ (0 : Int) + (0 : Nat) < 0 then false
    else if (0 : Int) + (0 : Nat) > 308 then true
    else decide (roundTo53 (roundTo53 n * roundTo53 (Nat.pow 10 0)) ≥ Nat.pow 2 1024)) = false
  rw [hone, decide_eq_false (not_le.2 (hround 1024 (by decide)))]
  simp

/-! ### Depth -/

variable {α : Type} [Wire α] {depth : Nat}

theorem itemsReadable_iff {l : List Json} :
    itemsReadable depth l = true ↔ ∀ j ∈ l, j.readableWithin depth = true := by
  induction l with
  | nil => simp [itemsReadable]
  | cons j l ih => simp [itemsReadable, ih]

theorem membersReadable_iff {l : List (Literal × Json)} :
    membersReadable depth l = true ↔
      ∀ m ∈ l, m.1.isSome = true ∧ m.2.readableWithin depth = true := by
  induction l with
  | nil => simp [membersReadable]
  | cons m l ih => simp [membersReadable, ih]

/-- The values of all fields can be read within a depth. -/
def Fields.ReadableWithin (depth : Nat) (fields : Fields) : Prop :=
  ∀ m ∈ fields, m.2.readableWithin depth = true

theorem readable_object {fields : Fields} (h : fields.ReadableWithin depth) :
    (Json.object fields).readableWithin (depth + 1) = true := by
  rw [object, readableWithin, membersReadable_iff]
  intro m hm
  obtain ⟨f, hf, rfl⟩ := List.mem_map.1 hm
  exact ⟨rfl, h f hf⟩

namespace Fields

@[simp] theorem readable_append {fields fields' : Fields} :
    ReadableWithin depth (fields ++ fields') ↔
      fields.ReadableWithin depth ∧ fields'.ReadableWithin depth := by
  simp only [ReadableWithin, List.mem_append, or_imp, forall_and]

@[simp] theorem readable_field {n : String} {v : α} :
    ReadableWithin depth (field n v) ↔ (Wire.encode v).readableWithin depth = true := by
  simp [ReadableWithin, field]

@[simp] theorem readable_fieldUnless {omitted : Bool} {n : String} {v : α} :
    ReadableWithin depth (fieldUnless omitted n v) ↔
      (omitted = false → (Wire.encode v).readableWithin depth = true) := by
  cases omitted <;> simp [ReadableWithin, fieldUnless, field]

@[simp] theorem readable_fieldOf {n : String} {o : Option α} :
    ReadableWithin depth (fieldOf n o) ↔
      ∀ v ∈ o, (Wire.encode v).readableWithin depth = true := by
  cases o <;> simp [ReadableWithin, fieldOf, field]

end Fields

@[simp] theorem readable_string (s : String) : (Wire.encode s).readableWithin depth = true := rfl

@[simp] theorem readable_bool (b : Bool) : (Wire.encode b).readableWithin depth = true := rfl

@[simp] theorem readable_uint64 (n : UInt64) : (Wire.encode n).readableWithin depth = true := by
  show (!overflowsDouble n.toNat 0) = true
  rw [overflowsDouble_of_lt n.toNat_lt]
  rfl

theorem readable_list (h : ∀ v : α, (Wire.encode v).readableWithin depth = true) (l : List α) :
    (Wire.encode l).readableWithin (depth + 1) = true := by
  show (Json.arr (l.map Wire.encode)).readableWithin (depth + 1) = true
  rw [readableWithin, itemsReadable_iff]
  intro j hj
  obtain ⟨v, -, rfl⟩ := List.mem_map.1 hj
  exact h v

theorem readable_map (h : ∀ v : α, (Wire.encode v).readableWithin depth = true)
    (m : OrdMap String α) : (Wire.encode m).readableWithin (depth + 1) = true := by
  refine readable_object fun f hf => ?_
  obtain ⟨e, -, rfl⟩ := List.mem_map.1 hf
  exact h e.2

end Json

/-! ### Commands -/

theorem KeytabEntry.readable {depth : Nat} (e : KeytabEntry) :
    (Wire.encode e).readableWithin (depth + 1) = true := by
  refine Json.readable_object ?_
  simp

/-- The deepest values of a command are those of its keytab entries, three levels down. -/
theorem AgentCommand.readable (c : AgentCommand) : (Wire.encode c).isReadable = true := by
  have hparams : ∀ m : OrdMap String String, (Wire.encode m).readableWithin (125 + 1) = true :=
    Json.readable_map fun _ => rfl
  have hkeytabs : ∀ l : List KeytabEntry, (Wire.encode l).readableWithin (125 + 1) = true :=
    Json.readable_list KeytabEntry.readable
  show Json.readableWithin (126 + 1) (.object (Json.field tagName c.kind ++ c.toFields)) = true
  refine Json.readable_object ?_
  cases c <;>
    simp [toFields, ExecutionCommand.toFields, CancelCommand.toFields, hparams, hkeytabs]

end FleetSync
