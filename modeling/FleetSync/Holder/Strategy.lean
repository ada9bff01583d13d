import FleetSync.Envelope
import FleetSync.Error

/-!
Strategies: what differs between the holders of one kind of payload and another.

A strategy merges one payload into what is held for its scope, and says what to send out once an
event has changed the held state. Merging is a verdict on the held value, not a change of it; the
holder carries the verdict out.
-/
namespace FleetSync

/-- What merging a payload into a scope comes to. -/
inductive Verdict (α : Type) where
  /-- The held value stays as it is. -/
  | unchanged
  /-- The held value becomes this one. -/
  | changed (value : α)
  /-- Nothing was held, and this value is from now on. -/
  | insert (value : α)
  /-- The scope is dropped. -/
  | remove
  deriving DecidableEq

namespace Verdict
variable {α : Type}

/-- Whether a verdict counts as a change, altered value or not. -/
def isChange : Verdict α → Bool
  | unchanged => false
  | _ => true

/-- What is held after a verdict. Where nothing is held there is nothing to change. -/
def resolve (held : Option α) : Verdict α → Option α
  | unchanged => held
  | changed v => held.map fun _ => v
  | insert v => some v
  | remove => none

/-- The verdict with its value, if it has one, changed. -/
def map {β : Type} (f : α → β) : Verdict α → Verdict β
  | unchanged => .unchanged
  | changed v => .changed (f v)
  | insert v => .insert (f v)
  | remove => .remove

theorem isChange_map {β : Type} (f : α → β) (v : Verdict α) : (v.map f).isChange = v.isChange := by
  cases v <;> rfl

theorem resolve_map {β : Type} (f : α → β) (held : Option α) (v : Verdict α) :
    (v.map f).resolve (held.map f) = (v.resolve held).map f := by
  cases v <;> cases held <;> rfl

@[simp] theorem isChange_iff {v : Verdict α} : v.isChange = true ↔ v ≠ unchanged := by
  cases v <;> simp [isChange]

end Verdict

structure Strategy (α : Type) where
  /-- The name under which updates are counted. -/
  name : String
  /-- The payload that stands for a whole scope when that scope is deleted. -/
  emptyValue : α
  merge : (scope : ScopeKey) → (held : Option α) → (incoming : α) → EventType →
    Except Fault (Verdict α)
  /-- What to send out for an event that bears the new fingerprint of the holder. -/
  outbound : Event α → Except Fault (List Envelope)

namespace Strategy

/-- Values are replaced as a whole: a known scope takes the new value or is dropped, an unknown one
is inserted and cannot be dropped. -/
def replaceScope {α : Type} (scope : ScopeKey) (held : Option α) (incoming : α) (type : EventType) :
    Except Fault (Verdict α) :=
  match held, type with
  | none, .delete => .error (.scopeNotFound scope)
  | none, _ => .ok (.insert incoming)
  | some _, .delete => .ok .remove
  | some _, _ => .ok (.changed incoming)

/-- Values are replaced as a whole, and the whole event is broadcast. On demand a value that equals
the held one leaves it unchanged. -/
def wholesale (name topic : String) (skipEqual : Bool) : Strategy HostConfigs where
  name
  emptyValue := {}
  merge scope held incoming type :=
    if skipEqual && type ≠ .delete && held = some incoming then .ok .unchanged
    else replaceScope scope held incoming type
  outbound e := .ok [⟨.broadcast topic, .configs e⟩]

end Strategy
end FleetSync
