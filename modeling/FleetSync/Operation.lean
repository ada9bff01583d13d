import FleetSync.Error

/-!
Operations on a state that may fail.

A failing operation says why and leaves the state as it was when it failed: what was done before
is not undone unless the operation itself sees to it.
-/
namespace FleetSync

/-- An operation on states `σ` with results in `β`. -/
abbrev Op (σ β : Type) := EStateM Fault σ β

namespace Op
variable {σ β : Type}

/-- Goes on with a result, or fails with its fault. -/
def ofExcept : Except Fault β → Op σ β
  | .ok v => pure v
  | .error f => throw f

/-- The result of an operation on a state, and the state after it. -/
def on (op : Op σ β) (s : σ) : Except Fault β × σ :=
  match op s with
  | .ok v s => (.ok v, s)
  | .error f s => (.error f, s)

/-- An operation on a part of a state. -/
def focus {τ : Type} (get : σ → τ) (set : τ → σ → σ) (op : Op τ β) : Op σ β := fun s =>
  match op (get s) with
  | .ok v t => .ok v (set t s)
  | .error f t => .error f (set t s)

/-- An operation that also works on an item in place, as one that takes the item and gives it back.
If it fails, the item is not given back. -/
def onItem {τ : Type} (op : Op (σ × τ) Unit) (item : τ) : Op σ τ := fun s =>
  match op (s, item) with
  | .ok () (s, item) => .ok item s
  | .error f (s, _) => .error f s

variable {τ : Type}

@[simp] theorem on_pure (v : β) (s : σ) : (pure v : Op σ β).on s = (.ok v, s) := rfl

@[simp] theorem on_throw (f : Fault) (s : σ) : (throw f : Op σ β).on s = (.error f, s) := rfl

@[simp] theorem on_get (s : σ) : (get : Op σ σ).on s = (.ok s, s) := rfl

@[simp] theorem on_modify (g : σ → σ) (s : σ) : (modify g : Op σ PUnit).on s = (.ok ⟨⟩, g s) := rfl

@[simp] theorem on_ofExcept (r : Except Fault β) (s : σ) : (ofExcept r : Op σ β).on s = (r, s) := by
  cases r <;> rfl

/-- What comes after an operation is done with its result, on the state it left. -/
theorem on_bind {γ : Type} (op : Op σ β) (next : β → Op σ γ) (s : σ) :
    (op >>= next).on s =
      match op.on s with
      | (.ok v, s) => (next v).on s
      | (.error f, s) => (.error f, s) := by
  simp only [on, bind, EStateM.bind]
  cases op s <;> rfl

theorem on_bind_of_ok {γ : Type} {op : Op σ β} {next : β → Op σ γ} {s t : σ} {v : β}
    (h : op.on s = (.ok v, t)) : (op >>= next).on s = (next v).on t := by
  rw [on_bind, h]

theorem on_bind_of_error {γ : Type} {op : Op σ β} {next : β → Op σ γ} {s t : σ} {f : Fault}
    (h : op.on s = (.error f, t)) : (op >>= next).on s = (.error f, t) := by
  rw [on_bind, h]

/-- What comes to a result has come to one on the way. -/
theorem of_on_bind_ok {γ : Type} {op : Op σ β} {next : β → Op σ γ} {s t : σ} {v : γ}
    (h : (op >>= next).on s = (.ok v, t)) :
    ∃ u between, op.on s = (.ok u, between) ∧ (next u).on between = (.ok v, t) := by
  rw [on_bind] at h
  rcases hop : op.on s with ⟨f | u, between⟩ <;> rw [hop] at h
  · cases h
  · exact ⟨u, between, rfl, h⟩

/-- An operation fails if it does so up to its result. -/
theorem error_of_on_bind_pure {γ : Type} {op : Op σ β} {g : β → γ} {s t : σ} {f : Fault}
    (h : (op >>= fun v => pure (g v)).on s = (.error f, t)) : op.on s = (.error f, t) := by
  rw [on_bind] at h
  rcases hop : op.on s with ⟨g | v, t'⟩
  · rw [hop] at h
    cases h
    rfl
  · rw [hop] at h
    cases h

/-- What an operation leaves does not depend on what becomes of its result. -/
theorem snd_on_bind_pure {γ : Type} (op : Op σ β) (g : β → γ) (s : σ) :
    ((op >>= fun v => pure (g v)).on s).2 = (op.on s).2 := by
  rw [on_bind]
  rcases op.on s with ⟨_ | v, t⟩ <;> rfl

theorem on_focus (get : σ → τ) (set : τ → σ → σ) (op : Op τ β) (s : σ) :
    (focus get set op).on s = ((op.on (get s)).1, set (op.on (get s)).2 s) := by
  simp only [on, focus]
  cases op (get s) <;> rfl

theorem on_onItem (op : Op (σ × τ) Unit) (item : τ) (s : σ) :
    (onItem op item).on s =
      ((op.on (s, item)).1.map fun _ => (op.on (s, item)).2.2, (op.on (s, item)).2.1) := by
  simp only [on, onItem]
  cases op (s, item) <;> rfl

end Op
end FleetSync
