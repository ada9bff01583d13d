import FleetSync.Envelope
import FleetSync.Operation

/-!
Transports take envelopes for delivery or refuse them.

What becomes of an envelope is up to the transport. All that senders rely on is that envelopes are
taken in the order in which they are sent, so sending several stops at the first one refused.
-/
namespace FleetSync

/-- A way to send, over the state `ω` that the transport keeps. -/
structure Transport (ω : Type) where
  send : Envelope → Op ω Unit

namespace Transport

variable {ω : Type}

/-- The transport takes envelopes, one after another. -/
inductive Takes (t : Transport ω) : List Envelope → ω → ω → Prop
  | nil {w : ω} : Takes t [] w w
  | cons {e : Envelope} {es : List Envelope} {w w₁ w₂ : ω} (he : t.send e w = .ok () w₁)
      (hes : Takes t es w₁ w₂) : Takes t (e :: es) w w₂

/-- The transport takes envelopes, one after another, and refuses the next one. -/
def RefusesAfter (t : Transport ω) (taken : List Envelope) (e : Envelope) (w : ω) (f : Fault)
    (w' : ω) : Prop :=
  ∃ w₁, t.Takes taken w w₁ ∧ t.send e w₁ = .error f w'

/-- From some state on the transport takes everything. -/
def Reliable (t : Transport ω) (w : ω) : Prop := ∀ es, ∃ w', t.Takes es w w'

/-- A reliable transport takes the next envelope, and is as reliable after it. -/
theorem Reliable.send {t : Transport ω} {w : ω} (h : t.Reliable w) (e : Envelope) :
    ∃ w', t.send e w = .ok () w' ∧ t.Reliable w' := by
  obtain ⟨_, _ | ⟨he, _⟩⟩ := h [e]
  refine ⟨_, he, fun es => ?_⟩
  obtain ⟨w₂, _ | ⟨he', hes⟩⟩ := h (e :: es)
  cases he.symm.trans he'
  exact ⟨w₂, hes⟩

/-- All envelopes of a list are taken, or one of them is refused after those before it were taken. -/
theorem takes_or_refuses (t : Transport ω) (es : List Envelope) (w : ω) :
    (∃ w', t.Takes es w w') ∨
    ∃ taken e rest f w', es = taken ++ e :: rest ∧ t.RefusesAfter taken e w f w' := by
  induction es generalizing w with
  | nil => exact .inl ⟨w, .nil⟩
  | cons e es ih =>
    cases he : t.send e w with
    | error f w' => exact .inr ⟨[], e, es, f, w', rfl, w, .nil, he⟩
    | ok _ w₁ =>
      rcases ih w₁ with ⟨w', htakes⟩ | ⟨taken, d, rest, f, w', rfl, w₂, htakes, hd⟩
      · exact .inl ⟨w', .cons he htakes⟩
      · exact .inr ⟨e :: taken, d, rest, f, w', rfl, w₂, .cons he htakes, hd⟩

end Transport
end FleetSync
