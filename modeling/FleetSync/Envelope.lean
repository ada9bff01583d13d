import FleetSync.Command.Basic
import FleetSync.Configs
import FleetSync.Topology.Basic

/-!
Envelopes: events on their way to agents.

A destination is a topic for every agent or a topic of one host. Destinations are ordered, topics
for everyone first, so that they can be members of sets.
-/
namespace FleetSync

inductive Destination where
  | broadcast (topic : String)
  | host (id : HostId) (topic : String)
  deriving DecidableEq

/-- What agents are sent. -/
inductive Payload where
  | topology (e : Event Topology)
  | configs (e : Event HostConfigs)
  | commands (e : CommandEvent)
  deriving DecidableEq

structure Envelope where
  destination : Destination
  payload : Payload
  deriving DecidableEq

namespace Destination

/-- Broadcasts by topic, then hosts by id and topic. -/
def before : Destination → Destination → Prop
  | broadcast s, broadcast t => s < t
  | broadcast _, host _ _ => True
  | host _ _, broadcast _ => False
  | host i s, host j t => i < j ∨ (i = j ∧ s < t)

instance : LT Destination := ⟨before⟩

instance (a b : Destination) : Decidable (a < b) :=
  match a, b with
  | broadcast s, broadcast t => inferInstanceAs (Decidable (s < t))
  | broadcast _, host _ _ => .isTrue trivial
  | host _ _, broadcast _ => .isFalse id
  | host i s, host j t => inferInstanceAs (Decidable (i < j ∨ (i = j ∧ s < t)))

instance : LinearKey Destination where
  irrefl a h := match a, h with
    | broadcast s, h => LinearKey.irrefl s h
    | host i _, .inl h => LinearKey.irrefl i h
    | host _ s, .inr h => LinearKey.irrefl s h.2
  trans a b c hab hbc := match a, b, c, hab, hbc with
    | broadcast _, broadcast _, broadcast _, h₁, h₂ => LinearKey.trans (κ := String) _ _ _ h₁ h₂
    | broadcast _, _, host _ _, _, _ => trivial
    | host _ _, host _ _, host _ _, .inl h₁, .inl h₂ => .inl (LinearKey.trans _ _ _ h₁ h₂)
    | host _ _, host _ _, host _ _, .inl h₁, .inr h₂ => .inl (h₂.1 ▸ h₁)
    | host _ _, host _ _, host _ _, .inr h₁, .inl h₂ => .inl (h₁.1 ▸ h₂)
    | host _ _, host _ _, host _ _, .inr h₁, .inr h₂ =>
      .inr ⟨h₁.1.trans h₂.1, LinearKey.trans _ _ _ h₁.2 h₂.2⟩
  connected a b hab hba := match a, b, hab, hba with
    | broadcast _, broadcast _, h₁, h₂ =>
      congrArg broadcast (LinearKey.connected (κ := String) _ _ h₁ h₂)
    | broadcast _, host _ _, h₁, _ => absurd trivial h₁
    | host _ _, broadcast _, _, h₂ => absurd trivial h₂
    | host i s, host j t, h₁, h₂ => by
      obtain rfl := LinearKey.connected i j (fun h => h₁ (.inl h)) (fun h => h₂ (.inl h))
      obtain rfl := LinearKey.connected s t (fun h => h₁ (.inr ⟨rfl, h⟩)) (fun h => h₂ (.inr ⟨rfl, h⟩))
      rfl

end Destination

namespace Payload

/-- What a payload is called. -/
def kind : Payload → String
  | topology _ => "topology"
  | configs _ => "configs"
  | commands _ => "commands"

end Payload
end FleetSync
