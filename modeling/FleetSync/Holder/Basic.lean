import FleetSync.Holder.Held
import FleetSync.Transport.Basic

/-!
Holders: the operations on a held state that reach beyond it, to a source and a transport.

A source builds snapshots of scopes on demand. Fetching is an operation of its own, so other
operations on the same holder may take place meanwhile. What a holder publishes follows what it
applies: an event is stored first and announced then, and an announcement that fails leaves the
state stored and the envelopes before the failure sent.
-/
namespace FleetSync

/-- How many events were applied with and without a change. -/
structure Tally where
  changed : Nat := 0
  unchanged : Nat := 0
  deriving DecidableEq

def Tally.count (t : Tally) (changed : Bool) : Tally :=
  if changed then { t with changed := t.changed + 1 } else { t with unchanged := t.unchanged + 1 }

/-- What an operation of a holder works on: the held state, the count of updates, the envelopes sent
so far, and the state `ω` of source and transport. -/
structure Site (ω α : Type) where
  held : Held α
  tally : Tally := {}
  sent : List Envelope := []
  world : ω

/-- Supplies authoritative snapshots. -/
structure Source (ω α : Type) where
  /-- Every scope that is known. -/
  scopes : Op (Site ω α) (List ScopeKey)
  /-- The snapshot of one scope. -/
  fetch : ScopeKey → Op (Site ω α) α

structure Holder (ω α : Type) where
  strategy : Strategy α
  source : Source ω α
  transport : Transport ω

/-- Applies an event and counts it, unless it fails. -/
def Strategy.applyAt {ω α : Type} [Wire α] (s : Strategy α) (e : Event α) : Op (Site ω α) Bool :=
  fun site =>
    match site.held.apply s e with
    | .ok (held, changed) => .ok changed { site with held, tally := site.tally.count changed }
    | .error f => .error f site

namespace Holder
variable {ω α : Type}

/-- Sends one envelope. -/
def publish (h : Holder ω α) (e : Envelope) : Op (Site ω α) Unit := fun site =>
  match h.transport.send e site.world with
  | .ok () world => .ok () { site with world, sent := site.sent ++ [e] }
  | .error f world => .error f { site with world }

/-- Sends what the strategy has to say about an event. -/
def announce (h : Holder ω α) (e : Event α) : Op (Site ω α) Unit := do
  let envelopes ← Op.ofExcept (h.strategy.outbound e)
  envelopes.forM h.publish

/-- Sends what the strategy has to say about an event, stamped with the fingerprint now held. -/
def announceHeld (h : Holder ω α) (e : Event α) : Op (Site ω α) Unit := do
  let site ← get
  h.announce (e.withFingerprint site.held.fingerprint)

variable [Wire α]

/-- Merges an event without telling anyone. Returns whether the held state changed. -/
def apply (h : Holder ω α) (e : Event α) : Op (Site ω α) Bool := h.strategy.applyAt e

/-- Merges an event and announces it if it changed the held state. -/
def update (h : Holder ω α) (e : Event α) : Op (Site ω α) Bool := do
  let changed ← h.apply e
  if changed then h.announceHeld e
  return changed

/-- The snapshot of one scope, straight from the source. -/
def fullSnapshot (h : Holder ω α) (scope : ScopeKey) : Op (Site ω α) α := h.source.fetch scope

/-- A creation of every scope that the source knows. -/
def currentData (h : Holder ω α) : Op (Site ω α) (Event α) := do
  let scopes ← h.source.scopes
  let entries ← scopes.mapM fun scope => do
    let value ← h.source.fetch scope
    return (scope, value)
  let all := OrdMap.ofList entries
  return { scopes := all, type := .create, fingerprint := some (fingerprint all) }

/-- Takes freshly built scopes over and tells whether their fingerprint differs. -/
def swap (scopes : OrdMap ScopeKey α) : Op (Site ω α) Bool := fun site =>
  let (held, moved) := site.held.swap scopes
  .ok moved { site with held }

/-- Replaces the held state by a fresh build without telling anyone. Returns whether the fingerprint
moved. -/
def load (h : Holder ω α) : Op (Site ω α) Bool := do
  let current ← h.currentData
  swap current.scopes

/-- Replaces the held state by a fresh build and announces the build if the fingerprint moved. -/
def resync (h : Holder ω α) : Op (Site ω α) Bool := do
  let current ← h.currentData
  let moved ← swap current.scopes
  if moved then h.announceHeld current
  return moved

/-- Tells a caller with a given fingerprint what it has missed. -/
def updateIfChanged (_ : Holder ω α) (prior : Fingerprint) : Op (Site ω α) (Event α) := do
  let site ← get
  return site.held.updateIfChanged prior

/-- Keeps a fetched value unless the scope is held by now, and returns the value that is held. -/
def storeFetched (scope : ScopeKey) (fetched : α) : Op (Site ω α) α := fun site =>
  let (held, value) := site.held.storeFetched scope fetched
  .ok value { site with held }

/-- Tells a caller with the fingerprint of one scope what it has missed of that scope. A scope that
is not held is fetched first. -/
def scopeUpdateIfChanged (h : Holder ω α) (scope : ScopeKey) (prior : Fingerprint) :
    Op (Site ω α) (Event α) := do
  let site ← get
  let value ← match site.held.scopes.get? scope with
    | some value => pure value
    | none => do
      let fetched ← h.source.fetch scope
      storeFetched scope fetched
  return Held.scopeAnswer scope value prior

end Holder
end FleetSync
