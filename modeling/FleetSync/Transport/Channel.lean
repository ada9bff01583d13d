import FleetSync.Transport.Basic

/-!
The channel: a transport that queues every envelope until its receiving end is closed.

A budget may limit how many more envelopes are tried; it is looked at before the channel, and an
attempt uses it up whether or not the channel is still open. Taken envelopes are counted by kind.
-/
namespace FleetSync

structure Channel where
  isOpen : Bool := true
  budget : Option Nat := none
  published : OrdMap String Nat := ∅

namespace Channel

def close (c : Channel) : Channel := { c with isOpen := false }

/-- Counts one more envelope of a kind. -/
def count (c : Channel) (kind : String) : Channel :=
  { c with published := c.published.insert kind ((c.published.get? kind).getD 0 + 1) }

/-- Queues an envelope. -/
def send (e : Envelope) : Op Channel Unit := fun c =>
  if c.budget = some 0 then .error (.transport "refused") c
  else
    let c := { c with budget := c.budget.map (· - 1) }
    let kind := e.payload.kind
    if c.isOpen then .ok () (c.count kind)
    else .error (.transport ("outbound channel closed while publishing " ++ kind ++ " event")) c

end Channel
end FleetSync
