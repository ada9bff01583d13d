import FleetSync.Text.AsciiCase

/-!
Custom commands that deal with keytabs.
-/
namespace FleetSync

inductive KeytabAction where
  /-- Hands the contents of keytabs to the agent. -/
  | set
  /-- Tells the agent which keytabs to delete. -/
  | remove
  deriving DecidableEq

namespace KeytabAction

def name : KeytabAction → String
  | set => "SET_KEYTAB"
  | remove => "REMOVE_KEYTAB"

/-- The action that a custom command names, in any case of its letters. -/
def ofCustomCommand? (s : String) : Option KeytabAction :=
  if Text.sameIgnoringCase s set.name then some set
  else if Text.sameIgnoringCase s remove.name then some remove
  else none

end KeytabAction
end FleetSync
