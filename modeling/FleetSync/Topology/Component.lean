import FleetSync.Identifier
import FleetSync.Json.Record

/-!
A component of a service as it runs inside one cluster.

The identity of a component is its name together with its service. A delta of the same identity is
merged attribute by attribute: references are united, parameters overlaid, a version replaced by one
that is not empty, a display name by any that is given. A delta of another identity does nothing.
Each operation comes with a report (`gains`, `loses`) that is true exactly when it alters something.
-/
namespace FleetSync

/-- A component, its references to hosts and its parameters. Host names are internal to the
controller. -/
structure Component where
  name : String
  service : String
  displayName : Option String := none
  version : Option String := none
  hostIds : OrdSet HostId := ∅
  hostNames : OrdSet String := ∅
  publicHostNames : OrdSet String := ∅
  levelParams : OrdMap String String := ∅
  commandParams : OrdMap String String := ∅
  deriving DecidableEq

namespace Component

/-- Two components of one name and service, whatever their attributes. -/
def SameIdentity (c d : Component) : Prop := c.name = d.name ∧ c.service = d.service

instance (c d : Component) : Decidable (SameIdentity c d) :=
  inferInstanceAs (Decidable (c.name = d.name ∧ c.service = d.service))

/-- Whether any host is referred to, by id or by name. -/
def hasReferences (c : Component) : Bool :=
  !c.hostIds.isEmpty || !c.hostNames.isEmpty || !c.publicHostNames.isEmpty

/-- The version of a delta counts only if it is given and not empty. -/
def newVersion (delta : Component) : Option String := delta.version.filter (· ≠ "")

/-- The attributes of `delta` merged into those of `c`. -/
def merge (c delta : Component) : Component :=
  if c.SameIdentity delta then
    { c with
      displayName := delta.displayName.or c.displayName
      version := delta.newVersion.or c.version
      hostIds := c.hostIds.union delta.hostIds
      hostNames := c.hostNames.union delta.hostNames
      publicHostNames := c.publicHostNames.union delta.publicHostNames
      levelParams := c.levelParams.overlay delta.levelParams
      commandParams := c.commandParams.overlay delta.commandParams }
  else c

/-- Some member of `incoming` is missing in `own`. -/
def addsMember {κ : Type} [LT κ] [DecidableEq κ] (own incoming : OrdSet κ) : Bool :=
  incoming.toList.any (· ∉ own)

/-- Some entry of `incoming` differs from what `own` has. -/
def setsParam (own incoming : OrdMap String String) : Bool :=
  incoming.toList.any fun e => own.get? e.1 ≠ some e.2

/-- Whether merging `delta` alters the component. -/
def gains (c delta : Component) : Bool :=
  decide (c.SameIdentity delta) &&
    ((delta.newVersion.isSome && delta.newVersion ≠ c.version) ||
      (delta.displayName.isSome && delta.displayName ≠ c.displayName) ||
      addsMember c.hostIds delta.hostIds ||
      addsMember c.hostNames delta.hostNames ||
      addsMember c.publicHostNames delta.publicHostNames ||
      setsParam c.levelParams delta.levelParams ||
      setsParam c.commandParams delta.commandParams)

/-- Exactly the references that `delta` names are taken away; the component stays. -/
def removeReferences (c delta : Component) : Component :=
  if c.SameIdentity delta then
    { c with
      hostIds := c.hostIds.diff delta.hostIds
      hostNames := c.hostNames.diff delta.hostNames
      publicHostNames := c.publicHostNames.diff delta.publicHostNames }
  else c

/-- Some member of `named` is in `own`. -/
def dropsMember {κ : Type} [LT κ] [DecidableEq κ] (own named : OrdSet κ) : Bool :=
  named.toList.any (· ∈ own)

/-- Whether removing the references of `delta` alters the component. -/
def loses (c delta : Component) : Bool :=
  decide (c.SameIdentity delta) &&
    (dropsMember c.hostIds delta.hostIds ||
      dropsMember c.hostNames delta.hostNames ||
      dropsMember c.publicHostNames delta.publicHostNames)

/-- The component without host names, as agents may see it. -/
def withoutHostNames (c : Component) : Component :=
  { c with hostNames := ∅, publicHostNames := ∅ }

/-- The fields of the JSON form in order. -/
def fieldNames : List String :=
  ["componentName", "serviceName", "displayName", "version", "hostIds", "hostNames",
    "publicHostNames", "componentLevelParams", "commandParams"]

instance : Wire Component where
  encode c := .object <|
    Json.field "componentName" c.name ++
    Json.field "serviceName" c.service ++
    Json.fieldOf "displayName" c.displayName ++
    Json.fieldOf "version" c.version ++
    Json.fieldUnless c.hostIds.isEmpty "hostIds" c.hostIds ++
    Json.fieldUnless c.hostNames.isEmpty "hostNames" c.hostNames ++
    Json.fieldUnless c.publicHostNames.isEmpty "publicHostNames" c.publicHostNames ++
    Json.fieldUnless c.levelParams.isEmpty "componentLevelParams" c.levelParams ++
    Json.fieldUnless c.commandParams.isEmpty "commandParams" c.commandParams
  decode j := do
    let fields ← j.fields? fieldNames
    return {
      name := ← fields.required "componentName"
      service := ← fields.required "serviceName"
      displayName := ← fields.optional "displayName"
      version := ← fields.optional "version"
      hostIds := ← fields.defaulted "hostIds" ∅
      hostNames := ← fields.defaulted "hostNames" ∅
      publicHostNames := ← fields.defaulted "publicHostNames" ∅
      levelParams := ← fields.defaulted "componentLevelParams" ∅
      commandParams := ← fields.defaulted "commandParams" ∅ }

end Component
end FleetSync
