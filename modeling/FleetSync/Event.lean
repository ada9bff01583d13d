import FleetSync.Identifier
import FleetSync.Json.Record

/-!
Events: payloads by scope, and the kind of change they describe.

Deltas that flow into a holder and notices that leave it have this one shape. Only what leaves a
holder carries a fingerprint. A change check that finds the caller up to date answers with the
event that has neither scopes nor fingerprint; a check against an emptied holder has no scopes
either, but a fingerprint, so the two are never confused.
-/
namespace FleetSync

inductive EventType where | create | update | delete
  deriving DecidableEq

structure Event (α : Type) where
  scopes : OrdMap ScopeKey α := ∅
  type : EventType
  fingerprint : Option Fingerprint := none
  deriving DecidableEq

namespace EventType

def name : EventType → String
  | create => "CREATE"
  | update => "UPDATE"
  | delete => "DELETE"

def ofName? : String → Option EventType
  | "CREATE" => some create
  | "UPDATE" => some update
  | "DELETE" => some delete
  | _ => none

/-- Written as its name; an object that gives the name the value `null` is read as well. -/
instance : Wire EventType where
  encode t := .ofString t.name
  decode
    | .str (some s) => ofName? s
    | .obj [(some s, .null)] => ofName? s
    | _ => none

end EventType

namespace Event
variable {α β : Type}

/-- The event of one scope. -/
def single (scope : ScopeKey) (payload : α) (type : EventType) : Event α :=
  { scopes := (∅ : OrdMap ScopeKey α).insert scope payload, type }

theorem get?_single (scope : ScopeKey) (payload : α) (type : EventType) (x : ScopeKey) :
    (single scope payload type).scopes.get? x = if x = scope then some payload else none :=
  OrdMap.get?_insert ..

/-- The answer to a caller that is up to date. -/
def noOp : Event α := { type := .update }

def isNoOp (e : Event α) : Bool := e.scopes.isEmpty && e.fingerprint.isNone

/-- The event with one more payload, or another one for its scope. -/
def withScope (e : Event α) (scope : ScopeKey) (payload : α) : Event α :=
  { e with scopes := e.scopes.insert scope payload }

def withFingerprint (e : Event α) (f : Fingerprint) : Event α := { e with fingerprint := some f }

/-- The event with every payload changed alike. -/
def map (f : α → β) (e : Event α) : Event β := { e with scopes := e.scopes.map f }

/-- The fields of the JSON form in order. -/
def fieldNames : List String := ["clusters", "eventType", "fingerprint"]

instance [Wire α] : Wire (Event α) where
  encode e := .object <|
    Json.field "clusters" e.scopes ++
    Json.field "eventType" e.type ++
    Json.fieldOf "fingerprint" e.fingerprint
  decode j := do
    let fields ← j.fields? fieldNames
    return {
      scopes := ← fields.defaulted "clusters" ∅
      type := ← fields.required "eventType"
      fingerprint := ← fields.optional "fingerprint" }

end Event
end FleetSync
