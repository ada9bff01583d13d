import FleetSync.Json.Readable
import FleetSync.Keytab.Entry
import FleetSync.Identifier

/-!
Commands of the controller to its agents, and the bundles they travel in.

An execution command names a role to act on and carries parameters; a background one is the same
with another tag; a cancel command names the task to stop. One event carries everything that one
host is told at once, by cluster.
-/
namespace FleetSync

structure ExecutionCommand where
  hostname : String
  clusterName : Option String := none
  clusterId : Option String := none
  role : String
  roleCommand : String
  taskId : TaskId
  commandId : String
  background : Bool := false
  params : OrdMap String String := ∅
  keytabs : List KeytabEntry := []
  deriving DecidableEq

structure CancelCommand where
  hostname : String
  targetTask : TaskId
  reason : String := ""
  deriving DecidableEq

inductive AgentCommand where
  | execution (c : ExecutionCommand)
  | background (c : ExecutionCommand)
  | cancel (c : CancelCommand)
  deriving DecidableEq

/-- The commands for one host within one cluster. -/
structure CommandBundle where
  executions : List ExecutionCommand := []
  cancels : List CancelCommand := []
  deriving DecidableEq

/-- All commands for one host, by cluster id. -/
structure CommandEvent where
  host : HostId
  clusters : OrdMap String CommandBundle
  deriving DecidableEq

namespace ExecutionCommand

def param? (c : ExecutionCommand) (key : String) : Option String := c.params.get? key

def withParam (c : ExecutionCommand) (key value : String) : ExecutionCommand :=
  { c with params := c.params.insert key value }

/-- The fields of the JSON form in order. -/
def fieldNames : List String :=
  ["hostname", "clusterName", "clusterId", "role", "roleCommand", "taskId", "commandId",
    "background", "commandParams", "kerberosCommandParams"]

def toFields (c : ExecutionCommand) : Json.Fields :=
  Json.field "hostname" c.hostname ++
  Json.fieldOf "clusterName" c.clusterName ++
  Json.fieldOf "clusterId" c.clusterId ++
  Json.field "role" c.role ++
  Json.field "roleCommand" c.roleCommand ++
  Json.field "taskId" c.taskId ++
  Json.field "commandId" c.commandId ++
  Json.fieldUnless (!c.background) "background" c.background ++
  Json.field "commandParams" c.params ++
  Json.fieldUnless c.keytabs.isEmpty "kerberosCommandParams" c.keytabs

instance : Wire ExecutionCommand where
  encode c := .object c.toFields
  decode j := do
    let fields ← j.fields? fieldNames
    return {
      hostname := ← fields.required "hostname"
      clusterName := ← fields.optional "clusterName"
      clusterId := ← fields.optional "clusterId"
      role := ← fields.required "role"
      roleCommand := ← fields.required "roleCommand"
      taskId := ← fields.required "taskId"
      commandId := ← fields.required "commandId"
      background := ← fields.defaulted "background" false
      params := ← fields.defaulted "commandParams" ∅
      keytabs := ← fields.defaulted "kerberosCommandParams" [] }

end ExecutionCommand

namespace CancelCommand

/-- The fields of the JSON form in order. -/
def fieldNames : List String := ["hostname", "targetTaskId", "reason"]

def toFields (c : CancelCommand) : Json.Fields :=
  Json.field "hostname" c.hostname ++
  Json.field "targetTaskId" c.targetTask ++
  Json.fieldUnless c.reason.isEmpty "reason" c.reason

instance : Wire CancelCommand where
  encode c := .object c.toFields
  decode j := do
    let fields ← j.fields? fieldNames
    return {
      hostname := ← fields.required "hostname"
      targetTask := ← fields.required "targetTaskId"
      reason := ← fields.defaulted "reason" "" }

end CancelCommand

namespace AgentCommand

/-- The tag of a command, which is also what it is called. -/
def kind : AgentCommand → String
  | execution _ => "EXECUTION_COMMAND"
  | background _ => "BACKGROUND_EXECUTION_COMMAND"
  | cancel _ => "CANCEL_COMMAND"

/-- The name of the field that holds the tag. -/
def tagName : String := "commandType"

def toFields : AgentCommand → Json.Fields
  | execution c | background c => c.toFields
  | cancel c => c.toFields

/-- A tagged document taken apart: the tag, wherever it stands among the members of an object or
in front of the items of an array, and the document without it. -/
def splitTag : Json → Option (String × Json)
  | .obj members =>
    match members.filter (·.1 = some tagName) with
    | [(_, .str (some tag))] => some (tag, .obj (members.filter (·.1 ≠ some tagName)))
    | _ => none
  | .arr (.str (some tag) :: items) => some (tag, .arr items)
  | _ => none

/-- The command with a given tag. -/
def ofTag? (tag : String) (j : Json) : Option AgentCommand :=
  match tag with
  | "EXECUTION_COMMAND" => (Wire.decode j).map execution
  | "BACKGROUND_EXECUTION_COMMAND" => (Wire.decode j).map background
  | "CANCEL_COMMAND" => (Wire.decode j).map cancel
  | _ => none

/-- The tag is written first. As it may be read last, the document has to be readable completely
before any of its fields is looked at. -/
instance : Wire AgentCommand where
  encode c := .object (Json.field tagName c.kind ++ c.toFields)
  decode j :=
    if j.isReadable then (splitTag j).bind fun (tag, rest) => ofTag? tag rest else none

end AgentCommand

namespace CommandBundle

def isEmpty (b : CommandBundle) : Bool := b.executions.isEmpty && b.cancels.isEmpty

/-- The fields of the JSON form in order. -/
def fieldNames : List String := ["executionCommands", "cancelCommands"]

instance : Wire CommandBundle where
  encode b := .object <|
    Json.field "executionCommands" b.executions ++ Json.field "cancelCommands" b.cancels
  decode j := do
    let fields ← j.fields? fieldNames
    return {
      executions := ← fields.required "executionCommands"
      cancels := ← fields.required "cancelCommands" }

end CommandBundle

namespace CommandEvent

/-- The fields of the JSON form in order. -/
def fieldNames : List String := ["host", "clusters"]

instance : Wire CommandEvent where
  encode e := .object <| Json.field "host" e.host ++ Json.field "clusters" e.clusters
  decode j := do
    let fields ← j.fields? fieldNames
    return {
      host := ← fields.required "host"
      clusters := ← fields.required "clusters" }

end CommandEvent
end FleetSync
