import FleetSync.Text.Decimal

/-!
Counters in the text form that monitoring collects.

A family of counters has a name, a help line and one sample for each combination of labels that has
been counted. Families without samples are left out.
-/
namespace FleetSync

/-- A counted value with its labels. -/
structure Sample where
  labels : List (String × String)
  value : Nat
  deriving DecidableEq

structure Family where
  name : String
  help : String
  samples : List Sample
  deriving DecidableEq

/-- Why counters cannot be offered for collection. -/
inductive RegistrationFault where
  | emptyPrefix
  | alreadyRegistered
  deriving DecidableEq

namespace RegistrationFault

def message : RegistrationFault → String
  | emptyPrefix => "Error: empty prefix namespace"
  | alreadyRegistered => "Duplicate metrics collector registration attempted"

end RegistrationFault

namespace Sample

def labelText (l : String × String) : String := l.1 ++ "=\"" ++ l.2 ++ "\""

/-- One line for a sample of the counter with the given full name. -/
def render (name : String) (s : Sample) : String :=
  name ++ "\x7b" ++ ",".intercalate (s.labels.map labelText) ++ "\x7d " ++
    String.ofList (Decimal.ofNat s.value) ++ "\n"

end Sample

namespace Family

/-- The lines of a family under a full name; nothing for a family without samples. -/
def render (fullName : String → String) (f : Family) : String :=
  if f.samples.isEmpty then ""
  else
    let name := fullName f.name
    "# HELP " ++ name ++ " " ++ f.help ++ "\n# TYPE " ++ name ++ " counter\n" ++
      String.join (f.samples.map (·.render name))

/-- A registry that names its families after a prefix has to have one. -/
def fullNameUnder : Option String → Except RegistrationFault (String → String)
  | none => .ok id
  | some p => if p = "" then .error .emptyPrefix else .ok fun name => p ++ "_" ++ name

/-- The text of all families, which are given in the order of their names. -/
def exposition (underName : Option String) (families : List Family) :
    Except RegistrationFault String := do
  let fullName ← fullNameUnder underName
  return String.join (families.map (·.render fullName))

/-- Registering families that are registered already. -/
def registerAgain (underName : Option String) : Except RegistrationFault Unit := do
  let _ ← fullNameUnder underName
  throw .alreadyRegistered

end Family
end FleetSync
