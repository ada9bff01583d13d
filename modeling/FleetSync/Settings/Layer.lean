import FleetSync.Double.Reader
import FleetSync.Ordered.Map
import FleetSync.Settings.Address
import FleetSync.Settings.Fields
import FleetSync.Toml.Reader

/-!
Layers of settings.

A layer lays settings over places in the tree, one after another. There are three kinds: settings
that are known already, a document, and the variables of the environment. A variable
`AGENT_SYNC__SECTION__FIELD` gives a field its value, whatever the case of its letters; one without
text gives nothing. Its text is a flag or a number if it reads as one.

The entries of a document are laid in the order in which it is written, and variables in the order of
their names, so the later of two entries for one place wins. This order is not to be relied on: settings
are merged from hash tables, which come to their entries in any order, another one each time. It makes
no difference as long as a layer gives no field two values, as in two cases of its letters, and displaces
no section (`Settings.loads_iff`).
-/
namespace FleetSync

/-- Settings and where they go. -/
abbrev Layer := List (List Setting.Step × Setting)

mutual
/-- A document as a tree of settings, the names in small letters. -/
def Setting.ofToml : Toml → Setting
  | .text s => .text s
  | .whole i => .whole i
  | .real x => .real x
  | .flag b => .flag b
  | .moment m => .text m.toText
  | .list items => .list (Setting.ofItems items)
  | .table _ entries => .table (Setting.ofEntries entries)
  | .tables elements => .list (Setting.ofItems elements)

def Setting.ofItems : List Toml → List Setting
  | [] => []
  | t :: rest => Setting.ofToml t :: Setting.ofItems rest

def Setting.ofEntries : List (String × Toml) → List (String × Setting)
  | [] => []
  | (name, t) :: rest => (Text.toAsciiLower name, Setting.ofToml t) :: Setting.ofEntries rest
end

namespace Layer

/-- The tree with a layer laid over it. -/
def overlay (layer : Layer) (root : Setting) : Setting :=
  layer.foldl (fun root e => Setting.put e.2 e.1 (some root)) root

/-- The layer of a table at the top of everything. Its names are addresses. They come in the order of the document,
which is one of the orders they may be laid in. -/
def ofToml? : Toml → Option Layer
  | .table _ entries => some (entries.map fun e => (Address.ofText e.1, Setting.ofToml e.2))
  | _ => none

/-- The setting a variable gives. -/
def ofVariableText (s : String) : Setting :=
  if Text.sameIgnoringCase s "true" then .flag true
  else if Text.sameIgnoringCase s "false" then .flag false
  else match Decimal.int64? s.toList with
    | some i => .whole i
    | none =>
      match Double.ofChars? s.toList with
      | some x => .real x
      | none => .text s

/-- What the names of variables begin with. -/
def variableMark : List Char := "agent_sync__".toList

/-- Two underscores between names are the point of an address. -/
def pointed : List Char → List Char
  | '_' :: '_' :: rest => '.' :: pointed rest
  | c :: rest => c :: pointed rest
  | [] => []

/-- The address in the name of a variable, if it is one of ours. -/
def variableAddress? (name : String) : Option (List Setting.Step) :=
  let cs := (Text.toAsciiLower name).toList
  if variableMark.isPrefixOf cs then
    some (Address.ofText (String.ofList (pointed (cs.drop variableMark.length))))
  else none

/-- The layer of the environment, in the order of the names of its variables, which is one of the orders they may be
laid in. -/
def ofEnvironment (env : OrdMap String String) : Layer :=
  env.toList.filterMap fun (name, text) =>
    if text = "" then none
    else (variableAddress? name).map fun address => (address, ofVariableText text)

/-- The layer of settings that are known. -/
def ofSettings (s : Settings) : Layer :=
  s.tree.entries.map fun e => ([.name e.1], e.2)

end Layer
end FleetSync
