import FleetSync.Files
import FleetSync.Settings.Layer

/-!
Loading settings.

Settings are loaded from their defaults, a file that the variable `CONFIG_PATH` names, and the
environment, each layer over the one before. A further file can be laid over settings that are
loaded, and the environment over it again. The name of a file may be given without its extension.
Nothing is validated here.
-/
namespace FleetSync

/-- Why settings cannot be loaded. -/
inductive LoadFault where
  | missing (name : String)
  | unknownFormat (name : String)
  | malformed (name : String)
  /-- A field or a section is given something of another kind. -/
  | mismatched
  deriving DecidableEq

namespace SettingsFile

/-- The extension of the files that hold settings. -/
def fileExtension : List Char := ['t', 'o', 'm', 'l']

/-- Whether the last segment of a path is a name with the extension behind its last point. -/
def hasExtension (name : String) : Bool :=
  let last := ((Path.segments name.toList).getLast?).getD []
  let back := last.reverse
  back.takeWhile (· ≠ '.') = fileExtension.reverse && 1 < (back.dropWhile (· ≠ '.')).length

/-- The path with the extension added to its last name, if it ends with a name. -/
def withExtension? (name : String) : Option String :=
  let back := (Path.segments name.toList).reverse.dropWhile fun s => s = [] ∨ s = ['.']
  match back with
  | [] => none
  | last :: above =>
    if last = ['.', '.'] then none
    else
      let path := (['/'].intercalate ((last ++ '.' :: fileExtension) :: above).reverse)
      some (String.ofList path)

/-- The bytes of the file of a name. -/
def find (files : Files) (name : String) : Except LoadFault (List UInt8) :=
  match files.find name with
  | .file content => if hasExtension name then .ok content else .error (.unknownFormat name)
  | _ =>
    match (withExtension? name).map files.find with
    | some (.file content) => .ok content
    | _ => .error (.missing name)

/-- The layer of the content of a file, which is a document in UTF-8. -/
def layerOf? (content : List UInt8) : Option Layer := do
  let text ← String.fromUTF8? ⟨content.toArray⟩
  Layer.ofToml? (← Toml.parse text.toList)

/-- The layer of the file of a name. -/
def layer (files : Files) (name : String) : Except LoadFault Layer := do
  let content ← find files name
  match layerOf? content with
  | some l => .ok l
  | none => .error (.malformed name)

end SettingsFile

namespace Settings

/-- The settings that layers make when they are laid over one another. -/
def ofLayers (layers : List Layer) : Except LoadFault Settings :=
  match ofTree? (layers.foldl (fun root l => l.overlay root) (.table [])) with
  | some s => .ok s
  | none => .error .mismatched

/-- The variable that names the file with the settings. -/
def pathVariable : String := "CONFIG_PATH"

/-- The settings of an environment. -/
def load (env : OrdMap String String) (files : Files) : Except LoadFault Settings := do
  let named ← match env.get? pathVariable with
    | some name => do pure [← SettingsFile.layer files name]
    | none => pure []
  ofLayers (.ofSettings {} :: named ++ [.ofEnvironment env])

/-- The settings with those of a file laid over them. -/
def withFile (s : Settings) (env : OrdMap String String) (files : Files) (name : String) :
    Except LoadFault Settings := do
  let layer ← SettingsFile.layer files name
  ofLayers [.ofSettings s, layer, .ofEnvironment env]

/-- The settings of an environment with further files laid over them, one after another. -/
def loadWith (env : OrdMap String String) (files : Files) (names : List String) : Except LoadFault Settings := do
  let s ← load env files
  names.foldlM (fun s name => s.withFile env files name) s

end Settings
end FleetSync
