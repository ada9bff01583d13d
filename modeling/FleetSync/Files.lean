import FleetSync.Ordered.Entries
import FleetSync.Path

/-!
A tree of files, and how a path is looked up in it.

A path is walked segment by segment from the root of the tree, which stands for the working
directory. Only a directory can be walked through. Above the root, and at the top of absolute paths,
there are directories of which nothing is known, so whatever is named there is missing.
-/
namespace FleetSync

inductive FileNode where
  | file (content : List UInt8)
  | dir (entries : List (List Char × FileNode))

/-- What is found at a path. -/
inductive Found where
  | file (content : List UInt8)
  | directory
  | missing
  /-- The path cannot even be walked: it leads through a file, or a part of it is no name. -/
  | blocked

/-- Files below the working directory. -/
structure Files where
  entries : List (List Char × FileNode) := []

namespace Files

/-- The longest file name and the longest path, in bytes. -/
def maxNameBytes : Nat := 255
def maxPathBytes : Nat := 4095

def byteSize (cs : List Char) : Nat := cs.foldl (fun n c => n + c.utf8Size) 0

/-- Walks the segments of a path in a directory of which nothing is known. -/
def walkUnknown : List (List Char) → Found
  | [] => .directory
  | s :: rest =>
    if s = [] ∨ s = ['.'] ∨ s = ['.', '.'] then walkUnknown rest
    else if maxNameBytes < byteSize s then .blocked
    else .missing

/-- Walks the segments of a path. `above` holds the directories passed, the nearest first. -/
def walk (above : List (List (List Char × FileNode))) (entries : List (List Char × FileNode)) :
    List (List Char) → Found
  | [] => .directory
  | s :: rest =>
    if s = [] ∨ s = ['.'] then walk above entries rest
    else if s = ['.', '.'] then
      match above with
      | [] => walkUnknown rest
      | parent :: above => walk above parent rest
    else if maxNameBytes < byteSize s then .blocked
    else
      match entries.lookup s with
      | none => .missing
      | some (.dir inner) => walk (entries :: above) inner rest
      | some (.file content) => if rest = [] then .file content else .blocked

/-- What is at a path. -/
def find (f : Files) (path : String) : Found :=
  let cs := path.toList
  if '\x00' ∈ cs ∨ maxPathBytes < byteSize cs then .blocked
  else if cs = [] then .missing
  else if cs.head? = some '/' then walkUnknown (Path.segments cs)
  else walk [] f.entries (Path.segments cs)

/-- Puts a node at the end of a way of names, making the directories on the way. -/
def putNode (node : FileNode) : List (List Char) → List (List Char × FileNode) →
    List (List Char × FileNode)
  | [], entries => entries
  | [name], entries =>
    match node, entries.lookup name with
    | .dir [], some (.dir _) => entries
    | node, _ => Entries.set name node entries
  | name :: rest, entries =>
    match entries.lookup name with
    | some (.dir inner) => Entries.set name (.dir (putNode node rest inner)) entries
    | _ => Entries.set name (.dir (putNode node rest [])) entries

/-- Takes the node at the end of a way of names away. -/
def dropNode : List (List Char) → List (List Char × FileNode) → List (List Char × FileNode)
  | [], entries => entries
  | [name], entries => entries.filter (·.1 ≠ name)
  | name :: rest, entries =>
    match entries.lookup name with
    | some (.dir inner) => Entries.set name (.dir (dropNode rest inner)) entries
    | _ => entries

/-- The names on the way to a path; a step to the parent takes one back. -/
def way (path : String) : List (List Char) :=
  ((Path.segments path.toList).foldl (fun names s =>
    if s = [] ∨ s = ['.'] then names
    else if s = ['.', '.'] then names.tail
    else s :: names) []).reverse

def writeFile (f : Files) (path : String) (content : List UInt8) : Files :=
  ⟨putNode (.file content) (way path) f.entries⟩

def makeDirectory (f : Files) (path : String) : Files := ⟨putNode (.dir []) (way path) f.entries⟩

def remove (f : Files) (path : String) : Files := ⟨dropNode (way path) f.entries⟩

end Files
end FleetSync
