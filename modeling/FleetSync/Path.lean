/-!
File paths as texts, with `/` between their parts.

Joining works on the text alone and normalizes nothing. The parts of a path are its meaning short of
looking at the disk: empty segments and inner dots say nothing, a leading slash is the root, a
leading dot and steps to the parent count.
-/
namespace FleetSync.Path

/-- A step of a path. -/
inductive Part where
  | root
  | here
  | up
  | normal (name : List Char)
  deriving DecidableEq

/-- The texts between the slashes; there is always at least one. -/
def segments : List Char → List (List Char)
  | [] => [[]]
  | c :: cs =>
    if c = '/' then [] :: segments cs
    else match segments cs with
      | [] => [[c]]
      | s :: rest => (c :: s) :: rest

/-- What a segment after the first says. -/
def innerPart? (s : List Char) : Option Part :=
  if s = [] ∨ s = ['.'] then none else if s = ['.', '.'] then some .up else some (.normal s)

/-- What the first segment of a relative path says. -/
def firstPart? (s : List Char) : Option Part := if s = ['.'] then some .here else innerPart? s

/-- The parts of a path. -/
def parts : List Char → List Part
  | '/' :: cs => .root :: (segments cs).filterMap innerPart?
  | cs =>
    match segments cs with
    | [] => []
    | s :: rest => (firstPart? s).toList ++ rest.filterMap innerPart?

/-- A path below a directory. An absolute one replaces the directory; otherwise a slash is put in
between unless the directory is empty or ends with one. -/
def joinChars (dir below : List Char) : List Char :=
  if below.head? = some '/' then below
  else if dir = [] ∨ dir.getLast? = some '/' then dir ++ below
  else dir ++ '/' :: below

def join (dir below : String) : String := String.ofList (joinChars dir.toList below.toList)

/-- Whether a path is the name of a file and nothing else. -/
def isFileName (p : String) : Bool :=
  match parts p.toList with
  | [.normal _] => true
  | _ => false

end FleetSync.Path
