import MatchTape.Files.Path

/-!
# A tree of files

The files that a program works on as a value.  A node is a file or a folder with
further nodes in it, each under a name of its own.  A path begins in the working folder
or at the root and is followed step by step; each folder that was passed on the way
is kept, so that a step up finds it again.  What a step is taken from must be a
folder.
-/

namespace MatchTape.Files

inductive Node where
  | file (contents : List UInt8)
  | folder (entries : List (String × Node))
  deriving Repr, Inhabited

abbrev Entries := List (String × Node)

def Entries.put (name : String) (node : Node) : Entries → Entries
  | [] => [(name, node)]
  | (other, old) :: rest =>
      if other = name then (name, node) :: rest else (other, old) :: Entries.put name node rest

def Entries.fileNames (entries : Entries) : List String :=
  entries.filterMap fun (name, node) =>
    match node with
    | .file _ => some name
    | .folder _ => none

mutual

/-- A node and all nodes below it, each with the names that lead to it and, if it is a
file, with its contents. -/
def Node.listing (place : List String) : Node → List (List String × Option (List UInt8))
  | .file contents => [(place, some contents)]
  | .folder entries => (place, none) :: Entries.listing place entries

def Entries.listing (place : List String) :
    List (String × Node) → List (List String × Option (List UInt8))
  | [] => []
  | (name, node) :: rest => node.listing (place ++ [name]) ++ Entries.listing place rest

end

/-- Files and folders below the root, and those below the working folder and the
folders above it. -/
structure Tree where
  root : Entries := []
  /-- What stands in the working folder, then in each folder above it.  The folder
  that is left by a step up does not stand among the others. -/
  levels : List Entries := []
  deriving Repr, Inhabited

/-- Where a way begins: at the root, or some steps above the working folder. -/
inductive Base where
  | root
  | level (height : Nat)
  deriving DecidableEq, Repr

/-- Where a way has led. -/
structure Spot where
  base : Base
  /-- The names on the way down from the base, last first, each with the folder that it
  was looked up in. -/
  trail : List (String × Entries)
  node : Option Node
  deriving Repr

namespace Tree

def empty : Tree := {}

def entries (tree : Tree) : Base → Entries
  | .root => tree.root
  | .level height => tree.levels.getD height []

def start (tree : Tree) (base : Base) : Spot :=
  ⟨base, [], some (.folder (tree.entries base))⟩

def origin (tree : Tree) (path : String) : Spot :=
  tree.start (if Path.isAbsolute path then .root else .level 0)

def working (tree : Tree) : List (List String × Option (List UInt8)) :=
  Entries.listing [] (tree.entries (.level 0))

/-- All of the tree, by the steps of the paths that lead there. -/
def listing (tree : Tree) : List (List String × Option (List UInt8)) :=
  Entries.listing [Path.separator.toString] tree.root ++
    tree.levels.zipIdx.flatMap fun (entries, height) =>
      Entries.listing (List.replicate height Path.above) entries

/-- The folder above the base of a way; nothing is above the root. -/
def higher : Base → Base
  | .root => .root
  | .level height => .level (height + 1)

def up (tree : Tree) (spot : Spot) : Spot :=
  match spot.trail with
  | (_, entries) :: trail => ⟨spot.base, trail, some (.folder entries)⟩
  | [] => tree.start (higher spot.base)

/-- Take a step, which must begin in a folder.  Whether something stands where a name
leads is left open. -/
def enter (tree : Tree) (spot : Spot) (step : String) : Except Fault Spot :=
  match spot.node with
  | none => .error .notFound
  | some (.file _) => .error .notFolder
  | some (.folder entries) =>
      if step = Path.here then .ok spot
      else if step = Path.above then .ok (tree.up spot)
      else if Path.longestName < step.utf8ByteSize then .error .nameTooLong
      else .ok ⟨spot.base, (step, entries) :: spot.trail, entries.lookup step⟩

def walk (tree : Tree) (spot : Spot) (steps : List String) : Except Fault Spot :=
  steps.foldlM tree.enter spot

def find (tree : Tree) (path : String) : Except Fault Node := do
  Path.check path
  let spot ← tree.walk (tree.origin path) (Path.steps path)
  match spot.node with
  | none => throw .notFound
  | some (.folder entries) => return .folder entries
  | some (.file contents) =>
      if Path.endsInSeparator path then throw .notFolder
      return .file contents

def holds (tree : Tree) (path : String) : Bool :=
  (tree.find path).isOk

def isFolder (tree : Tree) (path : String) : Bool :=
  match tree.find path with
  | .ok (.folder _) => true
  | _ => false

def read (tree : Tree) (path : String) : Except Fault (List UInt8) := do
  match ← tree.find path with
  | .file contents => return contents
  | .folder _ => throw .isFolder

def fileNames (tree : Tree) (path : String) : Except Fault (List String) := do
  match ← tree.find path with
  | .file _ => throw .notFolder
  | .folder entries => return Entries.fileNames entries

end Tree

end MatchTape.Files
