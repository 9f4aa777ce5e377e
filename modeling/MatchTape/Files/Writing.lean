import MatchTape.Files.Tree

/-!
# Writing into a tree

Making one folder and writing one file need the folders above to be there.  The
operations that make those folders first do so one by one: what was made before a
fault stays.
-/

namespace MatchTape.Files

namespace Tree

def withEntries (tree : Tree) (entries : Entries) : Base → Tree
  | .root => { tree with root := entries }
  | .level height =>
      let missing := height + 1 - tree.levels.length
      { tree with levels := (tree.levels ++ List.replicate missing []).set height entries }

/-- Put a node under the first name of a trail, and the folders that this changes under
the names behind it: the entries at the end of the trail. -/
def graft (node : Node) (name : String) (entries : Entries) : List (String × Entries) → Entries
  | [] => Entries.put name node entries
  | (outerName, outer) :: trail =>
      graft (.folder (Entries.put name node entries)) outerName outer trail

/-- Put a node where a way has led, instead of what stands there.  The folder where
the way began stays. -/
def put (tree : Tree) (spot : Spot) (node : Node) : Tree :=
  match spot.trail with
  | [] => tree
  | (name, entries) :: trail => tree.withEntries (graft node name entries trail) spot.base

/-- The folder that the last step of a path is taken from, and the name that this
step is.  There is none if the path ends in a way to stay or to go up. -/
def site (tree : Tree) (path : String) : Except Fault (Spot × Option String) := do
  Path.check path
  let steps := Path.steps path
  let folder ← tree.walk (tree.origin path) (steps.dropLast ++ [Path.here])
  return (folder, steps.getLast?.filter Path.isName)

/-- Make one folder where nothing stands yet. -/
def makeFolder (tree : Tree) (path : String) : Except Fault Tree := do
  match ← tree.site path with
  | (_, none) => throw .exists
  | (folder, some name) =>
      let spot ← tree.enter folder name
      match spot.node with
      | some _ => throw .exists
      | none => return tree.put spot (.folder [])

/-- Write a file, instead of a file that may stand there.  A path that ends in a
separator names no file. -/
def write (tree : Tree) (path : String) (contents : List UInt8) : Except Fault Tree := do
  match ← tree.site path with
  | (_, none) => throw .isFolder
  | (folder, some name) =>
      if Path.endsInSeparator path then throw .isFolder
      let spot ← tree.enter folder name
      match spot.node with
      | some (.folder _) => throw .isFolder
      | _ => return tree.put spot (.file contents)

/-- What a change comes to: on a fault the tree is left as it was. -/
def outcome (before : Tree) : Except Fault Tree → Except Fault Unit × Tree
  | .ok after => (.ok (), after)
  | .error fault => (.error fault, before)

/-- Make sure that a folder is there; the folder above it is not made. -/
def ensureFolder (tree : Tree) (path : String) : Except Fault Unit × Tree :=
  match tree.outcome (tree.makeFolder path) with
  | (.error fault, tree) => (if tree.isFolder path then .ok () else .error fault, tree)
  | done => done

/-- Make sure that the first of some folders is there, each of which stands in the
next one.  Those behind it are made only if it has no place without them. -/
def ensureFirst (tree : Tree) : List String → Except Fault Unit × Tree
  | [] => (.ok (), tree)
  | path :: above =>
      match tree.ensureFolder path with
      | (.error .notFound, tree) =>
          match tree.ensureFirst above with
          | (.ok (), tree) => tree.ensureFolder path
          | failed => failed
      | done => done

def makeFolders (tree : Tree) (path : String) : Except Fault Unit × Tree :=
  if path.isEmpty then (.ok (), tree)
  else tree.ensureFirst (path :: Path.foldersAbove path)

def makeFoldersAbove (tree : Tree) (path : String) : Except Fault Unit × Tree :=
  tree.ensureFirst (Path.foldersAbove path)

def writeDeep (tree : Tree) (path : String) (contents : List UInt8) :
    Except Fault Unit × Tree :=
  match tree.makeFoldersAbove path with
  | (.ok (), tree) => tree.outcome (tree.write path contents)
  | failed => failed

/-- Write a recording, making its folders.  A recording that exists is never written over. -/
def writeRecording (tree : Tree) (path : String) (contents : List UInt8) :
    Except Fault Unit × Tree :=
  match tree.makeFoldersAbove path with
  | (.ok (), tree) =>
      if tree.holds path then (.error (.recordingExists path), tree)
      else tree.outcome (tree.write path contents)
  | failed => failed

end Tree

end MatchTape.Files
