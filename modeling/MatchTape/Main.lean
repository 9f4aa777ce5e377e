import MatchTape.CommandLine.Program

/-!
# Entry point

Reads the files that the arguments name, runs the program on them, prints what it
says and writes back what it changed.  Folders are not listed here, so that a
pattern stands for those files only that the arguments name besides it.
-/

namespace MatchTape.Main

open CommandLine Files

/-- The paths that a request speaks of. -/
def pathsOf : Request → List String
  | .play request =>
      [request.recordings, request.checkpoints] ++
        request.names.map (Path.join request.recordings) ++
        (request.saveName.toList ++ request.loadName.toList).map
          (Path.join request.checkpoints)
  | .record request =>
      [request.recordings, Path.join request.recordings request.name]

def folderCode : UInt32 := 21

def readInto (tree : Tree) (path : String) : IO Tree := do
  try
    let contents ← IO.FS.readBinFile path
    return (tree.writeDeep path contents.data.toList).2
  catch error =>
    match error with
    | .inappropriateType _ code _ =>
        return if code = folderCode then (tree.makeFolders path).2 else tree
    | _ => return tree

def pathTo (place : List String) : String :=
  place.foldl Path.join ""

def writeChanges (before after : Tree) : IO Unit := do
  for (place, contents) in after.listing do
    if before.listing.lookup place != some contents then
      match contents with
      | none => IO.FS.createDirAll (pathTo place)
      | some contents => IO.FS.writeBinFile (pathTo place) ⟨contents.toArray⟩

end MatchTape.Main

def main (arguments : List String) : IO UInt32 := do
  let paths := match MatchTape.CommandLine.parse arguments with
    | .ok request => MatchTape.Main.pathsOf request
    | .error _ => []
  let before ← paths.foldlM MatchTape.Main.readInto .empty
  let finished := MatchTape.CommandLine.run arguments before
  MatchTape.Main.writeChanges before finished.files
  IO.print finished.output
  IO.eprint finished.errors
  return UInt32.ofNat finished.code
