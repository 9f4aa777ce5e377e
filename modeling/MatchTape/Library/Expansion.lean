import MatchTape.Files.Tree
import MatchTape.Library.Pattern

/-!
# From patterns to names

A name that is a pattern is replaced by the files it accepts.  The part up to the
last separator names a folder and is kept as it is; only the part behind it is
matched.
-/

namespace MatchTape.Library

open Files

namespace Expansion

/-- Whether a character separates folders from names; both slashes do. -/
def isSeparator (char : Char) : Bool :=
  char == '/' || char == '\\'

/-- The part of a name up to and with its last separator. -/
def folderPart (name : String) : String :=
  String.ofList (name.toList.reverse.dropWhile (!isSeparator ·)).reverse

def lastPart (name : String) : String :=
  String.ofList (name.toList.reverse.takeWhile (!isSeparator ·)).reverse

def listedFolder (recordings name : String) : String :=
  Path.join recordings (folderPart name)

def sorted (names : List String) : List String :=
  names.mergeSort fun left right => !decide (right < left)

/-- The names that one name stands for.  `list` gives the files of a folder that a
pattern accepts; a folder that cannot be listed has none. -/
def expand (recordings : String) (list : String → String → Except Fault (List String))
    (name : String) : List String :=
  if Pattern.isPattern name then
    match list (listedFolder recordings name) (lastPart name) with
    | .ok files => (sorted files).map (folderPart name ++ ·)
    | .error _ => []
  else [name]

def expandAll (recordings : String) (list : String → String → Except Fault (List String))
    (names : List String) : List String :=
  names.flatMap (expand recordings list)

def listTree (tree : Tree) (folder pattern : String) : Except Fault (List String) :=
  (tree.fileNames folder).map (·.filter (Pattern.accepts pattern))

end Expansion

end MatchTape.Library
