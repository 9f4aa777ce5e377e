/-!
# Paths

A path is a text whose parts are separated by slashes.  Joining paths and going up
from one are textual; `steps` says which way a path leads through folders.  What a
file operation may fail for is listed first.
-/

namespace MatchTape.Files

inductive Fault where
  | notFound
  | exists
  | notFolder
  | isFolder
  | nameTooLong
  | nulCharacter
  | recordingExists (path : String)
  deriving DecidableEq, Repr

def Fault.message : Fault → String
  | notFound => "No such file or directory (os error 2)"
  | .exists => "File exists (os error 17)"
  | notFolder => "Not a directory (os error 20)"
  | isFolder => "Is a directory (os error 21)"
  | nameTooLong => "File name too long (os error 36)"
  | nulCharacter => "file name contained an unexpected NUL byte"
  | recordingExists path => s!"Replay already exists at {path}"

namespace Path

def separator : Char := '/'

def isAbsolute (path : String) : Bool :=
  path.toList.head? == some separator

/-- Whether a path ends in a separator, so that it can only lead to a folder. -/
def endsInSeparator (path : String) : Bool :=
  path.toList.getLast? == some separator

/-- A name seen from a folder.  An absolute name stands for itself; otherwise one
separator stands between the two, unless the folder is empty or ends in one. -/
def join (folder name : String) : String :=
  if isAbsolute name then name
  else if folder.isEmpty || endsInSeparator folder then folder ++ name
  else folder ++ separator.toString ++ name

def segments : List Char → List (List Char)
  | [] => [[]]
  | char :: rest =>
      match segments rest with
      | [] => [[char]]
      | first :: others =>
          if char = separator then [] :: first :: others else (char :: first) :: others

def parts (path : String) : List String :=
  (segments path.toList).map String.ofList

/-- The path with the given parts.  A single empty part is what stands in front of
the root's separator. -/
def ofParts : List String → String
  | [""] => separator.toString
  | parts => separator.toString.intercalate parts

def here : String := "."

def above : String := ".."

/-- Whether a part of a path leads nowhere. -/
def isIdle (part : String) : Bool :=
  part.isEmpty || part == here

def isName (step : String) : Bool :=
  step != here && step != above

/-- The steps of a path: its parts that are not empty. -/
def steps (path : String) : List String :=
  (parts path).filter (!·.isEmpty)

/-- A path and all paths above it, nearest first, as parts; given are the parts of
the path, last first.  A part that leads nowhere makes a path of its own only in
front.  The root and the empty path are left out. -/
def lineage : List String → List (List String)
  | [] => []
  | [first] => if first.isEmpty then [] else [[first]]
  | last :: rest =>
      if isIdle last then lineage rest else (last :: rest).reverse :: lineage rest

def foldersAbove (path : String) : List String :=
  ((lineage (parts path).reverse).drop 1).map ofParts

def longest : Nat := 4095

def longestName : Nat := 255

/-- A path that leads somewhere is not empty, not too long and free of the character
of code zero. -/
def check (path : String) : Except Fault Unit :=
  if path.toList.contains '\x00' then .error .nulCharacter
  else if longest < path.utf8ByteSize then .error .nameTooLong
  else if path.isEmpty then .error .notFound
  else .ok ()

end Path

end MatchTape.Files
