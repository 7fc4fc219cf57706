import PxdGen.Text.Blank
/-! # Paths

The parts of a path are separated by slashes. A path is normalized by leaving out empty parts and
single dots, and by letting each pair of dots take away the part before it.
-/

namespace PxdGen.Text

/-- The slashes that a path begins with: exactly two stay two, and more count as one. -/
def rootOf (path : String) : String :=
  match path.toList with
  | '/' :: '/' :: '/' :: _ => "/"
  | '/' :: '/' :: _ => "//"
  | '/' :: _ => "/"
  | _ => ""

/-- Puts a part behind others, the last of which is given first. -/
def addPart (isRooted : Bool) (parts : List String) (part : String) : List String :=
  if part == "" || part == "." then parts
  else if part == ".." then
    match parts with
    | [] => if isRooted then [] else [".."]
    | last :: rest => if last == ".." then ".." :: parts else rest
  else part :: parts

def normalPath (path : String) : String :=
  let root := rootOf path
  let parts := (pieces '/' path).foldl (addPart !root.isEmpty) []
  let text := root ++ "/".intercalate parts.reverse
  if text.isEmpty then "." else text

/-- A path behind a directory, unless it is one from the root. -/
def joinPath (directory path : String) : String :=
  if path.startsWith "/" then path
  else if directory.isEmpty || directory.endsWith "/" then directory ++ path
  else directory ++ "/" ++ path

/-- The path from the root, where relative paths are relative to a directory. -/
def absolutePath (directory path : String) : String := normalPath (joinPath directory path)

def baseName (path : String) : String := (pieces '/' path).getLastD ""

/-- A file name without its extension. Dots that it begins with do not start an extension. -/
def stemOf (name : String) : String :=
  let cs := name.toList
  let dots := cs.takeWhile (· == '.')
  let rest := cs.dropWhile (· == '.')
  let tail := rest.reverse.dropWhile (· != '.')
  match tail with
  | [] => name
  | _ :: stem => String.ofList (dots ++ stem.reverse)

end PxdGen.Text
