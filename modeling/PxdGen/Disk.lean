import PxdGen.Fault
import PxdGen.Table
import PxdGen.Text.Path
/-! # Files

The part of a disk that the program writes to: the directories under the current one and the files
in them, by their paths from there. Outside of it only the directories at the root are known, and
what is written there is not kept.
-/

namespace PxdGen

structure Disk where
  /-- the path of the current directory -/
  home : String := "."
  directories : List String := []
  files : Table String String := {}

/-- A place on a disk: the names on the way to it from the root, the last one first. -/
abbrev Place := List String

namespace Disk

def rootDirectories : List String :=
  ["bin", "boot", "dev", "etc", "home", "lib", "lib64", "media", "mnt", "opt", "proc", "root",
    "run", "sbin", "srv", "sys", "tmp", "usr", "var"]

/-- The place of the current directory, whose name is not known. -/
def here : Place := ["", "tmp"]

/-- The path of a place from the current directory, if it is not outside of it. -/
def inside? (place : Place) : Option String :=
  let depth := place.length - here.length
  if place.drop depth == here then some ("/".intercalate (place.take depth).reverse) else none

def isDirectory (d : Disk) : Place → Bool
  | [] => true
  | [name] => rootDirectories.contains name
  | place => (inside? place).any fun path => path.isEmpty || d.directories.contains path

def isFile (d : Disk) (place : Place) : Bool :=
  place == ["null", "dev"] || (inside? place).any fun path => (d.files.get? path).isSome

def longestName : Nat := 255

def longestPath : Nat := 4095

/-- Goes from a directory to another one. -/
def enter (d : Disk) (place : Place) (name : String) : Except Fault Place :=
  if name == "" || name == "." then .ok place
  else if name == ".." then .ok place.tail
  else if longestName < name.utf8ByteSize then .error .nameTooLong
  else if d.isDirectory (name :: place) then .ok (name :: place)
  else if d.isFile (name :: place) then .error .notDirectory
  else .error .noFile

/-- The place of a file that is to be written. A path that ends in a slash is that of a
directory. -/
def placeOf (d : Disk) (path : String) : Except Fault Place := do
  let place := if path.startsWith "/" then [] else here
  let names := Text.pieces '/' path
  let named := (names.reverse.dropWhile (·.isEmpty)).reverse
  let place ← named.dropLast.foldlM d.enter place
  let name := named.getLastD "."
  if named.length < names.length || name == "." || name == ".." then .error .isDirectory
  else if longestName < name.utf8ByteSize then .error .nameTooLong
  else if d.isDirectory (name :: place) then .error .isDirectory
  else .ok (name :: place)

def addDirectory (d : Disk) (path : String) : Disk :=
  let parts := (Text.pieces '/' path).filter fun p => p != "" && p != "."
  let paths := (List.range parts.length).map fun i => "/".intercalate (parts.take (i + 1))
  { d with directories := d.directories ++ paths.filter fun p => !d.directories.contains p }

def pathFault? (path : String) : Option Fault :=
  if path.toList.any fun c => c.toNat == 0 then some .malformed
  else if path.isEmpty then some .noFile
  else if longestPath < path.utf8ByteSize then some .nameTooLong
  else none

/-- Writes a file, which is made if its directory is there. -/
def write (d : Disk) (path text : String) : Except Fault Disk := do
  if let some fault := pathFault? path then throw fault
  match inside? (← d.placeOf path) with
  | some full => pure { d with files := d.files.insert full text }
  | none => pure d

end Disk

end PxdGen
