import Intcode.Chart
import Intcode.Text.Blank
import Intcode.Text.Quoted

/-! The files that a command sees: the folder it works in, with files and folders in
it, and the folders around. A path is walked name by name; every name but the last
must be that of a folder. -/

namespace Intcode

inductive Entry where
  | file (content : String)
  | folder
deriving DecidableEq, Repr

/-- A place, seen from the root of all or from the folder that the command works
in. -/
structure Location where
  isAbsolute : Bool := false
  /-- The number of folders to go up first. -/
  above : Nat := 0
  /-- The names of the folders to go down, and of what stands there, the last first. -/
  names : List String := []
deriving DecidableEq, Repr

namespace Location

/-- The place that the step of a path leads to. No step leads above the root. -/
def enter (location : Location) (name : String) : Location :=
  if name = "" || name = "." then location
  else if name = ".." then
    match location.names with
    | _ :: outer => { location with names := outer }
    | [] => if location.isAbsolute then location else { location with above := location.above + 1 }
  else { location with names := name :: location.names }

def steps (path : String) : List String := (Text.pieces '/' path.toList).map String.ofList

def start (path : String) : Location := { isAbsolute := path.startsWith "/" }

/-- The place that a path leads to if two dots undo the step before them, whatever
stands there. -/
def ofPath (path : String) : Location := (steps path).foldl enter (start path)

def text (location : Location) : String :=
  (if location.isAbsolute then "/" else "") ++
    "/".intercalate (List.replicate location.above ".." ++ location.names.reverse)

def parent (location : Location) : Location := location.enter ".."

/-- The places on the way down to a place, its own included. -/
def way (location : Location) : List Location :=
  (List.range location.names.length).map fun count =>
    { location with names := location.names.drop count }

end Location

/-- The entries of a directory by the paths of their places. -/
structure Directory where
  entries : Chart String Entry := {}
deriving DecidableEq, Repr

inductive Found where
  | missing
  | tooLong
  | entry (location : Location) (entry : Entry)
deriving DecidableEq, Repr

inductive Obstacle where
  | folder (path : String)
  | noFolder (path : String)
  | tooLong (path : String)
  | null
deriving DecidableEq, Repr

def Obstacle.message : Obstacle → String
  | folder path => "[Errno 21] Is a directory: " ++ Text.quoted path
  | noFolder path => "[Errno 2] No such file or directory: " ++ Text.quoted path
  | tooLong path => "[Errno 36] File name too long: " ++ Text.quoted path
  | null => "embedded null byte"

namespace Directory

/-- What stands at a place. Where no name leads, there is a folder. -/
def at? (directory : Directory) (location : Location) : Option Entry :=
  if location.names.isEmpty then some .folder else directory.entries.get? location.text

def maxNameSize : Nat := 255

def maxPathSize : Nat := 4096

def walk (directory : Directory) : Location → List String → Found
  | location, [] =>
    match directory.at? location with
    | some entry => .entry location entry
    | none => .missing
  | location, name :: rest =>
    if directory.at? location ≠ some .folder then .missing
    else if maxNameSize < name.utf8ByteSize then .tooLong
    else walk directory (location.enter name) rest

def find (directory : Directory) (path : String) : Found :=
  if path = "" || path.toList.contains '\x00' then .missing
  else if maxPathSize ≤ path.utf8ByteSize then .tooLong
  else directory.walk (.start path) (Location.steps path)

def shown (path : String) : String :=
  let names := (Location.steps path).filter fun name => name ≠ "" && name ≠ "."
  let root :=
    if path.startsWith "//" && !path.startsWith "///" then "//"
    else if path.startsWith "/" then "/"
    else ""
  let text := root ++ "/".intercalate names
  if text = "" then "." else text

def findShown (directory : Directory) (path : String) : Found := directory.find (shown path)

def write (directory : Directory) (location : Location) (content : String) : Directory :=
  ⟨directory.entries.set location.text (.file content)⟩

def append (directory : Directory) (location : Location) (content : String) : Directory :=
  match directory.at? location with
  | some (.file before) => directory.write location (before ++ content)
  | _ => directory.write location content

def addFolder (directory : Directory) (location : Location) : Directory :=
  ⟨location.way.foldl (fun entries place => entries.set place.text .folder) directory.entries⟩

/-- Why a file cannot be written at a place, if it cannot. -/
def obstacle? (directory : Directory) (location : Location) : Option Obstacle :=
  let path := location.text
  if path.toList.contains '\x00' then some .null
  else if directory.at? location = some .folder then some (.folder path)
  else if directory.at? location.parent ≠ some .folder then some (.noFolder path)
  else if (location.names.head?.any fun name => maxNameSize < name.utf8ByteSize) then
    some (.tooLong path)
  else none

end Directory
end Intcode
