import CodeQuality.Text.Parts

/-!
# Files

A tree of files around a working directory, as far as a program can see it: directories and files
with their octets. On the way to a file there may be nothing but directories, and the name `..`
leads back to the directory around one.

There are only plain files and directories here: no links, no devices, and no permissions, so that
what is there can be read and changed. Names have any length, and directories and names take no
room. The one thing that can go wrong while a file is written is that there is no room for all of
it; the file then holds what there was room for, whatever it has held before.
-/

namespace CodeQuality

/-- Why a file cannot be reached or changed. -/
inductive FileError where
  | notFound
  | alreadyExists
  | notDirectory
  | isDirectory
  | noSpace
deriving DecidableEq, Repr

namespace FileError

def message : FileError → String
  | notFound => "No such file or directory (os error 2)"
  | alreadyExists => "File exists (os error 17)"
  | notDirectory => "Not a directory (os error 20)"
  | isDirectory => "Is a directory (os error 21)"
  | noSpace => "No space left on device (os error 28)"

end FileError

/-! ### Paths -/

/-- Where something stands: the names that lead there from the working directory, or from the root
if the first of them is empty. -/
abbrev FilePlace := List String

namespace FilePlace

/-- Where `name` leads to from the directory `front`. -/
def follow (front : FilePlace) (name : String) : FilePlace :=
  if name = ".." then
    match front.getLast? with
    | none => [".."]
    | some "" => front
    | some ".." => front ++ [".."]
    | some _ => front.dropLast
  else front ++ [name]

/-- Is this the working directory, a directory around it, or the root? These are always there. -/
def isGiven (place : FilePlace) : Bool := place = [""] || place.all (· = "..")

end FilePlace

/-- What stands behind the last name of a path. Anything there asks for a directory. -/
inductive PathEnd where
  | nothing
  | slash
  | point
deriving DecidableEq, Repr

/-- A path as it is spelled: the names on it, the first of which is empty if it starts at the root. -/
structure FilePath where
  names : List String
  ending : PathEnd := .nothing
deriving DecidableEq, Repr

namespace FilePath

/-- How a path with these parts between its slashes ends. -/
def endOf (parts : List (List Char)) : PathEnd :=
  match parts.reverse with
  | [] :: before => if before.find? (!·.isEmpty) = some ['.'] then .point else .slash
  | ['.'] :: _ => .point
  | _ => .nothing

/-- The path that a text spells; no text spells none. -/
def ofString? (s : String) : Option FilePath :=
  match s.toList with
  | [] => none
  | cs =>
    let parts := Text.split '/' cs
    let names := (parts.filter fun part => !part.isEmpty && part ≠ ['.']).map String.ofList
    some ⟨if cs.head? = some '/' then "" :: names else names, endOf parts⟩

/-- The names that lead to the directory around what the path leads to. -/
def parent (path : FilePath) : List String := path.names.dropLast

end FilePath

/-! ### Trees -/

/-- What a path leads to. -/
inductive FileNode where
  | file (octets : List UInt8)
  | directory
deriving DecidableEq, Repr

/-- The files and directories around the working directory, by the places where they stand. -/
structure FileTree where
  nodes : List (FilePlace × FileNode) := []
deriving DecidableEq, Repr

namespace FileTree

/-- What stands at a place, whatever leads to it. -/
def at? (t : FileTree) (place : FilePlace) : Option FileNode :=
  if place.isGiven then some .directory else t.nodes.lookup place

/-- Puts a node at a place, instead of what stands there. -/
def put (t : FileTree) (place : FilePlace) (node : FileNode) : FileTree :=
  ⟨(place, node) :: t.nodes.filter (·.1 ≠ place)⟩

/-- Where `names` lead to from `front`, if there are directories all the way. -/
def enter (t : FileTree) (front : FilePlace) : (names : List String) → Except FileError FilePlace
  | [] => .ok front
  | name :: names =>
    match t.at? (front.follow name) with
    | none => .error .notFound
    | some (.file _) => .error .notDirectory
    | some .directory => t.enter (front.follow name) names

/-- Where names lead to; only what the last one leads to may be missing. -/
def locate (t : FileTree) (names : List String) : Except FileError FilePlace := do
  let front ← t.enter [] names.dropLast
  match names.getLast? with
  | none => return front
  | some name => return front.follow name

/-- What stands at a place, for a path that ends like this. -/
def nodeAt (t : FileTree) (place : FilePlace) (ending : PathEnd) : Except FileError FileNode :=
  match t.at? place, ending with
  | none, _ => .error .notFound
  | some .directory, _ => .ok .directory
  | some (.file octets), .nothing => .ok (.file octets)
  | some (.file _), _ => .error .notDirectory

/-- What a path leads to. -/
def find (t : FileTree) (path : FilePath) : Except FileError FileNode := do
  t.nodeAt (← t.locate path.names) path.ending

/-- Does the path lead to anything? -/
def has (t : FileTree) (path : FilePath) : Bool := (t.find path).isOk

/-- The octets of a file. -/
def read (t : FileTree) (path : FilePath) : Except FileError (List UInt8) := do
  match ← t.find path with
  | .file octets => .ok octets
  | .directory => .error .isDirectory

/-- Where the file stands, or will stand, that can be written at a path. -/
def target (t : FileTree) (path : FilePath) : Except FileError FilePlace := do
  let place ← t.locate path.names
  match t.at? place, path.ending with
  | some .directory, _ => .error .isDirectory
  | some (.file _), .nothing => .ok place
  | some (.file _), .slash => .error .isDirectory
  | some (.file _), .point => .error .notDirectory
  | none, .nothing => .ok place
  | none, .slash => .error .isDirectory
  | none, .point => .error .notFound

/-- Is there room for all of some octets? -/
def Fits (room : Option Nat) (octets : List UInt8) : Prop := ∀ n ∈ room, octets.length ≤ n

instance (room : Option Nat) (octets : List UInt8) : Decidable (Fits room octets) :=
  match room with
  | none => isTrue nofun
  | some n =>
    decidable_of_iff (octets.length ≤ n) ⟨fun h _ hn => Option.some.inj hn ▸ h, fun h => h n rfl⟩

/-- As much of some octets as there is room for. -/
def taken (room : Option Nat) (octets : List UInt8) : List UInt8 :=
  match room with
  | none => octets
  | some n => octets.take n

/-- Writes a file, instead of the one that is there. If there is room for some of the octets only,
those are written all the same. -/
def write (t : FileTree) (path : FilePath) (octets : List UInt8) (room : Option Nat := none) :
    Except FileError Unit × FileTree :=
  match t.target path with
  | .error e => (.error e, t)
  | .ok place =>
    (if Fits room octets then .ok () else .error .noSpace, t.put place (.file (taken room octets)))

/-- Makes the directories that `names` lead to from `front`, as far as they are missing; those that
have been made stay when a file is in the way of the next one. `made` tells whether any has been
made. -/
def makeDirectoriesFrom (t : FileTree) (front : FilePlace) (made : Bool) : (names : List String) →
    Except FileError Unit × FileTree
  | [] => (.ok (), t)
  | name :: names =>
    let next := front.follow name
    match t.at? next with
    | none => makeDirectoriesFrom (t.put next .directory) next true names
    | some (.file _) =>
      -- What is reached behind a new directory is made by itself, and not on the way to the last one.
      (.error (if names.isEmpty || made then .alreadyExists else .notDirectory), t)
    | some .directory => t.makeDirectoriesFrom next made names

/-- Makes a directory and those that lead to it, as far as they are missing. -/
def makeDirectories (t : FileTree) (names : List String) : Except FileError Unit × FileTree :=
  t.makeDirectoriesFrom [] false names

end FileTree
end CodeQuality
