import DecimalConformance.Source

/-! The file system as a program sees it: what it finds under a path. -/
namespace DecimalConformance

/-- What is found under a path. -/
inductive Found where
  | file (contents : ByteArray)
  | directory
  /-- Nothing, and why. -/
  | nothing (reason : String)

/-- A file system: what is found under each path. -/
abbrev Files := String → Found

namespace Found

def noSuchFile : String := "No such file or directory (os error 2)"

def notADirectory : String := "Not a directory (os error 20)"

def isADirectory : String := "Is a directory (os error 21)"

def nameTooLong : String := "File name too long (os error 36)"

def nullByte : String := "file name contained an unexpected NUL byte"

def isSomething : Found → Bool
  | nothing _ => false
  | file _ | directory => true

/-- Opens a source and gives its lines.  A directory opens, but its first line cannot be read. -/
def lines : Found → Except String (List (Except String String))
  | file contents => .ok (Source.lines contents)
  | directory => .ok [.error isADirectory]
  | nothing reason => .error reason

/-- Reads the whole text. -/
def text : Found → Except String String
  | file contents =>
    match String.fromUTF8? contents with
    | some text => .ok text
    | none => .error Source.notText
  | directory => .error isADirectory
  | nothing reason => .error reason

end Found

/-- Where paths start: so many levels above the working directory, or at the root. -/
inductive Base where
  | above (levels : Nat)
  | root
  deriving DecidableEq, Repr

/-- A place in the file system, by the steps that lead down to it. -/
structure Place where
  base : Base
  steps : List String
  deriving DecidableEq, Repr

namespace Place

def workingDirectory : Place := ⟨.above 0, []⟩

def root : Place := ⟨.root, []⟩

/-- The place of the directory around a place; the root lies in itself. -/
def parent (place : Place) : Place :=
  match place.steps, place.base with
  | [], .above levels => ⟨.above (levels + 1), []⟩
  | [], .root => root
  | steps, base => ⟨base, steps.dropLast⟩

def child (place : Place) (step : String) : Place := ⟨place.base, place.steps ++ [step]⟩

/-- Whether a place lies at or below another one. -/
def isWithin (place outer : Place) : Bool :=
  place.base = outer.base && outer.steps.isPrefixOf place.steps

/-- Whether a step of a path stays where it is. -/
def isIdle (step : String) : Bool := step == "" || step == "."

/-- The place of a name below the working directory. -/
def ofName (name : String) : Place := ⟨.above 0, (name.splitOn "/").filter (!isIdle ·)⟩

/-- The place of a name below the root. -/
def ofSystemName (name : String) : Place := { ofName name with base := .root }

end Place

/-- Files and directories at their places.  Of what lies outside of the working directory, the
directories around it are there, whatever they hold. -/
structure FileTree where
  files : List (Place × ByteArray)
  directories : List Place

namespace FileTree

/-- The directories that every system has below its root. -/
def systemDirectories : List String := ["bin", "dev", "etc", "home", "proc", "root", "tmp", "usr", "var"]

/-- The file that is always empty. -/
def nullDevice : String := "dev/null"

/-- Files and directories by their names below the working directory. -/
def ofNames (files : List (String × ByteArray)) (directories : List String) : FileTree :=
  ⟨files.map (fun (name, contents) => (.ofName name, contents)) ++
      [(.ofSystemName nullDevice, .empty)],
    directories.map .ofName ++ systemDirectories.map .ofSystemName⟩

/-- The file at a place. -/
def file? (tree : FileTree) (place : Place) : Option ByteArray := tree.files.lookup place

/-- Whether a place is a directory: a base, one that is listed, or one that something lies in. -/
def isDirectory (tree : FileTree) (place : Place) : Bool :=
  place.steps.isEmpty || tree.directories.any (·.isWithin place) ||
    tree.files.any (fun (file, _) => file.parent.isWithin place)

/-- The bytes that a name may have. -/
def nameMax : Nat := 255

/-- The bytes that a path may not reach. -/
def pathLimit : Nat := 4096

/-- Follows steps from a place; every step starts from a directory. -/
def follow (tree : FileTree) (place : Place) : List String → Except String Place
  | [] => .ok place
  | step :: rest =>
    if tree.isDirectory place then
      if Place.isIdle step then follow tree place rest
      else if step = ".." then follow tree place.parent rest
      else if nameMax < step.utf8ByteSize then .error Found.nameTooLong
      else follow tree (place.child step) rest
    else if (tree.file? place).isSome then .error Found.notADirectory
    else .error Found.noSuchFile

/-- The place that a path leads to, whether or not something is there. -/
def place (tree : FileTree) (path : String) : Except String Place :=
  if path.contains '\x00' then .error Found.nullByte
  else if path.isEmpty then .error Found.noSuchFile
  else if pathLimit ≤ path.utf8ByteSize then .error Found.nameTooLong
  else
    tree.follow (if path.startsWith "/" then .root else .workingDirectory) (path.splitOn "/")

/-- What is found under a path. -/
def find (tree : FileTree) : Files := fun path =>
  match tree.place path with
  | .error reason => .nothing reason
  | .ok place =>
    match tree.file? place with
    | some contents => .file contents
    | none => if tree.isDirectory place then .directory else .nothing Found.noSuchFile

/-- Opens a file to write at its end, and makes it if it is missing; nothing if that fails. -/
def openAtEnd? (tree : FileTree) (path : String) : Option FileTree :=
  match tree.find path with
  | .file _ => some tree
  | .directory => none
  | .nothing _ =>
    match tree.place path with
    | .ok place => some { tree with files := tree.files ++ [(place, .empty)] }
    | .error _ => none

/-- Writes at the end of a file; the null device swallows what is written to it. -/
def append (tree : FileTree) (path : String) (text : String) : FileTree :=
  match tree.place path with
  | .error _ => tree
  | .ok place =>
    if place = .ofSystemName nullDevice then tree
    else
      { tree with files := tree.files.map fun (name, contents) =>
          (name, if name = place then contents ++ text.toUTF8 else contents) }

end FileTree
end DecimalConformance
