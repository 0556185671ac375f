import LoxLex.Text.Basic

/-! A working directory with the files and directories around it.

A place is named from the working directory, from a directory some levels above it,
or from the root, and nothing is there at first but these.  Opening a path walks its
components one by one and stops at the first that cannot be followed.  Making a
path walks in the same way, but makes each directory that it does not find, also
one that later components lead out of again.
-/

namespace LoxLex.Files

/-- The stretches of a path between its slashes. -/
def components (path : Text) : List Text :=
  path.foldr
    (fun c parts =>
      if c = '/' then [] :: parts
      else match parts with
        | [] => [[c]]
        | part :: more => (c :: part) :: more)
    [[]]

inductive Component where
  | here
  | parent
  | name (name : Text)
deriving DecidableEq, Repr

def Component.ofText (text : Text) : Component :=
  if text = [] ∨ text = ['.'] then .here
  else if text = ['.', '.'] then .parent
  else .name text

def parsed (path : Text) : List Component := (components path).map .ofText

def byteLength (text : Text) : Nat := text.foldr (·.utf8Size + ·) 0

/-- A name longer than this many bytes is refused. -/
def longestName : Nat := 255

/-- A path with more bytes than this is refused. -/
def longestPath : Nat := 4095

inductive OpenError where
  | notFound
  | notDirectory
  | isDirectory
  | nameTooLong
  | other (code : Nat) (reason : Text)
deriving DecidableEq, Repr

namespace OpenError

def code : OpenError → Nat
  | notFound => 2
  | notDirectory => 20
  | isDirectory => 21
  | nameTooLong => 36
  | other code _ => code

def reason : OpenError → Text
  | notFound => "No such file or directory".toList
  | notDirectory => "Not a directory".toList
  | isDirectory => "Is a directory".toList
  | nameTooLong => "File name too long".toList
  | other _ reason => reason

def ofCode (code : Nat) (reason : Text) : OpenError :=
  ([notFound, notDirectory, isDirectory, nameTooLong].find? (·.code = code)).getD
    (other code reason)

end OpenError

/-- The directories that are there from the start. -/
inductive Base where
  | above (levels : Nat)
  | root
deriving DecidableEq, Repr

/-- The names that lead from a base to a file or a directory. -/
structure Location where
  base : Base
  names : List Text
deriving DecidableEq, Repr

namespace Location

def working : Location := ⟨.above 0, []⟩

def child (location : Location) (name : Text) : Location :=
  { location with names := location.names ++ [name] }

/-- One level up.  The root is above itself. -/
def parent (location : Location) : Location :=
  if location.names = [] then
    match location.base with
    | .above levels => ⟨.above (levels + 1), []⟩
    | .root => location
  else { location with names := location.names.dropLast }

def start (path : Text) : Location := if path.head? = some '/' then ⟨.root, []⟩ else working

end Location

inductive Entry where
  | directory
  | file (bytes : List UInt8)
deriving DecidableEq, Repr

inductive Place where
  | directory (location : Location)
  | file (bytes : List UInt8)
deriving DecidableEq, Repr

/-- Entries by their locations, the latest first. -/
structure Tree where
  entries : List (Location × Entry) := []

namespace Tree

def entry? (tree : Tree) (location : Location) : Option Entry :=
  if location.names = [] then some .directory else tree.entries.lookup location

def follow (tree : Tree) (place : Place) (component : Component) : Except OpenError Place :=
  match place, component with
  | .file _, _ => .error .notDirectory
  | .directory location, .here => .ok (.directory location)
  | .directory location, .parent => .ok (.directory location.parent)
  | .directory location, .name name =>
    if longestName < byteLength name then .error .nameTooLong
    else match tree.entry? (location.child name) with
      | none => .error .notFound
      | some .directory => .ok (.directory (location.child name))
      | some (.file bytes) => .ok (.file bytes)

def walk (tree : Tree) (place : Place) : List Component → Except OpenError Place
  | [] => .ok place
  | component :: rest =>
    match tree.follow place component with
    | .ok next => tree.walk next rest
    | .error reason => .error reason

def read (tree : Tree) (path : Text) : Except OpenError (List UInt8) :=
  if path = [] then .error .notFound
  else if longestPath < byteLength path then .error .nameTooLong
  else match tree.walk (.directory (.start path)) (parsed path) with
    | .ok (.file bytes) => .ok bytes
    | .ok (.directory _) => .error .isDirectory
    | .error reason => .error reason

def add (tree : Tree) (location : Location) (entry : Entry) : Tree :=
  ⟨(location, entry) :: tree.entries⟩

/-- One step of a walk that makes a directory where it finds nothing. -/
def followMaking (tree : Tree) (place : Place) (component : Component) :
    Except OpenError (Tree × Place) :=
  match tree.follow place component, place, component with
  | .ok next, _, _ => .ok (tree, next)
  | .error .notFound, .directory location, .name name =>
    .ok (tree.add (location.child name) .directory, .directory (location.child name))
  | .error reason, _, _ => .error reason

/-- A walk that makes the directories it does not find. -/
def walkMaking (tree : Tree) (place : Place) : List Component → Except OpenError (Tree × Place)
  | [] => .ok (tree, place)
  | component :: rest =>
    match tree.followMaking place component with
    | .ok (after, next) => after.walkMaking next rest
    | .error reason => .error reason

/-- Makes the directories on a path.  Where the walk cannot go on, nothing is made. -/
def makeDirectory (tree : Tree) (path : Text) : Tree :=
  match tree.walkMaking (.directory (.start path)) (parsed path) with
  | .ok (after, _) => after
  | .error _ => tree

/-- Puts a file where a path leads to, in place of one that is there already.  The
directories on the way to it are made. -/
def write (tree : Tree) (path : Text) (bytes : List UInt8) : Tree :=
  match tree.walkMaking (.directory (.start path)) (parsed path).dropLast,
    (parsed path).getLast? with
  | .ok (after, .directory location), some (.name name) =>
    after.add (location.child name) (.file bytes)
  | _, _ => tree

end Tree

end LoxLex.Files
