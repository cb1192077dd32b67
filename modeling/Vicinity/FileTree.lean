import Vicinity.Fault
import Vicinity.Path

/-!
A tree of folders and files, as far as a path can show it.

A place is the list of names that leads to it from the root. A path is followed name by name, and
every name but the last must lead to a folder. Relative paths start at the root.
-/

namespace Vicinity

/-- What stands at a place. -/
inductive FileTree.Item where
  | folder
  | file (bytes : List UInt8)
deriving DecidableEq, Repr, Inhabited

/-- The items of a tree with their places. The root is there without being listed. -/
structure FileTree where
  items : List (List String × FileTree.Item) := []
deriving Repr, Inhabited

namespace FileTree

def item? (tree : FileTree) (place : List String) : Option Item :=
  if place.isEmpty then some .folder else (tree.items.find? (·.1 == place)).map (·.2)

/-- Put an item at a place, whatever stood there. -/
def put (tree : FileTree) (place : List String) (item : Item) : FileTree :=
  ⟨(place, item) :: tree.items.filter (·.1 != place)⟩

/-- The longest name in a folder, in bytes. -/
def maxName : Nat := 255

/-- The longest path, in bytes. -/
def maxPath : Nat := 4095

/-- The place that names lead to. Nothing need stand there. -/
def follow (tree : FileTree) (place : List String) : List String → Except FileFault (List String)
  | [] => .ok place
  | name :: names =>
    match tree.item? place with
    | none => .error .notFound
    | some (.file _) => .error .notADirectory
    | some .folder =>
      if name = "." then tree.follow place names
      else if name = ".." then tree.follow place.dropLast names
      else if maxName < name.utf8ByteSize then .error .nameTooLong
      else tree.follow (place ++ [name]) names

/-- A path that ends in a separator can only mean a folder. -/
def namesFolder (path : String) : Bool := path.toList.getLast? == some '/'

/-- What is wrong with a path, whatever the tree holds. -/
def pathFault? (path : String) : Option FileFault :=
  if path.contains '\x00' then some .zeroCharacter
  else if path.isEmpty then some .notFound
  else if maxPath < path.utf8ByteSize then some .nameTooLong
  else none

/-- The item at the end of a path. -/
def open? (tree : FileTree) (path : String) : Except FileFault Item :=
  match pathFault? path with
  | some fault => .error fault
  | none =>
    match tree.follow [] (Path.names '/' path ++ if namesFolder path then ["."] else []) with
    | .error fault => .error fault
    | .ok place =>
      match tree.item? place with
      | none => .error .notFound
      | some item => .ok item

/-- Write a file, in place of the one that may be there already. Its folder must be there. -/
def write (tree : FileTree) (path : String) (bytes : List UInt8) : Except FileFault FileTree :=
  match pathFault? path with
  | some fault => .error fault
  | none =>
    match (Path.names '/' path).reverse with
    | [] => .error .isADirectory
    | name :: above =>
      match tree.follow [] (above.reverse ++ ["."]) with
      | .error fault => .error fault
      | .ok folder =>
        let place := folder ++ [name]
        if name ∈ [".", ".."] || namesFolder path then .error .isADirectory
        else if maxName < name.utf8ByteSize then .error .nameTooLong
        else if tree.item? place == some .folder then .error .isADirectory
        else .ok (tree.put place (.file bytes))

end FileTree

end Vicinity
