import Vicinity.FileTree
import Vicinity.Image.Load

/-!
Images in files.
-/

namespace Vicinity.Image

variable {α : Type} [Element α]

/-- Write the image of a graph to a file. -/
def writeFile (g : Graph α) (tree : FileTree) (path : String) : Except Failure FileTree :=
  match tree.write path (write g) with
  | .error fault => .error (.file fault)
  | .ok tree => .ok tree

/-- The graph whose image is in a file. A folder can be opened but has no bytes to read. -/
def loadFile (tree : FileTree) (path : String) : Except LoadFault (Graph α) :=
  match tree.open? path with
  | .error fault => .error (.cannotOpen path fault)
  | .ok .folder => .error (.readFailed .isADirectory)
  | .ok (.file bytes) => load bytes

end Vicinity.Image
