import Motion.FileSystem.Basic
import Motion.FileSystem.Path
import Motion.Table

/-! A tree of files in memory. A path through a file or a missing name fails at that name. -/
namespace Motion.FileSystem

/-- A file with its text, or a directory with what it holds by name. -/
inductive Node where
  | file (text : String)
  | directory (entries : List (String × Node))

/-- The longest path, in bytes. -/
def maxPathSize : Nat := 4095

/-- The longest name, in bytes. -/
def maxNameSize : Nat := 255

def checkName (name : String) : Except Error Unit :=
  if maxNameSize < name.utf8ByteSize then .error .nameTooLong else .ok ()

/-- Whether a name is another word for a directory on the way. -/
def isRelative (name : String) : Bool := name = "." || name = ".."

/-- A node of a tree and the directories above it, innermost first. Each of them comes with the name
that leads down from it. -/
structure Spot where
  node : Node
  above : List (String × Table Node)

namespace Spot

def entries (s : Spot) : Except Error (Table Node) :=
  match s.node with
  | .file _ => .error .notDirectory
  | .directory es => .ok es

def up (s : Spot) : Spot :=
  match s.above with
  -- above the root is the root
  | [] => s
  | (_, es) :: above => ⟨.directory es, above⟩

def step (s : Spot) (name : String) : Except Error Spot := do
  let es ← s.entries
  if name = "." then return s
  else if name = ".." then return s.up
  else
    checkName name
    match Table.get? name es with
    | some node => return ⟨node, (name, es) :: s.above⟩
    | none => .error .notFound

def replace (s : Spot) (node : Node) : Node :=
  s.above.foldl (fun inner (name, es) => .directory (Table.insert name inner es)) node

end Spot

/-- The root and the names that lead from it to the working directory, outermost first. -/
structure Tree where
  root : Node
  workingDirectory : List String

namespace Tree

def followNames (t : Tree) (path : String) (names : List String) : Except Error Spot := do
  if path = "" then .error .notFound
  else if maxPathSize < path.utf8ByteSize then .error .nameTooLong
  else
    let lead := if Path.isAbsolute path then [] else t.workingDirectory
    (lead ++ names).foldlM Spot.step ⟨t.root, []⟩

def follow (t : Tree) (path : String) : Except Error Spot := t.followNames path (Path.names path)

/-- Where the last name of a path belongs, and that name. A path without names ends in itself. -/
def followToLast (t : Tree) (path : String) : Except Error (Spot × String) := do
  let names := Path.names path
  return (← t.followNames path names.dropLast, names.getLast?.getD ".")

def read (t : Tree) (path : String) : Except Error String := do
  match (← t.follow path).node with
  -- a slash behind a name asks for a directory
  | .file text => if Path.endsInSlash path then .error .notDirectory else return text
  | .directory _ => .error .isDirectory

def isDirectory (t : Tree) (path : String) : Bool :=
  match t.follow path with
  | .ok ⟨.directory _, _⟩ => true
  | _ => false

def makeDirectory (t : Tree) (path : String) : Except Error Tree := do
  let (s, name) ← t.followToLast path
  let es ← s.entries
  if isRelative name then .error .occupied
  else
    checkName name
    if Table.contains name es then .error .occupied
    else return { t with root := s.replace (.directory (Table.insert name (.directory []) es)) }

/-- A tree with a text in a file, which may be new. -/
def write (t : Tree) (path text : String) : Except Error Tree := do
  let (s, name) ← t.followToLast path
  let es ← s.entries
  if isRelative name || Path.endsInSlash path then .error .isDirectory
  else
    checkName name
    match Table.get? name es with
    | some (.directory _) => .error .isDirectory
    | _ => return { t with root := s.replace (.directory (Table.insert name (.file text) es)) }

def change (f : Tree → Except Error Tree) : StateM Tree (Except Error Unit) := fun t =>
  match f t with
  | .ok t => (.ok (), t)
  | .error e => (.error e, t)

end Tree

def inMemory : FileSystem (StateM Tree) where
  read path := return (← get).read path
  isDirectory path := return (← get).isDirectory path
  makeDirectory path := Tree.change (·.makeDirectory path)
  write path text := Tree.change (·.write path text)

namespace Tree

/-- A working directory without files, below the directory for temporary ones. -/
def empty : Tree where
  root := .directory [("tmp", .directory [("work", .directory [])])]
  workingDirectory := ["tmp", "work"]

/-- The tree that holds these files, in the directories that their paths lead through. -/
def ofFiles (files : Table String) : Tree :=
  let store : StateM Tree Unit := files.forM fun (path, text) => do
    let _ ← inMemory.makeDirectories (Path.directories path)
    let _ ← inMemory.write path text
  (store.run empty).2

end Tree

end Motion.FileSystem
