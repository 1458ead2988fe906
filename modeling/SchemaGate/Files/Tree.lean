import SchemaGate.Files.Path
import SchemaGate.NameMap
import SchemaGate.Text.Utf8

/-!
# File trees

A file tree holds files and directories in order of name, and the place of the working directory.
Paths are followed name by name from there, or from the root if they begin with a slash: two dots
lead to the directory above, and whatever is followed by a slash must be a directory. The main
statement is `FileNode.at?_put`: what is written at a place is found there.
-/

namespace SchemaGate

/-- Why a path cannot be read or written. -/
inductive FileError where
  | notFound
  | notDirectory
  | isDirectory
  | notText
  deriving DecidableEq, Repr

/-- The error in words. -/
def FileError.message : FileError → String
  | notFound => "No such file or directory (os error 2)"
  | notDirectory => "Not a directory (os error 20)"
  | isDirectory => "Is a directory (os error 21)"
  | notText => "stream did not contain valid UTF-8"

/-- A file with its bytes, or a directory with its entries in order of name. -/
inductive FileNode where
  | file (content : List UInt8)
  | directory (entries : List (String × FileNode))
  deriving Inhabited

namespace FileNode

/-- Whether a node is a directory. -/
def isDirectory : FileNode → Bool
  | directory _ => true
  | file _ => false

/-- The entry of a name in a directory. -/
def entry? (node : FileNode) (name : String) : Option FileNode :=
  match node with
  | directory entries => entries.lookup name
  | file _ => none

/-- The node at a place below a node, given by the names that lead there. -/
def at? (node : FileNode) : List String → Option FileNode
  | [] => some node
  | name :: names =>
      match node.entry? name with
      | some next => next.at? names
      | none => none

/-- The entries of a node, none if it is a file. -/
def entries : FileNode → List (String × FileNode)
  | directory entries => entries
  | file _ => []

/-- A node with another node put at a place below it. Directories on the way there are made. -/
def put (node : FileNode) : List String → FileNode → FileNode
  | [], new => new
  | name :: names, new =>
      let next := ((node.entry? name).getD (directory [])).put names new
      directory (NameMap.insertEntry name next node.entries)

mutual

/-- The files of a node that goes by a path, with their paths: depth first, in order of name. -/
def files (path : String) : FileNode → List (String × List UInt8)
  | file content => [(path, content)]
  | directory entries => filesOfEntries path entries

/-- The files of several entries of a directory. -/
def filesOfEntries (path : String) : List (String × FileNode) → List (String × List UInt8)
  | [] => []
  | (name, node) :: entries => node.files (Path.join path name) ++ filesOfEntries path entries

end

/-- An entry that was inserted is found. -/
theorem lookup_insertEntry (name : String) (node : FileNode) (entries : List (String × FileNode)) :
    (NameMap.insertEntry name node entries).lookup name = some node := by
  induction entries with
  | nil => simp [NameMap.insertEntry]
  | cons first rest ih =>
      unfold NameMap.insertEntry
      split
      · simp
      · split
        · simp
        · rename_i hne
          rw [List.lookup_cons, show (name == first.1) = false by simpa using hne]
          exact ih

/-- What is put at a place is found there. -/
theorem at?_put (node : FileNode) (place : List String) (new : FileNode) :
    (node.put place new).at? place = some new := by
  induction place generalizing node with
  | nil => rfl
  | cons name names ih => simp [put, at?, entry?, lookup_insertEntry, ih]

end FileNode

/-- Files and directories, and the place from which paths are followed. -/
structure FileTree where
  root : FileNode := .directory []
  here : List String := []
  deriving Inhabited

namespace FileTree

/-- The tree of a working directory that no path leads to from outside, since it has no name. -/
def ofWorkingDirectory (node : FileNode) : FileTree :=
  ⟨.directory [("", node)], [""]⟩

/-- The names that a path asks to be followed. A slash at the end asks for a directory, as a single
dot does. -/
def steps (path : String) : List String :=
  Text.segments '/' path ++ if Text.endsWith ['/'] path.toList then ["."] else []

/-- The place from which a path is followed. -/
def start (tree : FileTree) (path : String) : List String :=
  if Text.startsWith ['/'] path.toList then [] else tree.here

/-- Follows names from a place. The root is the directory above itself. -/
def follow (tree : FileTree) (place : List String) : List String → Except FileError (List String)
  | [] => .ok place
  | name :: names =>
      match tree.root.at? place with
      | none => .error .notFound
      | some (.file _) => .error .notDirectory
      | some (.directory entries) =>
          if name = "." then tree.follow place names
          else if name = ".." then tree.follow place.dropLast names
          else if (entries.lookup name).isSome then tree.follow (place ++ [name]) names
          else .error .notFound

/-- The place of a path. Nothing goes by the empty path. -/
def place (tree : FileTree) (path : String) : Except FileError (List String) :=
  if path.isEmpty then .error .notFound else tree.follow (tree.start path) (steps path)

/-- What goes by a path. -/
def node (tree : FileTree) (path : String) : Except FileError FileNode := do
  let place ← tree.place path
  match tree.root.at? place with
  | some node => pure node
  | none => .error .notFound

/-- Whether something goes by a path. -/
def exists? (tree : FileTree) (path : String) : Bool :=
  match tree.node path with
  | .ok _ => true
  | .error _ => false

/-- Whether a directory goes by a path. -/
def isDirectory (tree : FileTree) (path : String) : Bool :=
  match tree.node path with
  | .ok node => node.isDirectory
  | .error _ => false

/-- The bytes of a file. -/
def read (tree : FileTree) (path : String) : Except FileError (List UInt8) := do
  match ← tree.node path with
  | .file content => pure content
  | .directory _ => .error .isDirectory

/-- The text of a file. -/
def readText (tree : FileTree) (path : String) : Except FileError String := do
  let content ← tree.read path
  match Text.Utf8.decode? content with
  | some text => pure text
  | none => .error .notText

/-- The place at which a file of a path is written. Its directory must be there, and the last name
must be able to name a file. -/
def placeToWrite (tree : FileTree) (path : String) : Except FileError (List String) :=
  if path.isEmpty then .error .notFound
  else do
    let names := Text.segments '/' path
    let directory ← tree.follow (tree.start path) (names.dropLast ++ ["."])
    if Text.endsWith ['/'] path.toList then .error .isDirectory
    else
      match names.getLast?.filter fun name => name ≠ "." ∧ name ≠ ".." with
      | some name => pure (directory ++ [name])
      | none => .error .isDirectory

/-- The tree with a file written, over one that is there. -/
def write (tree : FileTree) (path : String) (content : List UInt8) : Except FileError FileTree := do
  let place ← tree.placeToWrite path
  match tree.root.at? place with
  | some (.directory _) => .error .isDirectory
  | _ => pure { tree with root := tree.root.put place (.file content) }

/-- The tree with a text written. -/
def writeText (tree : FileTree) (path text : String) : Except FileError FileTree :=
  tree.write path (Text.Utf8.encode text.toList)

/-- The files below a path with their paths. -/
def filesBelow (tree : FileTree) (path : String) : List (String × List UInt8) :=
  match tree.node path with
  | .ok node => node.files path
  | .error _ => []

/-- The names of the directories in the directory of a path, in order. -/
def directoriesIn (tree : FileTree) (path : String) : List String :=
  match tree.node path with
  | .ok node => (node.entries.filter fun entry => entry.2.isDirectory).map (·.1)
  | .error _ => []

end FileTree

end SchemaGate
