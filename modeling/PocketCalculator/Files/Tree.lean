import PocketCalculator.Files.Path

/-! # Files: a tree of folders and files

A tree says what stands at each place below its root, a place being a list of names. Names lead to
a place step by step; every step has to start in a folder, and two dots step up. Names and paths
have the limits of a common file system.

* `FileTree.resolve`: the place that names lead to, or why they lead to none.
* `FileTree.read?`: the content of a file, if there is one where a path leads.
* `FileTree.makeFolders`: a folder is made, with the folders above it where they are missing.
* `FileTree.write`: a file is written, in a folder made as needed. -/

namespace PocketCalculator

/-- What stands at a place. -/
inductive FileNode where
  | file (content : ByteArray)
  | folder

/-- Why a file cannot be read or written. -/
inductive FileFault where
  /-- A folder stands where a file is wanted. -/
  | isFolder
  /-- A file stands where a folder is wanted. -/
  | isFile
  /-- A path leads on below a file. -/
  | notAFolder
  /-- Nothing stands where a path leads on. -/
  | notFound
  /-- A name, or the whole path, is too long. -/
  | tooLong
  /-- A name holds the null character, which no file system admits. -/
  | nullCharacter
  deriving DecidableEq, Repr

/-- The wording of a fault. -/
def FileFault.message : FileFault → String
  | isFolder => "a folder stands where a file is wanted"
  | isFile => "a file stands where a folder is wanted"
  | notAFolder => "the path leads on below a file"
  | notFound => "nothing stands where the path leads on"
  | tooLong => "the path or a name in it is too long"
  | nullCharacter => "embedded null byte"

/-- A name has at most this many bytes. -/
def nameLimit : Nat := 255

/-- A path has at most this many bytes. -/
def pathLimit : Nat := 4095

/-- The bytes of names with a slash in front of each. -/
def pathSize (names : List String) : Nat :=
  names.foldr (fun name size => name.utf8ByteSize + 1 + size) 0

/-- What stands at the places below a root; the root is a folder. -/
structure FileTree where
  nodes : List (List String × FileNode)

namespace FileTree

/-- A tree with nothing below its root. -/
def empty : FileTree := ⟨[]⟩

/-- What stands at a place. -/
def at? (t : FileTree) (place : List String) : Option FileNode :=
  if place = [] then some .folder else t.nodes.lookup place

/-- The tree with something put at a place. -/
def put (t : FileTree) (place : List String) (node : FileNode) : FileTree :=
  ⟨(place, node) :: t.nodes.filter (·.1 ≠ place)⟩

/-- The place that names lead to from a place. -/
def locate (t : FileTree) (place : List String) : List String → Except FileFault (List String)
  | [] => .ok place
  | name :: names =>
    match t.at? place with
    | some .folder =>
      if name = ".." then t.locate place.dropLast names
      else if nameLimit < name.utf8ByteSize then .error .tooLong
      else t.locate (place ++ [name]) names
    | some (.file _) => .error .notAFolder
    | none => .error .notFound

/-- The place that names lead to from the root, after what can be said of the names alone. -/
def resolve (t : FileTree) (names : List String) : Except FileFault (List String) :=
  if names.any fun name => name.toList.contains '\x00' then .error .nullCharacter
  else if pathLimit < pathSize names then .error .tooLong
  else t.locate [] names

/-- The content of the file that a path leads to; nothing where nothing stands, and nothing where a
path leads nowhere. -/
def read? (t : FileTree) (path : Path) : Except FileFault (Option ByteArray) :=
  match t.resolve path.names with
  | .ok place =>
    match t.at? place with
    | some (.file content) => .ok (some content)
    | some .folder => .error .isFolder
    | none => .ok none
  | .error .tooLong => .error .tooLong
  | .error _ => .ok none

/-- A folder is made where names lead, unless it stands there already. The folder above it has to
stand. -/
def makeFolder (t : FileTree) (names : List String) : Except FileFault FileTree :=
  match t.resolve names with
  | .error fault => .error fault
  | .ok place =>
    match t.at? place with
    | some .folder => .ok t
    | some (.file _) => .error .isFile
    | none => .ok (t.put place .folder)

/-- A folder is made where names lead, the last name being given first. Where something is missing
on the way, the folder above is made before; it stays if the folder itself cannot be made. -/
def makeFoldersUp (t : FileTree) : List String → FileTree × Except FileFault Unit
  | [] => (t, .ok ())
  | name :: above =>
    match t.makeFolder (name :: above).reverse with
    | .ok made => (made, .ok ())
    | .error .notFound =>
      match t.makeFoldersUp above with
      | (t, .error fault) => (t, .error fault)
      | (t, .ok ()) =>
        match t.makeFolder (name :: above).reverse with
        | .ok made => (made, .ok ())
        | .error fault => (t, .error fault)
    | .error fault => (t, .error fault)

/-- A folder is made where a path leads, with the folders above it where they are missing. -/
def makeFolders (t : FileTree) (path : Path) : FileTree × Except FileFault Unit :=
  t.makeFoldersUp path.names.reverse

/-- A file is written where a path leads, in a folder made as needed. -/
def write (t : FileTree) (path : Path) (content : ByteArray) : FileTree × Except FileFault Unit :=
  match t.makeFolders path.parent with
  | (t, .error fault) => (t, .error fault)
  | (t, .ok ()) =>
    match t.resolve path.names with
    | .error fault => (t, .error fault)
    | .ok place =>
      match t.at? place with
      | some .folder => (t, .error .isFolder)
      | _ => (t.put place (.file content), .ok ())

end FileTree

end PocketCalculator
