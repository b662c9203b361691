import CodeAtlas.Fault
import CodeAtlas.Files.Location

/-!
# File systems

What is asked of a file system while a fact base is opened, in any monad, and a file system that is
a tree of folders in memory. A tree is seen from its root; above its root, and at the start of
absolute paths, lies an empty folder.

## Main definitions

* `FileSystem`: the questions.
* `FileTree`: folders in memory, with `FileTree.ofList`.
* `FileTree.system`: their answers.
-/
namespace CodeAtlas

/-- A file system, by what it can be asked. -/
structure FileSystem (m : Type → Type) where
  /-- The text of the file at a path. -/
  read : String → m (Except FileFlaw String)
  /-- The files at any depth below a folder, each by the names on the way to it; none if there is no
  folder at the path. Folders are looked at in the order of their names, and the first one that
  cannot be read is reported. -/
  below : String → m (Option (Except FileFlaw (List (List String))))

/-- A file or a folder. The entries of a folder are in the order of their names. -/
inductive FileTree where
  | file (content : ByteArray)
  | folder (entries : List (String × FileTree))

namespace FileTree

/-- Nothing but a file at the end of a way. -/
def spine (leaf : FileTree) : List String → FileTree
  | [] => leaf
  | name :: names => folder [(name, spine leaf names)]

mutual

/-- A tree with a file or a folder added at the end of a way. What is there already stays, but a
file is replaced. -/
def insert (leaf : FileTree) (names : List String) : FileTree → FileTree
  | file _ => spine leaf names
  | folder entries =>
    match names with
    | [] => folder entries
    | name :: names => folder (insertEntry leaf name names entries)

/-- The entries of a folder with a file or a folder added at the end of a way. -/
def insertEntry (leaf : FileTree) (name : String) (names : List String) :
    List (String × FileTree) → List (String × FileTree)
  | [] => [(name, spine leaf names)]
  | (found, t) :: rest =>
    match compare name found with
    | .lt => (name, spine leaf names) :: (found, t) :: rest
    | .eq => (found, insert leaf names t) :: rest
    | .gt => (found, t) :: insertEntry leaf name names rest

end

/-- The tree of a list of paths. A path without content is that of a folder. -/
def ofList (paths : List (String × Option ByteArray)) : FileTree :=
  paths.foldl (fun t (path, content) =>
    insert (content.elim (folder []) file) ((Location.segments path).filter (· ≠ "")) t)
    (folder [])

/-- What stands at the end of a way from a folder. The folders above it are given from the innermost
outwards. -/
def walk (above : List FileTree) (here : FileTree) : List String → Except FileFlaw FileTree
  | [] => .ok here
  | name :: names =>
    match here with
    | file _ => .error .notDirectory
    | folder entries =>
      if name = "" || name = "." then walk above here names
      else if name = ".." then walk above.tail (above.head?.getD (folder [])) names
      else
        match entries.lookup name with
        | some t => walk (here :: above) t names
        | none =>
          .error (if Location.nameLimit < name.utf8ByteSize then .nameTooLong else .notFound)

/-- What stands at a path. -/
def find (t : FileTree) (path : String) : Except FileFlaw FileTree :=
  if path = "" then .error .notFound
  else if '\x00' ∈ path.toList then .error .nulInPath
  else if Location.pathLimit < path.utf8ByteSize then .error .nameTooLong
  else walk [] (if Location.isAbsolute path then folder [] else t) (Location.segments path)

/-- The text of a file. -/
def text : FileTree → Except FileFlaw String
  | folder _ => .error .isDirectory
  | file content =>
    match String.fromUTF8? content with
    | some s => .ok s
    | none => .error .notText

mutual

/-- The files of the tree at a path, by the names on the way to them. A folder whose path is too
long cannot be read. -/
def files (path : String) : FileTree → Except FileFlaw (List (List String))
  | file _ => .ok [[]]
  | folder entries =>
    if Location.pathLimit < path.utf8ByteSize then .error (.inFolder path .nameTooLong)
    else entryFiles path entries

/-- The files of entries of the folder at a path. -/
def entryFiles (path : String) : List (String × FileTree) → Except FileFlaw (List (List String))
  | [] => .ok []
  | (name, t) :: rest => do
    let first ← t.files (Location.join path name)
    let others ← entryFiles path rest
    return first.map (name :: ·) ++ others

end

/-- The files below the folder at a path; none for a file. -/
def filesBelow (path : String) : FileTree → Option (Except FileFlaw (List (List String)))
  | file _ => none
  | t => some (t.files path)

/-- A tree as a file system. -/
def system (t : FileTree) : FileSystem Id where
  read path := (t.find path).bind text
  below path := (t.find path).toOption.bind (filesBelow path)

end FileTree
end CodeAtlas
