import HotkeyScript.Script

/-!
# `HotkeyScript.FileTree`: files and directories as a value

A file tree says which files and directories there are under a working
directory. It answers a read as a file system does, so what a load
does can be told without one.

* `FileTree.addDirectory`, `FileTree.addFile`: build a tree.
* `FileTree.read`: follows a path name by name from the working
  directory. A name is looked up before the next one is, so `..` does
  not undo a name that is not there.

What lies outside the working directory is not known. It is taken for
directories that hold nothing else.
-/

set_option autoImplicit false

namespace HotkeyScript

/-- The files and directories under a working directory. -/
structure FileTree where
  /-- The directories, each as the names that lead to it. -/
  directories : List (List String)
  /-- The files, each as the names that lead to it and its bytes. -/
  files : List (List String × ByteArray)

namespace FileTree

/-- The tree of an empty working directory. -/
def empty : FileTree := ⟨[], []⟩

instance : EmptyCollection FileTree := ⟨empty⟩

/-- The names of a path. -/
def names (path : String) : List String :=
  (path.toList.splitOn '/').map String.ofList

/-- The names of a path that lead further down. -/
def ownNames (path : String) : List String :=
  (names path).filter fun name => name != "" && name != "."

/-- The tree with one more directory and the directories above it. -/
def addDirectory (tree : FileTree) (path : String) : FileTree :=
  { tree with directories := ownNames path :: tree.directories }

/-- The tree with one more file and the directories above it. -/
def addFile (tree : FileTree) (path : String) (bytes : ByteArray) :
    FileTree :=
  { tree with files := (ownNames path, bytes) :: tree.files }

/-- Whether some names lead to a directory: those of a directory, and
every part of a longer path in the tree. -/
def isDirectory (tree : FileTree) (path : List String) : Bool :=
  tree.directories.any path.isPrefixOf
    || tree.files.any fun file => path.isPrefixOf file.1 && path != file.1

/-- Where a path has led so far. -/
inductive Place where
  /-- A directory, by the names from the working directory. -/
  | directory (path : List String)
  /-- A directory outside the working directory. -/
  | outside
  /-- A file. -/
  | file (bytes : ByteArray)

/-- The most bytes that a name may have. -/
def nameLimit : Nat := 255

/-- One byte more than a path may have. -/
def pathLimit : Nat := 4096

/-- What a name leads to from a place. -/
def follow (tree : FileTree) :
    Place → String → Except ReadFailure Place
  | .file _, _ => .error .notDirectory
  | .outside, name =>
    if name = "" ∨ name = "." ∨ name = ".." then .ok .outside
    else if nameLimit < name.utf8ByteSize then .error .nameTooLong
    else .error .notFound
  | .directory path, name =>
    if name = "" ∨ name = "." then .ok (.directory path)
    else if name = ".." then
      if path.isEmpty then .ok .outside
      else .ok (.directory path.dropLast)
    else if nameLimit < name.utf8ByteSize then .error .nameTooLong
    else
      -- A file written last stands first, and a file hides a directory
      -- of the same name.
      let path := path ++ [name]
      match tree.files.lookup path with
      | some bytes => .ok (.file bytes)
      | none =>
        if tree.isDirectory path then .ok (.directory path)
        else .error .notFound

/-- Where a path leads. -/
def resolve (tree : FileTree) (path : String) :
    Except ReadFailure Place :=
  if path.toList.contains '\x00' then .error .nulInName
  else if path.isEmpty then .error .notFound
  else if pathLimit ≤ path.utf8ByteSize then .error .nameTooLong
  else
    let start : Place :=
      if path.toList.head? = some '/' then .outside else .directory []
    (names path).foldlM tree.follow start

/-- The bytes of the file at a path. -/
def read (tree : FileTree) (path : String) :
    Except ReadFailure ByteArray := do
  match ← tree.resolve path with
  | .file bytes => .ok bytes
  | .directory _ | .outside => .error .isDirectory

end FileTree

end HotkeyScript
