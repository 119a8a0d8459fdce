/-!
# Trees of files

Directories and files under one root, found by the names on the way to them.
Paths are texts with slashes between names; they may hold empty names, which mean
nothing, and dots for a directory itself and for the one above it. What stands in
the way of an operation is an error of its own, and the way is walked from the
root, so the first obstacle counts.
-/

namespace Reckon

/-- Why an operation on files fails. -/
inductive FileError where
  | notFound
  | exists
  | notDirectory
  | isDirectory
  | nameTooLong
  | nulCharacter
  deriving DecidableEq, Repr

def FileError.message : FileError → String
  | .notFound => "No such file or directory (os error 2)"
  | .exists => "File exists (os error 17)"
  | .notDirectory => "Not a directory (os error 20)"
  | .isDirectory => "Is a directory (os error 21)"
  | .nameTooLong => "File name too long (os error 36)"
  | .nulCharacter => "file name contained an unexpected NUL byte"

namespace Path

/-- The names on the way that a path describes. -/
def names (path : String) : List String :=
  ((path.toList.splitOn '/').map String.ofList).filter fun name =>
    name != "" && name != "."

/-- Whether a path by its form leads to a directory and to nothing else. -/
def isFolder (path : String) : Bool :=
  match (path.toList.splitOn '/').getLast? with
  | some last => last.isEmpty || last = ['.']
  | none => false

/-- A path below a folder. A path from the root stays as it is. -/
def join (folder path : String) : String :=
  if path.toList.head? = some '/' then path
  else if folder.isEmpty || folder.toList.getLast? = some '/' then folder ++ path
  else folder ++ "/" ++ path

/-- Refuse a path that the system cannot be asked for. -/
def check (path : String) : Except FileError Unit :=
  if path.toList.contains '\x00' then .error .nulCharacter
  else if 4096 ≤ path.utf8ByteSize then .error .nameTooLong
  else .ok ()

/-- The order of names on the way: a folder comes before what is in it, and that
before whatever comes after the folder. -/
def before : List String → List String → Bool
  | [], [] => false
  | [], _ :: _ => true
  | _ :: _, [] => false
  | left :: lefts, right :: rights =>
      if left = right then before lefts rights else decide (left < right)

end Path

/-- What writing files takes of a system that keeps them. -/
structure Disk (m : Type → Type) where
  createDirectories : (path : String) → m (Except FileError Unit)
  writeFile : (path content : String) → m (Except FileError Unit)

/-- What can be found under a name. -/
inductive FileNode where
  | directory
  | file (content : String)
  deriving DecidableEq, Repr

/-- The files and directories below the root, by the names on the way to them and
in the order of these. -/
structure FileTree where
  entries : List (List String × FileNode)

namespace FileTree

def empty : FileTree := ⟨[]⟩

/-- What is at the end of a way; the root is a directory. -/
def find? (tree : FileTree) (names : List String) : Option FileNode :=
  if names.isEmpty then some .directory else tree.entries.lookup names

/-- Put an entry into its place, or in the place of an older one. -/
def insertEntry (names : List String) (node : FileNode) :
    List (List String × FileNode) → List (List String × FileNode)
  | [] => [(names, node)]
  | entry :: entries =>
      if entry.1 = names then (names, node) :: entries
      else if Path.before names entry.1 then (names, node) :: entry :: entries
      else entry :: insertEntry names node entries

/-- The tree with a node at the end of a way. -/
def insert (tree : FileTree) (names : List String) (node : FileNode) : FileTree :=
  ⟨insertEntry names node tree.entries⟩

/-- The number of bytes that a name may have. -/
def nameLimit : Nat := 255

/-- The place that a name leads to from another place, where something may be or
not. -/
def step (tree : FileTree) (place : List String) (name : String) :
    Except FileError (List String) :=
  if tree.find? place ≠ some .directory then .error .notDirectory
  else if name = ".." then .ok place.dropLast
  else if nameLimit < name.utf8ByteSize then .error .nameTooLong
  else .ok (place ++ [name])

/-- The place at the end of a way; something must be there and at every place on
the way. -/
def walk (tree : FileTree) (place : List String) :
    List String → Except FileError (List String)
  | [] => .ok place
  | name :: names =>
      match tree.step place name with
      | .error error => .error error
      | .ok place =>
          if (tree.find? place).isNone then .error .notFound else walk tree place names

/-- The place at the end of a way, where something may be or not. -/
def locate (tree : FileTree) (names : List String) : Except FileError (List String) :=
  match tree.walk [] names.dropLast, names.getLast? with
  | .error error, _ => .error error
  | .ok place, some name => tree.step place name
  | .ok place, none => .ok place

/-- Make one directory; the one that it is in must be there. -/
def makeDirectory (tree : FileTree) (names : List String) : Except FileError FileTree :=
  match tree.locate names with
  | .error error => .error error
  | .ok place =>
      if (tree.find? place).isSome then .error .exists
      else .ok (tree.insert place .directory)

def isDirectory (tree : FileTree) (names : List String) : Bool :=
  match tree.walk [] names with
  | .ok place => tree.find? place == some .directory
  | .error _ => false

/-- A directory that is there already is as good as a new one. -/
def makeDirectoryUnlessThere (tree : FileTree) (names : List String) :
    Except FileError FileTree :=
  match tree.makeDirectory names with
  | .ok tree => .ok tree
  | .error error => if tree.isDirectory names then .ok tree else .error error

/-- Make a directory and those on the way to it. The names come in reverse, so
that the directory above is the rest of the list. Those that were made before a
failure stay. -/
def makeDirectories (tree : FileTree) :
    (reversed : List String) → Except FileError Unit × FileTree
  | [] => (.ok (), tree)
  | name :: above =>
      let names := (name :: above).reverse
      match tree.makeDirectoryUnlessThere names with
      | .ok tree => (.ok (), tree)
      | .error .notFound =>
          match tree.makeDirectories above with
          | (.error error, tree) => (.error error, tree)
          | (.ok (), tree) =>
              match tree.makeDirectoryUnlessThere names with
              | .ok tree => (.ok (), tree)
              | .error error => (.error error, tree)
      | .error error => (.error error, tree)

/-- Make the directory with a path and those on the way to it. -/
def createDirectories (tree : FileTree) (path : String) :
    Except FileError Unit × FileTree :=
  match Path.check path with
  | .error error => (.error error, tree)
  | .ok () => tree.makeDirectories (Path.names path).reverse

/-- Write a file, in the place of an older one if there is one. -/
def writeFile (tree : FileTree) (path content : String) : Except FileError FileTree :=
  match Path.check path with
  | .error error => .error error
  | .ok () =>
      match tree.locate (Path.names path) with
      | .error error => .error error
      | .ok place =>
          if tree.find? place = some .directory then .error .isDirectory
          else .ok (tree.insert place (.file content))

/-- A tree as a system that keeps files. -/
def disk : Disk (StateM FileTree) where
  createDirectories path tree := tree.createDirectories path
  writeFile path content tree :=
    match tree.writeFile path content with
    | .error error => (.error error, tree)
    | .ok tree => (.ok (), tree)

def contents (tree : FileTree) (path : String) : Except FileError String :=
  match Path.check path with
  | .error error => .error error
  | .ok () =>
      match tree.walk [] (Path.names path) with
      | .error error => .error error
      | .ok place =>
          match tree.find? place with
          | none => .error .notFound
          | some .directory => .error .isDirectory
          | some (.file content) =>
              if Path.isFolder path then .error .notDirectory else .ok content

/-- The entries below a place, with their paths from there. -/
def listing (tree : FileTree) (place : List String) : List (String × FileNode) :=
  tree.entries.filterMap fun (names, node) =>
    if place.isPrefixOf names && names.length != place.length then
      some ("/".intercalate (names.drop place.length), node)
    else none

theorem mem_listing_iff {tree : FileTree} {place : List String} {path : String}
    {node : FileNode} :
    (path, node) ∈ tree.listing place ↔
      ∃ names, names ≠ [] ∧ (place ++ names, node) ∈ tree.entries ∧
        "/".intercalate names = path := by
  simp only [listing, List.mem_filterMap]
  constructor
  · rintro ⟨⟨names, found⟩, member, listed⟩
    simp only [Bool.and_eq_true, List.isPrefixOf_iff_prefix, bne_iff_ne, ne_eq,
      Option.ite_none_right_eq_some, Option.some.injEq, Prod.mk.injEq] at listed
    obtain ⟨⟨⟨rest, rfl⟩, longer⟩, rfl, rfl⟩ := listed
    exact ⟨rest, by simpa using longer, member, by simp⟩
  · rintro ⟨rest, nonempty, member, rfl⟩
    exact ⟨_, member, by simp [nonempty]⟩

end FileTree

end Reckon
