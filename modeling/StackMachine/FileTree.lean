import StackMachine.Text.Quoted

/-!
# File trees

A file tree is the part of a file system that a command works on: files with their contents,
directories, and which of these is the working directory.  A path is looked up name by name, from
the root if it starts with a slash and from the working directory if not, and every name but the
last has to lead to a directory.

* `FileTree.read` gives the content of a file, `FileTree.write` makes or replaces one.
* `FileTree.absolutePath` is a path from the root.
* `FileTree.openLog` finds the place of a log file and makes the directories on the way there.
-/

namespace StackMachine

/-- Why a file cannot be used. -/
inductive FileError
  | notFound
  | alreadyExists
  | notADirectory
  | isADirectory
  | nameTooLong
  /-- The path contains a NUL character. -/
  | embeddedNul
  /-- Too many directories on the way are missing. -/
  | tooDeep
  deriving DecidableEq, Repr

namespace FileError

/-- The number that the operating system gives to an error; some paths never get there. -/
def code? : FileError → Option Nat
  | notFound => some 2
  | alreadyExists => some 17
  | notADirectory => some 20
  | isADirectory => some 21
  | nameTooLong => some 36
  | embeddedNul | tooDeep => none

/-- An error in a few words. -/
def describe : FileError → String
  | notFound => "No such file or directory"
  | alreadyExists => "File exists"
  | notADirectory => "Not a directory"
  | isADirectory => "Is a directory"
  | nameTooLong => "File name too long"
  | embeddedNul => "embedded null byte"
  | tooDeep => "too many missing directories"

/-- The complaint about a path. -/
def message (e : FileError) (path : String) : String :=
  match e.code? with
  | some n => "[Errno " ++ toString n ++ "] " ++ e.describe ++ ": " ++ Text.quoteText path
  | none => e.describe

end FileError

/-- A place in a tree: the names that lead to it from the root. -/
abbrev Place := List String

/-- Files and directories. -/
structure FileTree where
  /-- Where paths without a slash at the front start. -/
  workingDirectory : Place
  files : List (Place × List UInt8)
  directories : List Place
  deriving DecidableEq, Repr

namespace FileTree

/-- Whether there is a directory at a place.  Everything on the way to a known file or directory is
one. -/
def isDirectory (t : FileTree) (p : Place) : Bool :=
  p.isPrefixOf t.workingDirectory || t.directories.any (p.isPrefixOf ·) ||
    t.files.any fun f => p.isPrefixOf f.1 && p != f.1

/-- The content of the file at a place. -/
def content? (t : FileTree) (p : Place) : Option (List UInt8) :=
  t.files.lookup p

/-- The most bytes that a name may have. -/
def maxNameLength : Nat := 255

/-- The number of bytes from which a path is too long. -/
def pathLengthLimit : Nat := 4096

/-- Goes from a place to one of the given name in it.  No name, or a single dot, stays there; two
dots lead out of it, and stay at the root. -/
def enter (t : FileTree) (p : Place) (name : String) : Except FileError Place :=
  if !t.isDirectory p then .error .notADirectory
  else if name = "" ∨ name = "." then .ok p
  else if name = ".." then .ok p.dropLast
  else if maxNameLength < name.utf8ByteSize then .error .nameTooLong
  else
    let q := p ++ [name]
    if t.isDirectory q ∨ (t.content? q).isSome then .ok q else .error .notFound

/-- A path that the file system does not look at. -/
def refusedPath? (path : String) : Option FileError :=
  if path.toList.contains '\x00' then some .embeddedNul
  else if path.isEmpty then some .notFound
  else if pathLengthLimit ≤ path.utf8ByteSize then some .nameTooLong
  else none

/-- Where a path starts. -/
def startOf (t : FileTree) (path : String) : Place :=
  if path.toList.head? = some '/' then [] else t.workingDirectory

/-- The place that a path leads to. -/
def locate (t : FileTree) (path : String) : Except FileError Place :=
  match refusedPath? path with
  | some e => .error e
  | none => (path.splitOn "/").foldlM t.enter (t.startOf path)

/-- The content of the file at a path. -/
def read (t : FileTree) (path : String) : Except FileError (List UInt8) := do
  let p ← t.locate path
  match t.content? p with
  | some bytes => return bytes
  | none => throw .isADirectory

/-- Puts a file at a place. -/
def put (t : FileTree) (p : Place) (bytes : List UInt8) : FileTree :=
  { t with files := (p, bytes) :: t.files.filter (·.1 != p) }

/-- Adds bytes at the end of the file at a place, or makes it. -/
def append (t : FileTree) (p : Place) (bytes : List UInt8) : FileTree :=
  t.put p ((t.content? p).getD [] ++ bytes)

/-- The names of a path without those after its last slashes. -/
def properNames (path : String) : List String :=
  ((path.splitOn "/").reverse.dropWhile (· == "")).reverse

/-- The place where a file of the given name is made in a directory. -/
def target (t : FileTree) (p : Place) (name : String) : Except FileError Place :=
  if !t.isDirectory p then .error .notADirectory
  else if name = "" ∨ name = "." ∨ name = ".." then .error .isADirectory
  else if maxNameLength < name.utf8ByteSize then .error .nameTooLong
  else if t.isDirectory (p ++ [name]) then .error .isADirectory
  else .ok (p ++ [name])

/-- The place where the file at a path is made or replaced.  A path that ends in a slash names no
file. -/
def locateTarget (t : FileTree) (path : String) : Except FileError Place :=
  match refusedPath? path with
  | some e => .error e
  | none => do
      let names := properNames path
      let p ← names.dropLast.foldlM t.enter (t.startOf path)
      if path.toList.getLast? = some '/' then
        if t.isDirectory p then throw .isADirectory else throw .notADirectory
      else
        t.target p (names.getLast?.getD "")

/-- Makes or replaces the file at a path. -/
def write (t : FileTree) (path : String) (bytes : List UInt8) : Except FileError FileTree :=
  (t.locateTarget path).map (t.put · bytes)

/-- The files of a tree that another one does not have with the same content. -/
def changedSince (t before : FileTree) : List (Place × List UInt8) :=
  t.files.filter fun f => before.content? f.1 != some f.2

/-! ## Log files -/

/-- The names of a path that count. -/
def significantNames (path : String) : List String :=
  (path.splitOn "/").filter fun name => name != "" && name != "."

/-- The slashes that a path starts with; exactly two are kept apart from one. -/
def leadingSlashes (path : String) : String :=
  match path.toList with
  | '/' :: '/' :: '/' :: _ => "/"
  | '/' :: '/' :: _ => "//"
  | '/' :: _ => "/"
  | _ => ""

/-- A path with the given start and names. -/
def joinPath (slashes : String) (names : List String) : String :=
  if names.isEmpty ∧ slashes.isEmpty then "." else slashes ++ "/".intercalate names

/-- A path without the parts that do not count. -/
def normalPath (path : String) : String :=
  joinPath (leadingSlashes path) (significantNames path)

/-- Adds a name to those before it.  Two dots take back the last of them; at the root there is
nothing to take back. -/
def settle (done : List String) (name : String) : List String :=
  if name = ".." then done.dropLast else done ++ [name]

/-- The names that are left of the names of a path from the root. -/
def settledNames (names : List String) : List String :=
  names.foldl settle []

/-- A path from the root to where a path leads, without names of two dots. -/
def absolutePath (t : FileTree) (path : String) : String :=
  let slashes := leadingSlashes path
  let names := significantNames path
  if slashes.isEmpty then joinPath "/" (settledNames (t.workingDirectory ++ names))
  else joinPath slashes (settledNames names)

/-- Makes a directory of the given name in a directory.  Those on the way to it need no entry of
their own any more. -/
def addDirectory (t : FileTree) (p : Place) (name : String) : Except FileError FileTree :=
  if !t.isDirectory p then .error .notADirectory
  else if name = "" ∨ name = "." ∨ name = ".." then .error .alreadyExists
  else if maxNameLength < name.utf8ByteSize then .error .nameTooLong
  else
    let q := p ++ [name]
    if t.isDirectory q ∨ (t.content? q).isSome then .error .alreadyExists
    else .ok { t with directories := q :: t.directories.filter (!·.isPrefixOf q) }

/-- Makes a directory of the given name in a directory, unless there is one, and gives its place. -/
def ensureChild (t : FileTree) (p : Place) (name : String) : Except FileError (FileTree × Place) :=
  match t.addDirectory p name with
  | .ok t' => .ok (t', p ++ [name])
  | .error e =>
      match t.enter p name with
      | .ok q => if t.isDirectory q then .ok (t, q) else .error e
      | .error _ => .error e

/-- Makes the directory at a path, unless there is one, and gives its place.  Everything before its
last name has to be there. -/
def ensureDirectory (t : FileTree) (path : String) : Except FileError (FileTree × Place) :=
  match refusedPath? path with
  | some e => .error e
  | none => do
      let names := properNames path
      let p ← names.dropLast.foldlM t.enter (t.startOf path)
      match names.getLast? with
      | some name => t.ensureChild p name
      | none => return (t, p)

/-- How many directories before a missing one are looked for. -/
def maxOuterDirectories : Nat := 984

/-- Makes the directory that names lead to, the last name first, and gives its place.  If something
on the way is missing, the directories before it are made, and then it is tried once more.  An error
comes with the path that it is about. -/
def makeDirectories (t : FileTree) (slashes : String) :
    Nat → List String → Except (FileError × String) (FileTree × Place)
  | _, [] =>
      let path := joinPath slashes []
      (t.ensureDirectory path).mapError (·, path)
  | allowed, name :: outer =>
      let path := joinPath slashes (name :: outer).reverse
      match t.ensureDirectory path, allowed with
      | .ok made, _ => .ok made
      | .error .notFound, 0 => .error (.tooDeep, path)
      | .error .notFound, allowed + 1 => do
          let (t', p) ← t.makeDirectories slashes allowed outer
          (t'.ensureChild p name).mapError (·, path)
      | .error e, _ => .error (e, path)

/-- Finds the place of a log file and makes the directories on the way there.  An error comes with
the path that it is about, which for the file itself is the absolute one. -/
def openLog (t : FileTree) (path : String) : Except (FileError × String) (FileTree × Place) := do
  let outer := (significantNames path).dropLast.reverse
  let (t', _) ← t.makeDirectories (leadingSlashes path) maxOuterDirectories outer
  let absolute := t.absolutePath path
  let p ← (t'.locateTarget absolute).mapError (·, absolute)
  return (t', p)

end FileTree

end StackMachine
