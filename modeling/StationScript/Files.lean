import StationScript.Text.Split

namespace StationScript

inductive FileError
  | notFound
  | notDirectory
  | isDirectory
  | nameTooLong
  -- The file's bytes are no text.
  | notText
  | nulInPath
  -- Another reason, in the words of the file system.
  | other (text : String)
  deriving DecidableEq, Repr

def FileError.message : FileError → String
  | notFound => "No such file or directory (os error 2)"
  | notDirectory => "Not a directory (os error 20)"
  | isDirectory => "Is a directory (os error 21)"
  | nameTooLong => "File name too long (os error 36)"
  | notText => "stream did not contain valid UTF-8"
  | nulInPath => "file name contained an unexpected NUL byte"
  | other text => text

inductive Entry
  | text (s : String)
  -- A file whose bytes are no text.
  | binary
  | directory
  deriving DecidableEq, Repr

def Entry.ofBytes (bytes : List UInt8) : Entry :=
  match String.fromUTF8? (ByteArray.mk bytes.toArray) with
  | some s => text s
  | none => binary

-- Where something is: the names on the way from the root.
abbrev Location :=
  List String

namespace Path

def parts (path : String) : List String :=
  (Text.split '/' path.toList).map String.ofList

def isAbsolute (path : String) : Bool :=
  path.toList.head? == some '/'

-- The path without the slashes at its end, unless there is nothing else.
def withoutSlashes (path : String) : String :=
  match (path.toList.reverse.dropWhile (· == '/')).reverse with
  | [] => String.ofList (path.toList.take 1)
  | cs => String.ofList cs

-- The part after the last dot of the last name on a path. A name that starts with its only dot has none.
def extension? (path : String) : Option String := do
  let name ← ((parts path).filter fun p => p != "" && p != ".").getLast?
  if name = ".." then none
  let pieces := Text.split '.' name.toList
  match pieces.reverse with
  | last :: before =>
    if before.isEmpty ∨ before = [[]] then none else some (String.ofList last)
  | [] => none

end Path

-- The files and directories from the root on. A directory that holds something, or in which the working directory
-- is, need not be listed itself.
structure Files where
  entries : List (Location × Entry) := []
  -- The working directory, from which relative paths start.
  here : Location := []
  deriving DecidableEq, Repr

namespace Files

-- Files by their paths from a working directory.
def ofList (here : Location) (l : List (String × Entry)) : Files where
  entries := l.map fun (path, entry) => (here ++ Path.parts path, entry)
  here

def entry? (f : Files) (l : Location) : Option Entry :=
  match f.entries.lookup l with
  | some e => some e
  | none =>
    if l.isPrefixOf f.here ∨ f.entries.any (fun e => l.isPrefixOf e.1) then some .directory else none

-- The greatest number of bytes of a name.
def nameMax : Nat :=
  255

-- Too many bytes for a path.
def pathMax : Nat :=
  4096

-- Follows a path from a directory. All names but the last must lead to directories; the last one need not
-- exist. Above the root is the root.
def follow (f : Files) (here : Location) : List String → Except FileError Location
  | [] => .ok here
  | name :: rest =>
    if name = "" ∨ name = "." then follow f here rest
    else if name = ".." then follow f here.dropLast rest
    else if nameMax < name.utf8ByteSize then .error .nameTooLong
    else if rest.isEmpty then .ok (here ++ [name])
    else
      match f.entry? (here ++ [name]) with
      | some .directory => follow f (here ++ [name]) rest
      | some _ => .error .notDirectory
      | none => .error .notFound

def locate (f : Files) (path : String) : Except FileError Location :=
  if path.toList.contains '\x00' then .error .nulInPath
  else if path = "" then .error .notFound
  else if pathMax ≤ path.utf8ByteSize then .error .nameTooLong
  else f.follow (if Path.isAbsolute path then [] else f.here) (Path.parts path)

def read (f : Files) (path : String) : Except FileError String := do
  match f.entry? (← f.locate path) with
  | some (.text s) => .ok s
  | some .binary => .error .notText
  | some .directory => .error .isDirectory
  | none => .error .notFound

def contains (f : Files) (path : String) : Bool :=
  match f.locate path with
  | .ok l => (f.entry? l).isSome
  | .error _ => false

-- Writes a text to a path, in place of what was there. A slash behind the last name asks for a directory, which takes
-- no text.
def write (f : Files) (path text : String) : Except FileError Files := do
  let l ← f.locate (Path.withoutSlashes path)
  if Path.withoutSlashes path ≠ path then .error .isDirectory
  else
    match f.entry? l with
    | some .directory => .error .isDirectory
    | _ => .ok { f with entries := (l, .text text) :: f.entries.filter (·.1 ≠ l) }

end Files

-- What can be learnt about files: what reading one gives, and whether there is something at a path.
structure Access where
  read : String → Except FileError String
  contains : String → Bool

def Files.access (f : Files) : Access :=
  ⟨f.read, f.contains⟩

end StationScript
