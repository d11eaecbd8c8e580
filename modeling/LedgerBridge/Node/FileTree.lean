import LedgerBridge.Node.Host

/-! A machine that is nothing but its files. A path is followed name by name: each name is looked up
in the directory that the names before it lead to. -/
namespace LedgerBridge

namespace FileTree

inductive Entry
  | file (text : String)
  | directory
  deriving DecidableEq, Repr

/-- The names that lead from the root to an entry. -/
abbrev Place := List String

end FileTree

open FileTree in
/-- Entries by place. Of two at one place the first counts. -/
structure FileTree where
  entries : List (Place × Entry)
  /-- Where a path begins that does not begin at the root. -/
  here : Place

namespace FileTree

def longestName : Nat := 255

def longestPath : Nat := 4095

def put (t : FileTree) (place : Place) (e : Entry) : FileTree :=
  { t with entries := (place, e) :: t.entries }

/-- The directories that every machine has at its root, one to work in, and an empty file. -/
def standard : FileTree where
  entries :=
    (["home", "node"], .directory) :: (["dev", "null"], .file "") ::
      ["bin", "boot", "dev", "etc", "home", "lib", "media", "mnt", "opt", "proc", "root", "run",
        "sbin", "srv", "sys", "tmp", "usr", "var"].map fun name => ([name], .directory)
  here := ["home", "node"]

def entry? (t : FileTree) (place : Place) : Option Entry :=
  if place = [] then some .directory else t.entries.lookup place

/-- Where a name leads from a place. The root is its own parent. -/
def enter (t : FileTree) (place : Place) (name : String) : Except FileError Place :=
  if t.entry? place ≠ some .directory then .error .notDirectory
  else if name = "" || name = "." then .ok place
  else if name = ".." then .ok place.dropLast
  else if longestName < name.utf8ByteSize then .error .nameTooLong
  else if t.entry? (place ++ [name]) = none then .error .missing
  else .ok (place ++ [name])

/-- Follows names that stand on a path. -/
def follow (t : FileTree) (path : String) (names : List String) : Except FileError Place :=
  if path.toList.contains '\x00' then .error .zeroInPath
  else if path = "" then .error .missing
  else if longestPath < path.utf8ByteSize then .error .nameTooLong
  else names.foldlM t.enter (if Path.isAbsolute path then [] else t.here)

/-- The place that a path leads to. After a slash at its end stands the empty name, so that it leads
to a directory or nowhere. -/
def locate (t : FileTree) (path : String) : Except FileError Place :=
  t.follow path (path.splitOn "/")

def read (t : FileTree) (path : String) : Except FileError String := do
  match t.entry? (← t.locate path) with
  | some (.file text) => return text
  | some .directory => throw .isDirectory
  | none => throw .missing

/-- Puts an entry at the end of a path, or does what is said if there is one. -/
def putNew (t : FileTree) (path : String) (new : Entry)
    (old : Place → Except FileError FileTree) : Except FileError FileTree := do
  let names := Path.names path
  let outer ← t.follow path names.dropLast
  let name := names.getLastD "."
  match t.enter outer name with
  | .ok place => old place
  | .error .missing => return t.put (outer ++ [name]) new
  | .error e => throw e

def makeDirectory (t : FileTree) (path : String) : Except FileError FileTree :=
  t.putNew path .directory fun _ => .error .present

def write (t : FileTree) (path text : String) : Except FileError FileTree :=
  t.putNew path (.file text) fun place =>
    if t.entry? place = some .directory then .error .isDirectory
    else .ok (t.put place (.file text))

def isDirectory (t : FileTree) (path : String) : Bool :=
  match t.locate path with
  | .ok place => t.entry? place = some .directory
  | .error _ => false

def host : Host (StateM FileTree) where
  read path := do (← get).read path
  write path text := do set (← (← get).write path text)
  makeDirectory path := do set (← (← get).makeDirectory path)
  isThere path := return ((← get).locate path).isOk
  isDirectory path := return (← get).isDirectory path

end FileTree

end LedgerBridge
