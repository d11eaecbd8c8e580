import LedgerBridge.Ledger.Record
import LedgerBridge.Precompile.Error

/-! The machine that a node runs on, and why it or the node fails. -/
namespace LedgerBridge

/-! Why a machine refuses to read or write a file. -/

inductive FileError
  | missing
  | denied
  /-- Something is there already. -/
  | present
  | notDirectory
  | isDirectory
  | nameTooLong
  /-- A path holds a zero, and a machine would take it to end there. -/
  | zeroInPath
  /-- The bytes of a file are not UTF-8. -/
  | notText
  | other (reason : String)
  deriving DecidableEq, Repr

def FileError.message : FileError → String
  | missing => "No such file or directory (os error 2)"
  | denied => "Permission denied (os error 13)"
  | present => "File exists (os error 17)"
  | notDirectory => "Not a directory (os error 20)"
  | isDirectory => "Is a directory (os error 21)"
  | nameTooLong => "File name too long (os error 36)"
  | zeroInPath => "file name contained an unexpected NUL byte"
  | notText => "stream did not contain valid UTF-8"
  | other reason => reason

/-! Why a node fails. -/

inductive NodeError
  | config (reason : String)
  | genesis (reason : String)
  | ledger (e : LedgerError)
  | precompile (why : Refusal)
  /-- A call was made and failed. -/
  | reverted (e : CallError)
  | io (e : FileError)
  deriving DecidableEq, Repr

def NodeError.message : NodeError → String
  | config reason => s!"config error: {reason}"
  | genesis reason => s!"genesis error: {reason}"
  | ledger e => s!"ledger error: {e.message}"
  | precompile why => s!"precompile error: {why.message}"
  | reverted e => s!"call reverted: {e.message}"
  | io e => s!"io error: {e.message}"

/-! The machine that a node runs on, and how a node puts a file there. -/

namespace Path

/-- The names on a path. -/
def names (path : String) : List String := (path.splitOn "/").filter (· ≠ "")

def isAbsolute (path : String) : Bool := path.toList.head? = some '/'

/-- A path and then those to the directories around it, from the inside out. It stops where no name
is left but `.`, since that is there from the start. -/
def outward (path : String) : List String :=
  let ns := (names path).filter (· ≠ ".")
  let root := if isAbsolute path then "/" else ""
  if ns = [] then []
  else path :: (List.range ns.length).tail.reverse.map fun n => root ++ "/".intercalate (ns.take n)

def join (dir name : String) : String :=
  if dir = "" || dir.toList.getLast? = some '/' then dir ++ name else s!"{dir}/{name}"

end Path

/-- What commands need of the machine that they run on. -/
structure Host (m : Type → Type) where
  read : (path : String) → ExceptT FileError m String
  write : (path text : String) → ExceptT FileError m Unit
  /-- Makes a directory inside one that is there. -/
  makeDirectory : (path : String) → ExceptT FileError m Unit
  isThere : (path : String) → m Bool
  isDirectory : (path : String) → m Bool

namespace Host

/-- Makes a directory unless there is one. -/
def settle [Monad m] (host : Host m) (path : String) : ExceptT FileError m Unit :=
  tryCatch (host.makeDirectory path) fun e => do
    unless e = .present && (← host.isDirectory path) do throw e

/-- Makes the first of some directories, each of which lies in the next. Only what is missed is made
of the others. -/
def settleAll [Monad m] (host : Host m) : List String → ExceptT FileError m Unit
  | [] => pure ()
  | path :: outer =>
    tryCatch (host.settle path) fun e => do
      unless e = .missing do throw e
      host.settleAll outer
      host.settle path

/-- Writes a file into a directory, which is made if there is none. -/
def install [Monad m] (host : Host m) (dir name text : String) : ExceptT FileError m Unit := do
  unless ← host.isThere dir do host.settleAll (Path.outward dir)
  host.write (Path.join dir name) text

end Host

end LedgerBridge
