import LedgerBridge.Node.Session

/-! The program: commands on the files of the machine it runs on. -/
namespace LedgerBridge.Main

/-- Why the machine failed. -/
def failure : IO.Error → FileError
  | .noFileOrDirectory .. => .missing
  | .permissionDenied .. => .denied
  | .alreadyExists .. => .present
  | .inappropriateType _ 21 _ => .isDirectory
  | .inappropriateType .. => .notDirectory
  | .invalidArgument _ 22 _ => .zeroInPath
  | .invalidArgument .. => .nameTooLong
  | e => .other (toString e)

def attempt (action : IO α) : ExceptT FileError IO α :=
  .mk (try Except.ok <$> action catch e => return .error (failure e))

def succeeds (action : IO α) : IO Bool :=
  try discard action; return true catch _ => return false

def host : Host IO where
  read path := do
    let some text := String.fromUTF8? (← attempt (IO.FS.readBinFile path)) | throw .notText
    return text
  write path text := attempt (IO.FS.writeFile path text)
  makeDirectory path := attempt (IO.FS.createDir path)
  isThere path := succeeds (IO.FS.realPath path)
  isDirectory path := succeeds do IO.FS.realPath s!"{← IO.FS.realPath path}/"

def usage : String := "usage: init | methods | call | memo, with options"

end LedgerBridge.Main

open LedgerBridge in
def main (args : List String) : IO UInt32 := do
  match Command.parse args with
  | none =>
    IO.eprintln Main.usage
    return 2
  | some command =>
    let session ← command.run Main.host
    IO.print session.output
    match session.result with
    | .ok () => return 0
    | .error e =>
      IO.eprintln e.message
      return 1
