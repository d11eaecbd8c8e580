import LedgerBridge.Json.Writer
import LedgerBridge.Node.Command
import LedgerBridge.Node.ConfigText
import LedgerBridge.Node.Genesis
import LedgerBridge.Node.Host
import LedgerBridge.Node.Report
import LedgerBridge.Outpost.Memo

/-! Carrying out a command: what it prints and how it ends. -/
namespace LedgerBridge

structure Session where
  output : String
  result : Except NodeError Unit

namespace Session

def printed (output : String) : Session := ⟨output, .ok ()⟩

def failed (e : NodeError) : Session := ⟨"", .error e⟩

def ofExcept : Except NodeError Session → Session
  | .ok s => s
  | .error e => failed e

end Session

namespace Config

/-- The configuration in a file that was read, or failed to be. -/
def ofFile (path : String) : Except FileError String → Except NodeError Config
  | .error e => .error (.config s!"failed to read config file '{path}': {e.message}")
  | .ok text =>
    match ofToml? text with
    | some c => .ok c
    | none => .error (.config "failed to parse config file")

end Config

namespace Command

def listMethods (c : Config) (name : Option String) : Except NodeError Session := do
  discard c.initialStore
  let set ← c.precompiles
  let listed ← match name with
    | some name => List.singleton <$> set.resolve name
    | none => pure set.list
  return .printed (.join (listed.map MethodsTable.listing))

def parseAddress (option text : String) : Except NodeError Address :=
  (Address.parse text).mapError fun e => .config s!"invalid --{option}: {e.message}"

/-- All marks `0x` in front are left out. -/
def unmarked : List Char → List Char
  | '0' :: 'x' :: rest => unmarked rest
  | cs => cs

def makeCall (c : Config) (precompile caller : String) (origin : Option String) (data : String)
    (gas : Nat) (readOnly : Bool) : Except NodeError Session := do
  let caller ← parseAddress "caller" caller
  let origin ← match origin with
    | some origin => parseAddress "origin" origin
    | none => pure caller
  let input ← (Hex.decode (.ofList (unmarked data.toList))).mapError fun fault =>
    NodeError.config s!"invalid --data: {fault.message}"
  let s ← c.initialStore
  let set ← c.precompiles
  let p ← set.resolve precompile
  let (report, _) := p.report c.chain.blockTime s ⟨caller, origin, input, gas, readOnly⟩
  let result := match report.error? with
    | some e => .error (.reverted e)
    | none => .ok ()
  return ⟨Json.pretty report.toDocument ++ "\n", result⟩

def showMemo (outputDenom receiver contract : String) (slippage window : Nat) :
    Except NodeError Session := do
  let memo := SwapMemo.new outputDenom receiver contract (toString slippage) (.ofNat window)
  memo.check.mapError NodeError.precompile
  return .printed (memo.write ++ "\n")

def run [Monad m] (host : Host m) : Command → m Session
  | .init dir => do
    match ← host.install dir configName Config.development.text with
    | .ok () => return .printed s!"Wrote {dir}/{configName}\n"
    | .error e => return .failed (.io e)
  | .methods none precompile => return .ofExcept (listMethods .development precompile)
  | .methods (some path) precompile => do
    let file ← host.read path
    return .ofExcept do listMethods (← Config.ofFile path file) precompile
  | .call path precompile caller origin data gas readOnly => do
    let file ← host.read path
    return .ofExcept do
      makeCall (← Config.ofFile path file) precompile caller origin data gas readOnly
  | .memo outputDenom receiver contract slippage window =>
    return .ofExcept (showMemo outputDenom receiver contract slippage window)

end Command

end LedgerBridge
