import LedgerBridge.Outpost.Swap
import LedgerBridge.Precompile.Method
import LedgerBridge.TokenContract.Operations

/-! Running a call: the method is found and its arguments read, the operation runs in a branch of the
store on a meter that holds the frame's gas, and the branch is kept only if it succeeds and the frame
pays. Otherwise it is discarded. No branch is open before the input has been read. -/
namespace LedgerBridge

inductive Precompile
  | token (t : TokenContract)
  | outpost (o : Outpost)
  deriving DecidableEq, Repr

structure Block where
  height : UInt64
  time : UInt64
  deriving DecidableEq, Repr

/-- What a call leaves behind. -/
structure CallResult where
  result : Except CallError CallOutput
  store : Store
  frame : Frame

namespace Precompile

def name : Precompile → String
  | token _ => "erc20"
  | outpost _ => "swap-outpost"

def address : Precompile → Address
  | token t => t.pair.address
  | outpost _ => Outpost.address

def requiredGas : Precompile → Bytes → Nat
  | token _ => TokenContract.table.requiredGas
  | outpost _ => Outpost.table.requiredGas

def methods : Precompile → List MethodInfo
  | token _ => TokenContract.table.list
  | outpost _ => Outpost.table.list

def evmDenom : Precompile → String
  | token t => t.evmDenom
  | outpost o => o.evmDenom

/-- The method that a frame may call, and the arguments it gives. -/
def decode (table : MethodTable ω) (f : Frame) (readOnly : Bool) :
    Except CallError (Method ω × Arguments) := do
  match table.find? f.input with
  | none => .error (.refused (.unknownMethod (Hex.encodeMarked (f.input.take 4))))
  | some m =>
    if readOnly && m.kind = .transaction then .error (.refused .writeProtection)
    f.checkBudget m
    let args ← (Abi.decode m.inputs (f.input.drop 4)).mapError fun e => .refused (.ofDecode e)
    return (m, args)

/-- Runs an operation and settles what it used. -/
def execute (operation : Action Completed) (s : Store) (f : Frame) : CallResult :=
  let outcome := operation.run s.branch f.meter
  match f.settle outcome.meter.used (outcome.result.mapError CallError.ofStop) with
  | (.ok (completed, gasUsed), f) =>
    ⟨.ok { completed with gasUsed }, outcome.store.commit?.getD s, f⟩
  | (.error e, f) => ⟨.error e, outcome.store.discard?.getD s, f⟩

def runWith (table : MethodTable ω) (operate : ω → Call → Action Completed) (address : Address)
    (time : UInt64) (s : Store) (f : Frame) (origin : Address) (readOnly : Bool) : CallResult :=
  match decode table f readOnly with
  | .error e => ⟨.error e, s, f⟩
  | .ok (m, args) => execute (operate m.op ⟨f.caller, origin, address, time, args⟩) s f

def run (p : Precompile) (time : UInt64) (s : Store) (f : Frame) (origin : Address)
    (readOnly : Bool) : CallResult :=
  match p with
  | token t => runWith TokenContract.table t.operate p.address time s f origin readOnly
  | outpost o => runWith Outpost.table o.operate p.address time s f origin readOnly

end Precompile

end LedgerBridge
