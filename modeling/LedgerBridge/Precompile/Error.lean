import LedgerBridge.Abi
import LedgerBridge.Ledger.Record
import LedgerBridge.Metered

/-! Why a call fails. Lack of gas is kept apart from what a contract can refuse by itself. -/
namespace LedgerBridge

inductive Refusal
  | argumentCount (expected actual : Nat)
  | badArgument (name value : String)
  | unauthorized (reason : String)
  | invalid (reason : String)
  | ledger (reason : String)
  | unknownMethod (selector : String)
  | writeProtection
  | invalidInput (reason : String)
  deriving DecidableEq, Repr

inductive CallError
  | outOfGas
  | refused (why : Refusal)
  deriving DecidableEq, Repr

/-- What callers tell errors apart by. -/
inductive ErrorClass
  | argument
  | authorization
  | validation
  | ledger
  | gasExhaustion
  | dispatch
  deriving DecidableEq, Repr

namespace Refusal

def message : Refusal → String
  | argumentCount expected actual =>
    s!"invalid number of arguments; expected {expected}; got: {actual}"
  | badArgument name value => s!"invalid {name}: {value}"
  | unauthorized reason | invalid reason | ledger reason => reason
  | unknownMethod selector => s!"unknown method: {selector}"
  | writeProtection => "write protection"
  | invalidInput reason => s!"invalid input: {reason}"

def errorClass : Refusal → ErrorClass
  | argumentCount .. | badArgument .. => .argument
  | unauthorized _ => .authorization
  | invalid _ => .validation
  | ledger _ => .ledger
  | unknownMethod _ | writeProtection | invalidInput _ => .dispatch

def ofFormat (e : FormatError) : Refusal := invalid e.message

def ofDecode (e : Abi.DecodeError) : Refusal :=
  match e.fault with
  | .dirtyAddress =>
    invalid s!"invalid address encoding for argument {e.index}: {e.fault.reason}"
  | fault => badArgument s!"argument {e.index}" fault.reason

def ofLedger (e : LedgerError) : Refusal :=
  match e with
  | .noAuthorization | .limitExceeded .. | .unauthorized _ => unauthorized e.message
  | .invalidCoins _ | .invalidAddress _ | .invalidMessage _ => invalid e.message
  | .insufficientFunds .. | .channelNotFound .. | .balanceOverflow | .storage .. =>
    ledger e.message

def insufficientBalance : Refusal := ledger "ERC20: transfer amount exceeds balance"

def insufficientAllowance : Refusal := unauthorized "ERC20: insufficient allowance"

/-- As token contracts put it: what is missing is balance or allowance. -/
def ofTokenLedger : LedgerError → Refusal
  | .insufficientFunds .. => insufficientBalance
  | .noAuthorization | .limitExceeded .. => insufficientAllowance
  | e => ofLedger e

end Refusal

namespace CallError

def message : CallError → String
  | outOfGas => "out of gas"
  | refused why => why.message

def errorClass : CallError → ErrorClass
  | outOfGas => .gasExhaustion
  | refused why => why.errorClass

/-- Where the gas ran out does not matter to the caller. -/
def ofStop : Stop Refusal → CallError
  | .exhausted _ => outOfGas
  | .failed why => refused why

/-- The message as an encoded `Error(string)`. -/
def revertData (e : CallError) : Bytes := [0x08, 0xC3, 0x79, 0xA0] ++ Abi.encode [.text e.message]

end CallError

end LedgerBridge
