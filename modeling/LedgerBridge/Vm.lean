import LedgerBridge.Ledger.Bank
import LedgerBridge.Precompile.Call
import LedgerBridge.Precompile.Run
import LedgerBridge.Store.ByteMap

/-! What the virtual machine keeps between calls. -/
namespace LedgerBridge

/-! The precompiles of a chain, each at an address of its own. -/

abbrev PrecompileSet := ByteMap Precompile

namespace PrecompileSet

def add? (set : PrecompileSet) (p : Precompile) : Except Refusal PrecompileSet :=
  if set.contains p.address.bytes then
    .error (.invalidInput s!"precompile already registered at {p.address.text}")
  else .ok (set.insert p.address.bytes p)

def at? (set : PrecompileSet) (a : Address) : Option Precompile := set.get? a.bytes

/-- In the order of addresses. -/
def list (set : PrecompileSet) : List Precompile := set.values

end PrecompileSet

/-! The virtual machine's copy of native balances, and the logs it has collected. It is kept up to
date by the outputs of calls alone. -/

structure VmState where
  balances : ByteMap Amount
  logs : List Log

namespace VmState

def empty : VmState := ⟨∅, []⟩

def balance (vm : VmState) (account : Address) : Amount :=
  (vm.balances.get? account.bytes).getD 0

def setBalance (vm : VmState) (account : Address) (amount : Amount) : VmState :=
  { vm with balances := vm.balances.insert account.bytes amount }

/-- Copies the balances of some accounts from the ledger. -/
def load (denom : String) (accounts : List Address) : Action VmState :=
  .ofLedger (accounts.foldlM (fun vm account =>
    return vm.setBalance account (← Ledger.balance account denom)) empty)

def applyChange (vm : VmState) (c : BalanceChange) : Except Refusal VmState :=
  let current := vm.balance c.address
  let next? := match c.direction with
    | .add => current.plus? c.amount
    | .sub => current.minus? c.amount
  match next? with
  | some next => .ok (vm.setBalance c.address next)
  | none =>
    .error (.invalidInput
      s!"balance change of {c.signed} on {c.address.text} out of range")

/-- All changes in order and then the logs, or nothing. -/
def apply (vm : VmState) (output : CallOutput) : Except Refusal VmState := do
  let vm ← output.changes.foldlM applyChange vm
  return { vm with logs := vm.logs ++ output.logs }

end VmState

end LedgerBridge
