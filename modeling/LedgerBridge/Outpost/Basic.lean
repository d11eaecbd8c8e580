import LedgerBridge.Ledger.Channel
import LedgerBridge.Precompile.Method

/-! The swap outpost: where swaps are sent, and its one method. -/
namespace LedgerBridge

structure OutpostConfig where
  port : String
  channel : String
  /-- The contract on the other chain that receives the funds and swaps them. -/
  swapContract : String
  /-- The native denomination of the other chain. -/
  counterDenom : String
  slippagePercent : UInt64
  windowSeconds : UInt64
  deriving DecidableEq, Repr

namespace OutpostConfig

def standard : OutpostConfig where
  port := "transfer"
  channel := "channel-0"
  swapContract := ""
  counterDenom := "uosmo"
  slippagePercent := 5
  windowSeconds := 10

instance : Inhabited OutpostConfig := ⟨standard⟩

def toDocument (o : OutpostConfig) : Document :=
  .record [("port", .text o.port), ("channel", .text o.channel),
    ("swap_contract", .text o.swapContract), ("counter_denom", .text o.counterDenom),
    ("slippage_percent", .ofU64 o.slippagePercent), ("window_seconds", .ofU64 o.windowSeconds)]

/-- Fields that are not given have their standard values. -/
def ofDocument? (layout : Document.Layout) (d : Document) : Option OutpostConfig := do
  let [port, channel, swapContract, counterDenom, slippagePercent, windowSeconds] ←
    d.fields? layout ["port", "channel", "swap_contract", "counter_denom", "slippage_percent",
      "window_seconds"] | none
  return {
    port := ← Document.orElse port standard.port Document.text?
    channel := ← Document.orElse channel standard.channel Document.text?
    swapContract := ← Document.orElse swapContract standard.swapContract Document.text?
    counterDenom := ← Document.orElse counterDenom standard.counterDenom Document.text?
    slippagePercent := ← Document.orElse slippagePercent standard.slippagePercent Document.u64?
    windowSeconds := ← Document.orElse windowSeconds standard.windowSeconds Document.u64? }

end OutpostConfig

structure Outpost where
  config : OutpostConfig
  /-- The native denomination of the virtual machine. -/
  evmDenom : String
  deriving DecidableEq, Repr

namespace Outpost

def address : Address := ⟨List.replicate 18 0 ++ [0x09, 0x01], by simp⟩

inductive Operation
  | swap
  deriving DecidableEq, Repr

def methods : List (Method Operation) := [
  ⟨.swap, "swap(address,address,address,uint256,string)",
    [.address, .address, .address, .uint256, .text], .transaction, 1500000⟩]

def table : MethodTable Operation := .ofMethods methods

/-- What may be swapped: the staked denomination, and the voucher of the other chain's own. -/
def supportedInputs (bondDenom port channel counterDenom : String) : List String :=
  [bondDenom, Denom.voucher port channel counterDenom]

end Outpost

end LedgerBridge
