import LedgerBridge.Json.Reader
import LedgerBridge.Json.Writer
import LedgerBridge.Ledger.Channel
import LedgerBridge.Precompile.Error

/-! The memo that tells the contract on the other chain which swap to make. -/
namespace LedgerBridge

structure SwapMemo where
  /-- The contract that makes the swap. -/
  contract : String
  outputDenom : String
  /-- In percent, as a decimal text. -/
  slippage : String
  windowSeconds : UInt64
  receiver : String
  onFailedDelivery : String
  nextMemo : Option String
  deriving DecidableEq, Repr

namespace SwapMemo

def maxSlippage : Nat := 20

def maxWindow : Nat := 60

def slippageRange : Refusal :=
  .invalid s!"slippage percentage must be a value between 0 and {maxSlippage}"

def windowRange : Refusal :=
  .invalid s!"window seconds must be a value between 0 and {maxWindow}"

/-- A swap that is given up if it cannot be delivered. -/
def new (outputDenom receiver contract slippage : String) (windowSeconds : UInt64) : SwapMemo where
  contract := contract
  outputDenom := outputDenom
  slippage := slippage
  windowSeconds := windowSeconds
  receiver := receiver
  onFailedDelivery := "do_nothing"
  nextMemo := none

def check (m : SwapMemo) : Except Refusal Unit :=
  match Decimal.read UInt64.size m.slippage with
  | none => .error slippageRange
  | some slippage =>
    if maxSlippage < slippage then .error slippageRange
    else if maxWindow < m.windowSeconds.toNat then .error windowRange
    else .ok ()

def toDocument (m : SwapMemo) : Document :=
  let twap := .record [("slippage_percentage", .text m.slippage),
    ("window_seconds", .ofU64 m.windowSeconds)]
  let swap := [("output_denom", .text m.outputDenom), ("slippage", .record [("twap", twap)]),
    ("receiver", .text m.receiver), ("on_failed_delivery", .text m.onFailedDelivery)]
  let next := Document.optionalMember "next_memo" .text m.nextMemo
  .record [("memo", .record [("contract", .text m.contract),
    ("msg", .record [("osmosis_swap", .record (swap ++ next))])])]

def ofDocument? (layout : Document.Layout) (d : Document) : Option SwapMemo := do
  let [some memo] ← d.fields? layout ["memo"] | none
  let [some contract, some msg] ← memo.fields? layout ["contract", "msg"] | none
  let [some swap] ← msg.fields? layout ["osmosis_swap"] | none
  let [some outputDenom, some slippage, some receiver, some onFailedDelivery, nextMemo] ←
    swap.fields? layout
      ["output_denom", "slippage", "receiver", "on_failed_delivery", "next_memo"] | none
  let [some twap] ← slippage.fields? layout ["twap"] | none
  let [some percentage, some windowSeconds] ←
    twap.fields? layout ["slippage_percentage", "window_seconds"] | none
  return {
    contract := ← contract.text?
    outputDenom := ← outputDenom.text?
    slippage := ← percentage.text?
    windowSeconds := ← windowSeconds.u64?
    receiver := ← receiver.text?
    onFailedDelivery := ← onFailedDelivery.text?
    nextMemo := ← Document.orElse nextMemo none (Document.optional? Document.text?) }

def write (m : SwapMemo) : String := Json.pretty m.toDocument

def parse (s : String) : Option SwapMemo := do
  ofDocument? Json.layout (← Json.parse s)

end SwapMemo

end LedgerBridge
