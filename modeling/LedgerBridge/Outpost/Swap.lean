import LedgerBridge.Ledger.Bank
import LedgerBridge.Ledger.Channel
import LedgerBridge.Outpost.Basic
import LedgerBridge.Outpost.Memo
import LedgerBridge.Precompile.Call
import LedgerBridge.Precompile.Gateway

/-! Swapping: the input token leaves over the outpost's channel with a memo that says what to swap it
for. The funds are always those of the transaction's origin. -/
namespace LedgerBridge

/-- What a swap asks for, in denominations. -/
structure SwapRequest where
  inputDenom : String
  outputDenom : String
  amount : Amount
  receiver : String
  slippagePercent : UInt64
  windowSeconds : UInt64
  deriving DecidableEq, Repr

def SwapRequest.check (r : SwapRequest) (supported : List String) : Except Refusal Unit := do
  if r.inputDenom = r.outputDenom then
    .error (.invalid s!"input and output token cannot be the same: {r.inputDenom}")
  if !supported.contains r.inputDenom then
    .error (.invalid
      ("input not supported, supported tokens: [" ++ " ".intercalate supported ++ "]"))
  if SwapMemo.maxSlippage < r.slippagePercent.toNat then .error SwapMemo.slippageRange
  if SwapMemo.maxWindow < r.windowSeconds.toNat then .error SwapMemo.windowRange

namespace Outpost

/-- Whose funds are swapped. A contract that names itself acts for the origin; any other name must be
the origin's. -/
def effectiveSender (caller origin sender : Address) : Except Refusal Address :=
  if caller = sender then .ok origin
  else if origin = sender then .ok sender
  else
    .error (.invalid
      s!"origin address {origin.text} is not the same as sender address {sender.text}")

def denomAt (token : Address) : Action String := do
  match ← .ofLedger (Ledger.pairAt? token) with
  | some pair => return pair.denom
  | none => .fail (.invalid s!"token pair for address {token.text} not found")

def memo (o : Outpost) (r : SwapRequest) : SwapMemo :=
  .new r.outputDenom r.receiver o.config.swapContract (toString r.slippagePercent.toNat)
    r.windowSeconds

/-- The message that carries a swap out. It times out by height alone. -/
def message (o : Outpost) (r : SwapRequest) (sender : Address) : TransferMessage where
  port := o.config.port
  channel := o.config.channel
  token := ⟨r.inputDenom, r.amount⟩
  sender := sender
  receiver := o.config.swapContract
  timeoutHeight := ⟨100, 100⟩
  timeoutTime := 0
  memo := (o.memo r).write

def missingGrant (caller origin : Address) : LedgerError → Refusal
  | .noAuthorization =>
    .unauthorized
      s!"authorization to {caller.text} for address {origin.text} does not exist or is expired"
  | e => .ofLedger e

def transferLog (contract : Address) (m : TransferMessage) : Log where
  address := contract
  topics := [Abi.eventTopic "IBCTransfer(address,string,string,string,string,uint256,string)",
    Abi.addressTopic m.sender, Abi.textTopic m.receiver]
  data := Abi.encode [.text m.port, .text m.channel, .text m.token.denom,
    .ofAmount m.token.amount, .text m.memo]

def swapLog (contract sender input output : Address) (r : SwapRequest) : Log where
  address := contract
  topics := [Abi.eventTopic "Swap(address,address,address,uint256,string)",
    Abi.addressTopic sender, Abi.addressTopic input, Abi.addressTopic output]
  data := Abi.encode [.ofAmount r.amount, .text r.receiver]

def journal (o : Outpost) (m : TransferMessage) : Journal :=
  let start := Journal.new o.evmDenom
  match Denom.exit? m.port m.channel m.token.denom with
  | some escrow => start.transfer m.token.denom m.sender escrow m.token.amount
  | none => start.debit m.token.denom m.sender m.token.amount

def swap (o : Outpost) (c : Call) : Action Completed := do
  c.arguments.expectCount 5
  let sender ← c.arguments.address 0 "sender address"
  let input ← c.arguments.address 1 "input denom"
  let output ← c.arguments.address 2 "output denom"
  let amount ← c.arguments.amount 3 "amount"
  let receiver ← c.arguments.text 4 "receiver address"
  let inputDenom ← denomAt input
  let outputDenom ← denomAt output
  let bondDenom ← .ofLedger Ledger.bondDenom
  let r : SwapRequest := ⟨inputDenom, outputDenom, amount, receiver, o.config.slippagePercent,
    o.config.windowSeconds⟩
  r.check (supportedInputs bondDenom o.config.port o.config.channel o.config.counterDenom)
  let sender ← effectiveSender c.caller c.origin sender
  let m := o.message r sender
  m.check.mapError Refusal.ofLedger
  let authority ←
    (Ledger.authorize c.time c.caller sender (.transfer m)).mapError (missingGrant c.caller c.origin)
  discard (Action.ofLedger (Ledger.transfer m))
  .ofLedger (Ledger.settle c.time authority)
  return ⟨Completed.success, [transferLog c.address m, swapLog c.address sender input output r],
    (o.journal m).changes⟩

def operate (o : Outpost) : Operation → Call → Action Completed
  | .swap => o.swap

end Outpost

end LedgerBridge
