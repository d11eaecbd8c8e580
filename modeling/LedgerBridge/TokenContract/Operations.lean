import LedgerBridge.Ledger.Authorization
import LedgerBridge.Ledger.Bank
import LedgerBridge.Precompile.Call
import LedgerBridge.Precompile.Gateway
import LedgerBridge.TokenContract.Basic

/-! What the methods of a token contract do. -/
namespace LedgerBridge.TokenContract

/-! Moving tokens: one's own, or those of another under an allowance. -/

/-- Moves tokens on the authority of the caller. -/
def move (t : TokenContract) (c : Call) (sender recipient : Address) (amount : Amount) :
    Action Authority := do
  let m : SendMessage := ⟨sender, recipient, [⟨t.denom, amount⟩]⟩
  m.check.mapError Refusal.ofLedger
  let authority ← .ofTokenLedger (Ledger.authorize c.time c.caller sender (.send m))
  .ofTokenLedger (Ledger.send m.sender m.recipient m.coins)
  .ofLedger (Ledger.settle c.time authority)
  return authority

def moved (t : TokenContract) (sender recipient : Address) (amount : Amount) (logs : List Log) :
    Completed :=
  ⟨Completed.success, logs, (t.journal.transfer t.denom sender recipient amount).changes⟩

def transfer (t : TokenContract) (c : Call) : Action Completed := do
  c.arguments.expectCount 2
  let recipient ← c.arguments.address 0 "to address"
  let amount ← c.arguments.amount 1 "amount"
  discard (t.move c c.caller recipient amount)
  return t.moved c.caller recipient amount [transferLog c.address c.caller recipient amount]

/-- Also logs what is left of the allowance. -/
def transferFrom (t : TokenContract) (c : Call) : Action Completed := do
  c.arguments.expectCount 3
  let sender ← c.arguments.address 0 "from address"
  let recipient ← c.arguments.address 1 "to address"
  let amount ← c.arguments.amount 2 "amount"
  let authority ← t.move c sender recipient amount
  return t.moved sender recipient amount [
    transferLog c.address sender recipient amount,
    approvalLog c.address sender c.caller (authority.allowance t.denom).word]

/-! Minting and burning, which only the owner of the pair may do. -/

def requireOwner (t : TokenContract) (caller : Address) (role : String) : Except Refusal Unit :=
  if t.pair.owner = some caller then .ok () else .error (.unauthorized s!"{role} is not the owner")

def requirePositive (amount : Amount) : Except Refusal Unit :=
  if amount = 0 then .error (.badArgument "amount" amount.text) else .ok ()

def mint (t : TokenContract) (c : Call) : Action Completed := do
  c.arguments.expectCount 2
  let recipient ← c.arguments.address 0 "to address"
  let amount ← c.arguments.amount 1 "amount"
  requirePositive amount
  t.requireOwner c.caller "minter"
  let coins : List Coin := [⟨t.denom, amount⟩]
  .ofLedger (Ledger.mint moduleName coins)
  .ofLedger (Ledger.sendFromModule moduleName recipient coins)
  return ⟨Completed.success, [transferLog c.address (.ofModule moduleName) recipient amount],
    (t.journal.credit t.denom recipient amount).changes⟩

def burn (t : TokenContract) (c : Call) : Action Completed := do
  c.arguments.expectCount 1
  let amount ← c.arguments.amount 0 "amount"
  requirePositive amount
  t.requireOwner c.caller "burner"
  let coins : List Coin := [⟨t.denom, amount⟩]
  .ofTokenLedger (Ledger.sendToModule c.caller moduleName coins)
  .ofLedger (Ledger.burn moduleName coins)
  return ⟨Completed.success, [transferLog c.address c.caller (.ofModule moduleName) amount],
    (t.journal.debit t.denom c.caller amount).changes⟩

/-! Setting, raising and lowering what another may spend. An allowance is a limit in the owner's send
grant; the first one makes the grant and the last one ends it. -/

inductive AllowanceChange
  | set
  | increase
  | decrease
  deriving DecidableEq, Repr

def noAllowance (denom : String) : Refusal :=
  .invalid s!"allowance for token {denom} does not exist"

/-- The allowance that a change leads to. -/
def AllowanceChange.next (change : AllowanceChange) (denom : String) (current : Option Amount)
    (amount : Amount) : Except Refusal Amount :=
  match change, current with
  | .set, some _ => .ok amount
  | .set, none | .increase, none => if amount = 0 then .error (noAllowance denom) else .ok amount
  | .increase, some current =>
    match current.plus? amount with
    | some next => .ok next
    | none => .error (.invalid s!"amount {amount.text} causes integer overflow")
  | .decrease, none => .error (noAllowance denom)
  | .decrease, some current =>
    match current.minus? amount with
    | some next => .ok next
    | none =>
      .error (.invalid ("subtracted value cannot be greater than existing allowance for denom " ++
        s!"{denom}: {amount.text} > {current.text}"))

/-- The later time, or the last one there is. -/
def later (time lifetime : UInt64) : UInt64 :=
  .ofNat (min (time.toNat + lifetime.toNat) (UInt64.size - 1))

def storeAllowance (t : TokenContract) (time : UInt64) (owner spender : Address)
    (existing : Option Grant) (amount : Amount) : Action Unit :=
  match existing with
  | some ⟨.send limits, expiration⟩ =>
    match limits.set t.denom amount with
    | [] => .ofLedger (Ledger.removeGrant owner spender Message.sendType)
    | limits => .ofLedger (Ledger.saveGrant time owner spender ⟨.send limits, expiration⟩)
  | some ⟨.transfer _, _⟩ =>
    .fail (.invalid s!"grant for {Message.sendType} is not a send authorization")
  | none =>
    .ofLedger (Ledger.saveGrant time owner spender
      ⟨.send [⟨t.denom, amount⟩], some (later time t.approvalLifetime)⟩)

/-- What a grant lets spend of the token, if it covers it. -/
def grantedLimit? (t : TokenContract) : Option Grant → Option Amount
  | some ⟨.send limits, _⟩ => limits.limit? t.denom
  | _ => none

def approve (t : TokenContract) (change : AllowanceChange) (c : Call) : Action Completed := do
  c.arguments.expectCount 2
  let spender ← c.arguments.address 0 "spender address"
  let amount ← c.arguments.amount 1 "amount"
  if spender = c.caller then
    Metered.fail (.invalid s!"spender cannot be the owner: {spender.text}")
  let existing ← .ofLedger (Ledger.grant? c.time c.caller spender Message.sendType)
  let next ← change.next t.denom (t.grantedLimit? existing) amount
  t.storeAllowance c.time c.caller spender existing next
  return ⟨Completed.success, [approvalLog c.address c.caller spender (.ofAmount next)], []⟩

/-! What a token contract tells about its denomination. -/

/-- A part of the metadata, which the contract knows itself if the ledger does not. -/
def describe (t : TokenContract) (part : Metadata → Abi.Value) (c : Call) : Action Completed := do
  c.arguments.expectCount 0
  let stored ← .ofLedger (Ledger.metadata? t.denom)
  return .answer (part (stored.getD t.metadata))

def totalSupply (t : TokenContract) (c : Call) : Action Completed := do
  c.arguments.expectCount 0
  return .answer (.ofAmount (← .ofLedger (Ledger.supply t.denom)))

def balanceOf (t : TokenContract) (c : Call) : Action Completed := do
  c.arguments.expectCount 1
  let owner ← c.arguments.address 0 "account address"
  return .answer (.ofAmount (← .ofLedger (Ledger.balance owner t.denom)))

def allowance (t : TokenContract) (c : Call) : Action Completed := do
  c.arguments.expectCount 2
  let owner ← c.arguments.address 0 "owner address"
  let spender ← c.arguments.address 1 "spender address"
  let allowance ← .ofLedger (Ledger.allowance c.time owner spender t.denom)
  return .answer (.uint allowance.word)

def enabledOperation (t : TokenContract) : Operation → Call → Action Completed
  | .transfer => t.transfer
  | .transferFrom => t.transferFrom
  | .approve => t.approve .set
  | .increaseAllowance => t.approve .increase
  | .decreaseAllowance => t.approve .decrease
  | .mint => t.mint
  | .burn => t.burn
  | .name => t.describe fun m => .text m.name
  | .symbol => t.describe fun m => .text m.symbol
  | .decimals => t.describe fun m => .uint (.ofNat 256 m.decimals.toNat)
  | .totalSupply => t.totalSupply
  | .balanceOf => t.balanceOf
  | .allowance => t.allowance

/-- A disabled pair refuses every operation. -/
def operate (t : TokenContract) (op : Operation) (c : Call) : Action Completed :=
  if t.pair.enabled then t.enabledOperation op c
  else .fail (.invalid s!"token pair for denom {t.denom} is disabled")

end LedgerBridge.TokenContract
