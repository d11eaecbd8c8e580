import LedgerBridge.Ledger.Message
import LedgerBridge.Ledger.Record

/-! Delegated permissions. An authorization covers one type of message; accepting a message uses up
part of its limits and leaves a smaller authorization, or none. A grant gives one to somebody. -/
namespace LedgerBridge

/-- What may still be spent of each denomination. -/
abbrev Limits := List Coin

namespace Limits

def limit? (limits : Limits) (denom : String) : Option Amount :=
  (limits.find? (·.denom = denom)).map Coin.amount

/-- Zero for a denomination that is not covered. -/
def limit (limits : Limits) (denom : String) : Amount := (limits.limit? denom).getD 0

/-- A limit of zero is left out, the others are put in the order of denominations. -/
def set (limits : Limits) (denom : String) (amount : Amount) : Limits :=
  let others := limits.filter (·.denom ≠ denom)
  if amount = 0 then others
  else (others ++ [Coin.mk denom amount]).mergeSort fun a b => a.denom ≤ b.denom

def spend (limits : Limits) (coin : Coin) : Except LedgerError Limits :=
  let limit := limits.limit coin.denom
  if limit < coin.amount then .error (.limitExceeded coin.amount limit)
  else .ok (limits.set coin.denom (limit.minus coin.amount))

def spendAll (limits : Limits) (coins : List Coin) : Except LedgerError Limits :=
  coins.foldlM spend limits

end Limits

/-- What may leave over one channel. -/
structure Allocation where
  port : String
  channel : String
  limits : Limits
  /-- Receivers to whom transfers may go; if there are none, to any. -/
  receivers : List String
  deriving DecidableEq, Repr

namespace Allocation

def codec : Codec Allocation :=
  (Codec.string.pair (.pair .string (.pair (.list Coin.codec) (.list .string)))).map
    (fun (port, channel, limits, receivers) => ⟨port, channel, limits, receivers⟩)
    fun a => (a.port, a.channel, a.limits, a.receivers)

def allows (a : Allocation) (receiver : String) : Bool :=
  a.receivers.isEmpty || a.receivers.contains receiver

/-- What is left of an allocation; none if no limit is left. -/
def spend (a : Allocation) (token : Coin) (receiver : String) :
    Except LedgerError (Option Allocation) := do
  if !a.allows receiver then
    .error (.unauthorized s!"not allowed receiver address for transfer: {receiver}")
  let limits ← a.limits.spend token
  return if limits = [] then none else some { a with limits }

/-- Spends from the first allocation of the channel. -/
def spendFirst (port channel : String) (token : Coin) (receiver : String) :
    List Allocation → Except LedgerError (List Allocation)
  | [] => .error (.unauthorized "requested port and channel allocation does not exist")
  | a :: rest =>
    if a.port = port ∧ a.channel = channel then do
      return (← a.spend token receiver).toList ++ rest
    else do
      return a :: (← spendFirst port channel token receiver rest)

end Allocation

inductive Authorization
  | send (limits : Limits)
  | transfer (allocations : List Allocation)
  deriving DecidableEq, Repr

namespace Authorization

def codec : Codec Authorization :=
  (Codec.either (.list Coin.codec) (.list Allocation.codec)).map
    (fun
      | .inl limits => send limits
      | .inr allocations => transfer allocations)
    fun
      | send limits => .inl limits
      | transfer allocations => .inr allocations

def messageType : Authorization → String
  | send _ => Message.sendType
  | transfer _ => Message.transferType

/-- What is left after a message; none if nothing is. -/
def accept (a : Authorization) (m : Message) : Except LedgerError (Option Authorization) :=
  match a, m with
  | send limits, .send m => do
    let limits ← limits.spendAll m.coins
    return if limits = [] then none else some (send limits)
  | transfer allocations, .transfer m => do
    let allocations ← Allocation.spendFirst m.port m.channel m.token m.receiver allocations
    return if allocations = [] then none else some (transfer allocations)
  | _, _ =>
    .error (.invalidMessage
      s!"type mismatch: authorization for {a.messageType} cannot accept {m.type}")

end Authorization

/-- An authorization until a point in time, or for good. -/
structure Grant where
  authorization : Authorization
  expiration : Option UInt64
  deriving DecidableEq, Repr

namespace Grant

def codec : Codec Grant :=
  (Authorization.codec.pair (.option .u64)).map
    (fun (authorization, expiration) => ⟨authorization, expiration⟩)
    fun g => (g.authorization, g.expiration)

def isExpired (g : Grant) (time : UInt64) : Bool := g.expiration.any (· ≤ time)

end Grant

end LedgerBridge

namespace LedgerBridge.Ledger

/-! The grants in the store, one for each granter, grantee and type of message. The time at which they
are looked at is that of the block. -/

/-- A grant that is still in force. -/
def grant? (time : UInt64) (granter grantee : Address) (messageType : String) :
    Ledger (Option Grant) := do
  let grant ← read? Grant.codec (.grant granter grantee messageType)
  return grant.filter fun g => !g.isExpired time

def saveGrant (time : UInt64) (granter grantee : Address) (g : Grant) : Ledger Unit :=
  if g.isExpired time then
    .fail (.invalidMessage "expiration must be after the current block time")
  else write Grant.codec (.grant granter grantee g.authorization.messageType) g

def removeGrant (granter grantee : Address) (messageType : String) : Ledger Unit := do
  if ← contains (.grant granter grantee messageType) then
    erase (.grant granter grantee messageType)
  else .fail .noAuthorization

end LedgerBridge.Ledger
