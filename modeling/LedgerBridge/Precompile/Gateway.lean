import LedgerBridge.Abi
import LedgerBridge.Ledger.Authorization

/-! Spending for others. A caller moves its own funds freely and those of others under a grant, which
is looked at before the move and brought up to date after it. -/
namespace LedgerBridge

inductive Allowance
  | limited (amount : Amount)
  | unlimited
  deriving DecidableEq, Repr

/-- Without a limit, the largest number. -/
def Allowance.word : Allowance → Word
  | limited amount => .ofAmount amount
  | unlimited => .allOnes 256

/-- A grant that has accepted a message, and what the message leaves of its authorization. -/
structure Delegation where
  granter : Address
  grantee : Address
  grant : Grant
  remaining : Option Authorization
  deriving DecidableEq, Repr

def Delegation.remainingLimit (d : Delegation) (denom : String) : Amount :=
  match d.remaining with
  | some (.send limits) => limits.limit denom
  | _ => 0

/-- On whose authority funds are moved. -/
inductive Authority
  | own
  | delegated (d : Delegation)
  deriving DecidableEq, Repr

def Authority.allowance (denom : String) : Authority → Allowance
  | own => .unlimited
  | delegated d => .limited (d.remainingLimit denom)

namespace Ledger

/-- The authority of `caller` for a message that moves the funds of `owner`. -/
def authorize (time : UInt64) (caller owner : Address) (m : Message) : Ledger Authority := do
  if caller = owner then return .own
  match ← grant? time owner caller m.type with
  | none => .fail .noAuthorization
  | some grant =>
    let remaining ← grant.authorization.accept m
    return .delegated ⟨owner, caller, grant, remaining⟩

/-- Takes what a message used from the grant that it was moved under. -/
def settle (time : UInt64) : Authority → Ledger Unit
  | .own => return
  | .delegated d =>
    match d.remaining with
    | some authorization => saveGrant time d.granter d.grantee { d.grant with authorization }
    | none => removeGrant d.granter d.grantee d.grant.authorization.messageType

def allowance (time : UInt64) (owner spender : Address) (denom : String) : Ledger Allowance := do
  if owner = spender then return .unlimited
  match ← grant? time owner spender Message.sendType with
  | some ⟨.send limits, _⟩ => return .limited (limits.limit denom)
  | _ => return .limited 0

end Ledger

end LedgerBridge
