import LedgerBridge.Abi
import LedgerBridge.Ledger.Record
import LedgerBridge.Precompile.Error
import LedgerBridge.Primitives

/-! A call as the operations of a contract see it: what it is given, and what it hands back. -/
namespace LedgerBridge

/-! The arguments of a call, taken by position. The name of a place appears in complaints about it. -/

abbrev Arguments := List Abi.Value

namespace Arguments

def expectCount (args : Arguments) (expected : Nat) : Except Refusal Unit :=
  if args.length = expected then .ok () else .error (.argumentCount expected args.length)

def get (args : Arguments) (index : Nat) : Except Refusal Abi.Value :=
  match args[index]? with
  | some v => .ok v
  | none => .error (.argumentCount (index + 1) args.length)

def address (args : Arguments) (index : Nat) (name : String) : Except Refusal Address := do
  match ← args.get index with
  | .address a => return a
  | v => .error (.badArgument name v.shown)

def uint (args : Arguments) (index : Nat) (name : String) : Except Refusal Word := do
  match ← args.get index with
  | .uint n => return n
  | v => .error (.badArgument name v.shown)

/-- A number that is an amount of the ledger. -/
def amount (args : Arguments) (index : Nat) (name : String) : Except Refusal Amount := do
  let n ← args.uint index name
  match Amount.ofNat? n.toNat with
  | some a => return a
  | none => .error (.badArgument name (toString n.toNat))

def text (args : Arguments) (index : Nat) (name : String) : Except Refusal String := do
  match ← args.get index with
  | .text s => return s
  | v => .error (.badArgument name v.shown)

end Arguments

/-! What a call did to balances that the virtual machine keeps a copy of: those in its native
denomination. -/

inductive Direction
  | add
  | sub
  deriving DecidableEq, Repr

structure BalanceChange where
  address : Address
  amount : Amount
  direction : Direction
  deriving DecidableEq, Repr

/-- The largest signed number of 128 bits. -/
def BalanceChange.bound : Nat := 0x7FFFFFFFFFFFFFFFFFFFFFFFFFFFFFFF

/-- With a sign, and no further from zero than the bound. -/
def BalanceChange.signed (c : BalanceChange) : Int :=
  match c.direction with
  | .add => min c.amount.toNat bound
  | .sub => -(min c.amount.toNat bound : Nat)

structure Journal where
  denom : String
  changes : List BalanceChange
  deriving DecidableEq, Repr

namespace Journal

def new (denom : String) : Journal := ⟨denom, []⟩

def tracks (j : Journal) (denom : String) : Bool := j.denom = denom

/-- Changes in any other denomination are left out. -/
def record (j : Journal) (denom : String) (c : BalanceChange) : Journal :=
  if j.tracks denom then { j with changes := j.changes ++ [c] } else j

def credit (j : Journal) (denom : String) (account : Address) (amount : Amount) : Journal :=
  j.record denom ⟨account, amount, .add⟩

def debit (j : Journal) (denom : String) (account : Address) (amount : Amount) : Journal :=
  j.record denom ⟨account, amount, .sub⟩

def transfer (j : Journal) (denom : String) (sender recipient : Address) (amount : Amount) :
    Journal :=
  (j.debit denom sender amount).credit denom recipient amount

/-- A sum that stays within 128 signed bits. -/
def addSigned (a b : Int) : Option Int :=
  if -(BalanceChange.bound + 1) ≤ a + b ∧ a + b ≤ BalanceChange.bound then some (a + b) else none

/-- The sum of the signed changes in order, if no partial sum leaves its range. -/
def net (j : Journal) : Option Int := (j.changes.map BalanceChange.signed).foldlM addSigned 0

end Journal

/-! What a call hands back to the virtual machine. -/

structure Log where
  address : Address
  topics : List Bytes
  data : Bytes
  deriving DecidableEq, Repr

/-- The outcome of an operation, before gas is settled. -/
structure Completed where
  data : Bytes
  logs : List Log
  changes : List BalanceChange
  deriving DecidableEq, Repr

structure CallOutput extends Completed where
  gasUsed : Nat
  deriving DecidableEq, Repr

/-- How far a call has come. A failure at any stage leaves nothing of it. -/
inductive CallStage
  | decoded
  | authorized
  | executed
  | journaled
  | emitted
  | completed
  | failed
  deriving DecidableEq, Repr

namespace CallStage

def all : List CallStage :=
  [decoded, authorized, executed, journaled, emitted, completed, failed]

def text : CallStage → String
  | decoded => "decoded"
  | authorized => "authorized"
  | executed => "executed"
  | journaled => "journaled"
  | emitted => "emitted"
  | completed => "completed"
  | failed => "failed"

end CallStage

/-- What a contract computes over the ledger. -/
abbrev Action := Metered Refusal

structure Call where
  caller : Address
  /-- Who began the transaction. -/
  origin : Address
  /-- The contract that is called. -/
  address : Address
  /-- The time of the block. -/
  time : UInt64
  arguments : Arguments

namespace Action

def ofLedger (x : Ledger α) : Action α := x.mapError Refusal.ofLedger

/-- With complaints about balance and allowance as token contracts put them. -/
def ofTokenLedger (x : Ledger α) : Action α := x.mapError Refusal.ofTokenLedger

end Action

/-- What a transaction that succeeds returns. -/
def Completed.success : Bytes := Abi.encode [.bool true]

/-- The outcome of a query. -/
def Completed.answer (v : Abi.Value) : Completed := ⟨Abi.encode [v], [], []⟩

end LedgerBridge
