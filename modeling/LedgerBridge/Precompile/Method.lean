import LedgerBridge.Precompile.Error
import LedgerBridge.Store.ByteMap

/-! The methods of a contract, found by selector, and the frame that calls one. -/
namespace LedgerBridge

inductive MethodKind
  | transaction
  | query
  deriving DecidableEq, Repr

def MethodKind.text : MethodKind → String
  | transaction => "tx"
  | query => "query"

/-- A method that stands for the operation `op`. -/
structure Method (ω : Type) where
  op : ω
  signature : String
  inputs : List Abi.Kind
  kind : MethodKind
  /-- The least budget that a call is tried with. -/
  gas : Nat
  deriving DecidableEq, Repr

namespace Method

def selector (m : Method ω) : Bytes := Abi.selector m.signature

def name (m : Method ω) : String := .ofList (m.signature.toList.takeWhile (· ≠ '('))

end Method

/-- A method as it is listed. -/
structure MethodInfo where
  selector : Bytes
  signature : String
  kind : MethodKind
  gas : Nat
  deriving DecidableEq, Repr

abbrev MethodTable (ω : Type) := ByteMap (Method ω)

namespace MethodTable

def add? (table : MethodTable ω) (m : Method ω) : Except Refusal (MethodTable ω) :=
  if table.contains m.selector then
    .error (.invalidInput s!"duplicate selector {Hex.encode m.selector} for {m.signature}")
  else .ok (table.insert m.selector m)

/-- No two methods may have the same selector. -/
def ofMethods? (methods : List (Method ω)) : Except Refusal (MethodTable ω) :=
  methods.foldlM add? ∅

/-- The table of methods whose selectors are known to differ. -/
def ofMethods (methods : List (Method ω)) : MethodTable ω :=
  methods.foldl (fun table m => table.insert m.selector m) ∅

/-- The method that an input calls. -/
def find? (table : MethodTable ω) (input : Bytes) : Option (Method ω) :=
  if input.length < 4 then none else table.get? (input.take 4)

/-- Nothing, if the input calls no method. -/
def requiredGas (table : MethodTable ω) (input : Bytes) : Nat :=
  ((table.find? input).map Method.gas).getD 0

/-- In the order of selectors. -/
def list (table : MethodTable ω) : List MethodInfo :=
  table.toList.map fun (selector, m) => ⟨selector, m.signature, m.kind, m.gas⟩

end MethodTable

/-! The frame that makes a call, and how it pays. Only metered gas is taken from it; the fixed cost of
a method is no more than a threshold. -/

structure Frame where
  caller : Address
  input : Bytes
  gas : Nat
  deriving DecidableEq, Repr

namespace Frame

/-- The frame after paying; none if it cannot. -/
def pay? (f : Frame) (amount : Nat) : Option Frame :=
  if f.gas < amount then none else some { f with gas := f.gas - amount }

def checkBudget (f : Frame) (m : Method ω) : Except CallError Unit :=
  if f.gas < m.gas then .error .outOfGas else .ok ()

def meter (f : Frame) : Meter := .new f.gas

/-- Takes the gas that an operation has used. Running out of gas costs all that was used, as far as it
is there; other failures are free. -/
def settle (f : Frame) (used : Nat) : Except CallError α → Except CallError (α × Nat) × Frame
  | .ok a =>
    match f.pay? used with
    | some paid => (.ok (a, used), paid)
    | none => (.error .outOfGas, f)
  | .error .outOfGas => (.error .outOfGas, { f with gas := f.gas - used })
  | .error e => (.error e, f)

end Frame

end LedgerBridge
