import LedgerBridge.Store.Basic

/-! Computations over a store that pay for each access, and the meters that they pay. -/
namespace LedgerBridge

/-! Gas meters. A charge is recorded before it is checked, so the recorded use may pass the limit; it
never passes `Meter.cap`. -/

structure Charge where
  location : String
  amount : Nat
  deriving DecidableEq, Repr

/-- The charge at which a meter ran out, with the use it led to. -/
structure Exhaustion where
  location : String
  used : Nat
  limit : Nat
  deriving DecidableEq, Repr

def Exhaustion.message (x : Exhaustion) : String :=
  s!"out of gas in location: {x.location}; gasWanted: {x.limit}, gasUsed: {x.used}"

structure Meter where
  limit : Nat
  used : Nat
  deriving DecidableEq, Repr, Inhabited

namespace Meter

/-- Where the count of used gas stops. -/
def cap : Nat := UInt64.size - 1

def new (limit : Nat) : Meter := ⟨limit, 0⟩

/-- Never runs out, since use stops at the cap. -/
def unbounded : Meter := new cap

def record (m : Meter) (amount : Nat) : Meter := { m with used := min (m.used + amount) cap }

def charge (m : Meter) (c : Charge) : Meter × Option Exhaustion :=
  let m := m.record c.amount
  (m, if m.limit < m.used then some ⟨c.location, m.used, m.limit⟩ else none)

/-- Charges in order, up to the first that the limit does not allow. -/
def chargeAll (m : Meter) : List Charge → Meter × Option Exhaustion
  | [] => (m, none)
  | c :: rest =>
    match m.charge c with
    | (m, none) => chargeAll m rest
    | (m, some x) => (m, some x)

def remaining (m : Meter) : Nat := m.limit - m.used

def isExhausted (m : Meter) : Bool := m.limit ≤ m.used

@[simp] theorem limit_record (m : Meter) (amount : Nat) : (m.record amount).limit = m.limit := rfl

@[simp] theorem limit_charge (m : Meter) (c : Charge) : (m.charge c).1.limit = m.limit := rfl

@[simp] theorem limit_chargeAll (m : Meter) (cs : List Charge) :
    (m.chargeAll cs).1.limit = m.limit := by
  induction cs generalizing m with
  | nil => rfl
  | cons c rest ih =>
    unfold chargeAll
    split
    · rename_i h; rw [ih]; exact congrArg (·.1.limit) h.symm
    · rename_i h; exact congrArg (·.1.limit) h.symm

end Meter

/-! The five ways to use a store, with what each answers, changes and costs. The cost depends on the
store as it stands before the access. -/

inductive Access
  | get (key : Bytes)
  | has (key : Bytes)
  | scan (start : Bytes)
  | set (key value : Bytes)
  | erase (key : Bytes)
  deriving DecidableEq, Repr

namespace Access

abbrev Answer : Access → Type
  | get _ => Option Bytes
  | has _ => Bool
  | scan _ => List (Bytes × Bytes)
  | set _ _ | erase _ => Unit

def answer (s : Store) : (a : Access) → a.Answer
  | get key => s.get? key
  | has key => s.contains key
  | scan start => s.scan start
  | set _ _ | erase _ => ()

def effect (s : Store) : Access → Store
  | get _ | has _ | scan _ => s
  | set key value => s.put key value
  | erase key => s.erase key

def readCost : Nat := 1000
def readByteCost : Nat := 3
def writeCost : Nat := 2000
def writeByteCost : Nat := 30
def hasCost : Nat := 1000
def eraseCost : Nat := 1000

def entrySize (key value : Bytes) : Nat := key.length + value.length

def charges (s : Store) : Access → List Charge
  | get key =>
    ⟨"ReadFlat", readCost⟩ ::
      match s.get? key with
      | some value => [⟨"ReadPerByte", readByteCost * entrySize key value⟩]
      | none => []
  | has _ => [⟨"Has", hasCost⟩]
  | scan start =>
    ⟨"IterFlat", readCost⟩ ::
      (s.scan start).map fun (key, value) => ⟨"IterNextPerByte", readByteCost * entrySize key value⟩
  | set key value =>
    [⟨"WriteFlat", writeCost⟩, ⟨"WritePerByte", writeByteCost * entrySize key value⟩]
  | erase _ => [⟨"Delete", eraseCost⟩]

end Access

/-! Computations over a store that pay for each access. A computation is the tree of its accesses; it
sees the store only through their answers, and the meter not at all, so the limit decides no more
than how far it gets. -/

inductive Metered (ε α : Type)
  | done (a : α)
  | fail (e : ε)
  | access (a : Access) (next : a.Answer → Metered ε α)

/-- Why a computation came to no result. -/
inductive Stop (ε : Type)
  | exhausted (x : Exhaustion)
  | failed (e : ε)
  deriving DecidableEq, Repr

/-- Lack of gas passes every translation of errors as it is. -/
def Stop.map (f : ε → ε') : Stop ε → Stop ε'
  | exhausted x => exhausted x
  | failed e => failed (f e)

namespace Metered

def bind : Metered ε α → (α → Metered ε β) → Metered ε β
  | done a, f => f a
  | fail e, _ => fail e
  | access a next, f => access a fun answer => (next answer).bind f

instance : Monad (Metered ε) where
  pure := done
  bind := bind

theorem bind_done (x : Metered ε α) : x.bind done = x := by
  induction x with
  | done | fail => rfl
  | access a next ih => exact congrArg (access a) (funext ih)

theorem bind_assoc (x : Metered ε α) (f : α → Metered ε β) (g : β → Metered ε γ) :
    (x.bind f).bind g = x.bind fun a => (f a).bind g := by
  induction x with
  | done | fail => rfl
  | access a next ih => exact congrArg (access a) (funext ih)

instance : LawfulMonad (Metered ε) := LawfulMonad.mk' _ bind_done (fun _ _ => rfl) bind_assoc

def ofExcept : Except ε α → Metered ε α
  | .ok a => done a
  | .error e => fail e

instance : MonadLift (Except ε) (Metered ε) := ⟨ofExcept⟩

def mapError (f : ε → ε') : Metered ε α → Metered ε' α
  | done a => done a
  | fail e => fail (f e)
  | access a next => access a fun answer => (next answer).mapError f

/-- What a computation leaves behind. -/
structure Outcome (ε α : Type) where
  result : Except (Stop ε) α
  store : Store
  meter : Meter

/-- An access that the meter cannot pay in full has no effect. -/
def run : Metered ε α → Store → Meter → Outcome ε α
  | done a, s, m => ⟨.ok a, s, m⟩
  | fail e, s, m => ⟨.error (.failed e), s, m⟩
  | access a next, s, m =>
    match m.chargeAll (a.charges s) with
    | (m, none) => (next (a.answer s)).run (a.effect s) m
    | (m, some x) => ⟨.error (.exhausted x), s, m⟩

/-- A translation of errors changes nothing but the errors that the computation itself ends with. That the
meter runs out passes every translation as it is. -/
theorem run_mapError (f : ε → ε') (x : Metered ε α) (s : Store) (m : Meter) :
    (x.mapError f).run s m =
      ⟨(x.run s m).result.mapError (Stop.map f), (x.run s m).store, (x.run s m).meter⟩ := by
  induction x generalizing s m with
  | done | fail => rfl
  | access a next ih =>
    simp only [mapError, run]
    split
    · exact ih _ _ _
    · rfl

/-- Runs a computation free of charge. -/
def perform : Metered ε α → Store → Except ε α × Store
  | done a, s => (.ok a, s)
  | fail e, s => (.error e, s)
  | access a next, s => (next (a.answer s)).perform (a.effect s)

def get (key : Bytes) : Metered ε (Option Bytes) := access (.get key) done

def has (key : Bytes) : Metered ε Bool := access (.has key) done

def scan (start : Bytes) : Metered ε (List (Bytes × Bytes)) := access (.scan start) done

def set (key value : Bytes) : Metered ε Unit := access (.set key value) done

def erase (key : Bytes) : Metered ε Unit := access (.erase key) done

end Metered

end LedgerBridge
