import LedgerBridge.Ledger.Authorization
import LedgerBridge.Ledger.Bank
import LedgerBridge.Proofs.Codecs
import LedgerBridge.Proofs.Evaluation
import LedgerBridge.Proofs.Keys

/-! The balances, supplies and grants that a map holds. What cannot be read counts as not being there;
a computation that comes across it fails. -/
namespace LedgerBridge

namespace Contents

/-- The record under a key. -/
def record? (v : Contents) (c : Codec α) (key : Key) : Option α :=
  (v.get? key.bytes).bind fun bs => (c.decodeAll bs).toOption

/-- Whatever stands under the key can be read. -/
def Readable (v : Contents) (c : Codec α) (key : Key) : Prop :=
  ∀ bs, v.get? key.bytes = some bs → ∃ a, c.decodeAll bs = .ok a

def balance (v : Contents) (owner : Address) (denom : String) : Amount :=
  (v.record? .amount (.balance owner denom)).getD 0

def supply (v : Contents) (denom : String) : Amount :=
  (v.record? .amount (.supply denom)).getD 0

def grant? (v : Contents) (granter grantee : Address) (messageType : String) : Option Grant :=
  v.record? Grant.codec (.grant granter grantee messageType)

/-- A grant that is in force at the time. -/
def liveGrant? (v : Contents) (time : UInt64) (granter grantee : Address) (messageType : String) :
    Option Grant :=
  (v.grant? granter grantee messageType).filter fun g => !g.isExpired time

def setBalance (v : Contents) (owner : Address) (denom : String) (amount : Amount) : Contents :=
  Changes.put v (Key.balance owner denom).bytes
    (if amount = 0 then none else some (Codec.amount.encode amount))

def setSupply (v : Contents) (denom : String) (amount : Amount) : Contents :=
  Changes.put v (Key.supply denom).bytes (some (Codec.amount.encode amount))

variable {v : Contents} {key : Key} {change : Option Bytes}

theorem record?_put_same (c : Codec α) :
    record? (Changes.put v key.bytes change) c key =
      change.bind fun bs => (c.decodeAll bs).toOption := by
  simp [record?]

theorem record?_put_of_ne (c : Codec α) {other : Key} (apart : key.bytes ≠ other.bytes) :
    record? (Changes.put v key.bytes change) c other = v.record? c other := by
  simp [record?, apart]

/-- A change under a key of one kind touches no record of another. -/
theorem record?_put_of_kind_ne (c : Codec α) {other : Key} (apart : key.kind ≠ other.kind) :
    record? (Changes.put v key.bytes change) c other = v.record? c other :=
  record?_put_of_ne c (Key.bytes_ne_of_kind_ne apart)

/-- A record that can be read still can after a change, if what is written there can be read. -/
theorem readable_put {c : Codec α} {other : Key}
    (written : ∀ bs, change = some bs → ∃ a, c.decodeAll bs = .ok a)
    (h : v.Readable c other) : Readable (Changes.put v key.bytes change) c other := by
  intro bs found
  rw [Changes.get?_put] at found
  split at found
  · exact written bs found
  · exact h bs found

theorem readable_put_of_kind_ne {c : Codec α} {other : Key} (apart : key.kind ≠ other.kind)
    (h : v.Readable c other) : Readable (Changes.put v key.bytes change) c other := by
  intro bs found
  rw [Changes.get?_put, if_neg (Key.bytes_ne_of_kind_ne apart)] at found
  exact h bs found

@[simp] theorem balance_put (apart : key.kind ≠ .balance) (owner : Address) (denom : String) :
    balance (Changes.put v key.bytes change) owner denom = v.balance owner denom := by
  simp only [balance]
  rw [record?_put_of_kind_ne _ apart]

@[simp] theorem supply_put (apart : key.kind ≠ .supply) (denom : String) :
    supply (Changes.put v key.bytes change) denom = v.supply denom := by
  simp only [supply]
  rw [record?_put_of_kind_ne _ apart]

@[simp] theorem decode_amount (n : Amount) :
    Codec.amount.decodeAll (Codec.amount.encode n) = .ok n :=
  Codec.lawful_amount.decodeAll_encode trivial

@[simp] theorem balance_setBalance (owner other : Address) (denom denom' : String) (n : Amount) :
    (v.setBalance owner denom n).balance other denom' =
      if owner = other ∧ denom = denom' then n else v.balance other denom' := by
  by_cases same : owner = other ∧ denom = denom'
  · obtain ⟨rfl, rfl⟩ := same
    simp only [balance, setBalance]
    rw [record?_put_same]
    split
    · rename_i zero
      simp [zero]
    · simp
  · have apart : (Key.balance owner denom).bytes ≠ (Key.balance other denom').bytes :=
      fun equal => same (Key.bytes_balance_inj.mp equal)
    simp [balance, setBalance, record?_put_of_ne _ apart, same]

@[simp] theorem supply_setBalance (owner : Address) (denom denom' : String) (n : Amount) :
    (v.setBalance owner denom n).supply denom' = v.supply denom' := by
  simp [setBalance]

@[simp] theorem supply_setSupply (denom denom' : String) (n : Amount) :
    (v.setSupply denom n).supply denom' = if denom = denom' then n else v.supply denom' := by
  by_cases same : denom = denom'
  · subst same
    simp [supply, setSupply, record?_put_same]
  · have apart : (Key.supply denom).bytes ≠ (Key.supply denom').bytes :=
      fun equal => same (Key.bytes_supply_inj.mp equal)
    simp [supply, setSupply, record?_put_of_ne _ apart, same]

@[simp] theorem balance_setSupply (owner : Address) (denom denom' : String) (n : Amount) :
    (v.setSupply denom n).balance owner denom' = v.balance owner denom' := by
  simp [setSupply]

end Contents

namespace Ledger

open Metered

variable {v w : Contents}

theorem evaluate_read? (c : Codec α) (key : Key) (v : Contents) :
    (read? c key).evaluate v =
      match v.get? key.bytes with
      | none => (.ok none, v)
      | some bs => ((decode c bs).map some, v) := by
  simp only [read?]
  rw [evaluate_bind, evaluate_get]
  cases v.get? key.bytes with
  | none => rfl
  | some bs =>
    simp only
    rw [bind_pure_comp, evaluate_map, evaluate_liftM]

/-- A record is read unless what stands under its key is none. -/
@[simp] theorem gives_read? {c : Codec α} {key : Key} {found : Option α} :
    (read? c key).Gives v found w ↔ v.Readable c key ∧ v.record? c key = found ∧ v = w := by
  simp only [Gives, Contents.Readable, Contents.record?]
  rw [evaluate_read?]
  cases v.get? key.bytes with
  | none => simp
  | some bs =>
    cases decoded : c.decodeAll bs <;>
      simp [decode, decoded]

@[simp] theorem gives_write {c : Codec α} {key : Key} {a : α} {done : Unit} :
    (write c key a).Gives v done w ↔
      c.writable a ∧ Changes.put v key.bytes (some (c.encode a)) = w := by
  simp only [write]
  split <;> simp_all

@[simp] theorem gives_erase {key : Key} {done : Unit} :
    (erase key).Gives v done w ↔ Changes.put v key.bytes none = w := Metered.gives_erase

end Ledger

end LedgerBridge
