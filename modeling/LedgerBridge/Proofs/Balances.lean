import LedgerBridge.Proofs.Records

/-! What the operations of the bank do to the balances and supplies of a map. Each that succeeds moves
coins from one place to another, where one of the places may be outside of the ledger. -/
namespace LedgerBridge

/-- What an account has of a coin that is at one place. -/
def Coin.share (coin : Coin) (place : Option Address) (owner : Address) (denom : String) : Nat :=
  if place = some owner ∧ coin.denom = denom then coin.amount.toNat else 0

namespace Contents

/-- The source held the coin, and has handed it to the target. Nobody else has more or less. -/
structure Moved (v : Contents) (coin : Coin) (source target : Option Address) (w : Contents) :
    Prop where
  covered : ∀ owner, source = some owner →
    coin.amount.toNat ≤ (v.balance owner coin.denom).toNat
  balance : ∀ owner denom, (w.balance owner denom).toNat + coin.share source owner denom =
    (v.balance owner denom).toNat + coin.share target owner denom

variable {u v w : Contents} {coin : Coin} {source middle target : Option Address}

theorem Moved.trans (first : v.Moved coin source middle u) (second : u.Moved coin middle target w) :
    v.Moved coin source target w where
  covered := first.covered
  balance owner denom := by
    have before := first.balance owner denom
    have after := second.balance owner denom
    omega

/-- What follows a movement without touching balances is no part of it. -/
theorem Moved.of_balance_eq (h : v.Moved coin source target u)
    (same : ∀ owner denom, w.balance owner denom = u.balance owner denom) :
    v.Moved coin source target w where
  covered := h.covered
  balance owner denom := by
    rw [same]
    exact h.balance owner denom

/-- What an account loses is the coin, and only the source loses it. -/
theorem Moved.lost (h : v.Moved coin source target w) {owner : Address} {denom : String}
    (less : (w.balance owner denom).toNat < (v.balance owner denom).toNat) :
    source = some owner ∧ coin.denom = denom ∧
      (w.balance owner denom).toNat + coin.amount.toNat = (v.balance owner denom).toNat := by
  have change := h.balance owner denom
  by_cases mine : source = some owner ∧ coin.denom = denom
  · refine ⟨mine.1, mine.2, ?_⟩
    by_cases back : target = some owner ∧ coin.denom = denom
    · simp only [Coin.share, if_pos mine, if_pos back] at change
      omega
    · simp only [Coin.share, if_pos mine, if_neg back] at change
      omega
  · simp only [Coin.share, if_neg mine] at change
    omega

end Contents

namespace Ledger

open Metered

variable {v w : Contents} {owner : Address} {denom : String} {coin : Coin}

theorem sum_eq_ok {a b c : Amount} : sum a b = .ok c ↔ c.toNat = a.toNat + b.toNat := by
  simp only [sum]
  cases total : a.plus? b with
  | none =>
    have beyond : ∀ c : Amount, c.toNat ≠ a.toNat + b.toNat := by
      intro c same
      have fits := Amount.ofNat?_eq_some_iff.mpr same
      rw [show Amount.ofNat? _ = none from total] at fits
      cases fits
    simp [beyond c]
  | some d =>
    have value := Amount.ofNat?_eq_some_iff.mp total
    simp only [Except.ok.injEq]
    constructor
    · rintro rfl
      exact value
    · intro same
      exact BitVec.eq_of_toNat_eq (value.trans same.symm)

theorem gives_amountAt {key : Key} {n : Amount} :
    (do return (← read? .amount key).getD 0 : Ledger Amount).Gives v n w ↔
      v.Readable .amount key ∧ (v.record? .amount key).getD 0 = n ∧ v = w := by
  simp only [gives_bind, gives_read?, gives_pure]
  constructor
  · rintro ⟨_, _, ⟨readable, rfl, rfl⟩, rfl, rfl⟩
    exact ⟨readable, rfl, rfl⟩
  · rintro ⟨readable, rfl, rfl⟩
    exact ⟨_, _, ⟨readable, rfl, rfl⟩, rfl, rfl⟩

@[simp] theorem gives_balance {n : Amount} :
    (balance owner denom).Gives v n w ↔
      v.Readable .amount (.balance owner denom) ∧ v.balance owner denom = n ∧ v = w :=
  gives_amountAt

@[simp] theorem gives_supply {n : Amount} :
    (supply denom).Gives v n w ↔
      v.Readable .amount (.supply denom) ∧ v.supply denom = n ∧ v = w :=
  gives_amountAt

@[simp] theorem gives_setBalance {n : Amount} {done : Unit} :
    (setBalance owner denom n).Gives v done w ↔ v.setBalance owner denom n = w := by
  simp only [setBalance, Contents.setBalance]
  split <;> simp

@[simp] theorem gives_setSupply {n : Amount} {done : Unit} :
    (setSupply denom n).Gives v done w ↔ v.setSupply denom n = w := by
  simp [setSupply, Contents.setSupply]

@[simp] theorem gives_funds {n : Amount} :
    (funds owner coin).Gives v n w ↔
      v.Readable .amount (.balance owner coin.denom) ∧ coin.amount ≤ v.balance owner coin.denom ∧
        v.balance owner coin.denom = n ∧ v = w := by
  simp only [funds, gives_bind, gives_balance]
  constructor
  · rintro ⟨_, _, ⟨readable, rfl, rfl⟩, rest⟩
    split at rest
    · exact absurd rest gives_fail
    · rename_i enough
      exact ⟨readable, BitVec.not_lt.mp enough, gives_pure.mp rest⟩
  · rintro ⟨readable, enough, rfl, rfl⟩
    refine ⟨_, _, ⟨readable, rfl, rfl⟩, ?_⟩
    rw [if_neg (BitVec.not_lt.mpr enough)]
    exact gives_pure.mpr ⟨rfl, rfl⟩

@[simp] theorem gives_debit {done : Unit} :
    (debit owner coin).Gives v done w ↔
      v.Readable .amount (.balance owner coin.denom) ∧ coin.amount ≤ v.balance owner coin.denom ∧
        v.setBalance owner coin.denom ((v.balance owner coin.denom).minus coin.amount) = w := by
  simp only [debit, gives_bind, gives_funds, gives_setBalance]
  constructor
  · rintro ⟨_, _, ⟨readable, enough, rfl, rfl⟩, rfl⟩
    exact ⟨readable, enough, rfl⟩
  · rintro ⟨readable, enough, rfl⟩
    exact ⟨_, _, ⟨readable, enough, rfl, rfl⟩, rfl⟩

@[simp] theorem gives_credit {done : Unit} :
    (credit owner coin).Gives v done w ↔
      v.Readable .amount (.balance owner coin.denom) ∧
        ∃ n, n.toNat = (v.balance owner coin.denom).toNat + coin.amount.toNat ∧
          v.setBalance owner coin.denom n = w := by
  simp only [credit, gives_bind, gives_balance, gives_liftM, sum_eq_ok, gives_setBalance]
  constructor
  · rintro ⟨_, _, ⟨readable, rfl, rfl⟩, n, _, ⟨total, rfl⟩, rfl⟩
    exact ⟨readable, n, total, rfl⟩
  · rintro ⟨readable, n, total, rfl⟩
    exact ⟨_, _, ⟨readable, rfl, rfl⟩, n, _, ⟨total, rfl⟩, rfl⟩

theorem moved_of_debit {done : Unit} (h : (debit owner coin).Gives v done w) :
    v.Moved coin (some owner) none w := by
  obtain ⟨-, enough, rfl⟩ := gives_debit.mp h
  have covered : coin.amount.toNat ≤ (v.balance owner coin.denom).toNat := BitVec.le_def.mp enough
  constructor
  · rintro _ ⟨⟩
    exact covered
  · intro other denom
    by_cases same : owner = other ∧ coin.denom = denom
    · obtain ⟨rfl, rfl⟩ := same
      simp [Coin.share, covered]
    · simp [Coin.share, same]

theorem moved_of_credit {done : Unit} (h : (credit owner coin).Gives v done w) :
    v.Moved coin none (some owner) w := by
  obtain ⟨-, n, total, rfl⟩ := gives_credit.mp h
  constructor
  · rintro _ ⟨⟩
  · intro other denom
    by_cases same : owner = other ∧ coin.denom = denom
    · obtain ⟨rfl, rfl⟩ := same
      simp [Coin.share, total]
    · simp [Coin.share, same]

/-- A single coin is moved from the sender to the recipient, who may be the same. -/
theorem moved_of_send {sender recipient : Address} {done : Unit}
    (h : (send sender recipient [coin]).Gives v done w) :
    v.Moved coin (some sender) (some recipient) w := by
  simp only [send, gives_bind, gives_liftM, gives_forM_cons, gives_forM_nil, gives_discard] at h
  obtain ⟨_, _, ⟨-, rfl⟩, _, _, ⟨_, ⟨_, held⟩, rfl⟩, _, ⟨_, u, paid, received⟩, rfl⟩ := h
  obtain ⟨-, -, -, rfl⟩ := gives_funds.mp held
  exact (moved_of_debit paid).trans (moved_of_credit received)

theorem moved_of_mint {module : String} {done : Unit} (h : (mint module [coin]).Gives v done w) :
    v.Moved coin none (some (.ofModule module)) w := by
  simp only [mint, gives_bind, gives_liftM, gives_forM_cons, gives_forM_nil, gives_supply,
    gives_setSupply] at h
  obtain ⟨_, _, ⟨-, rfl⟩, _, ⟨_, _, ⟨-, -, rfl⟩, _, _, ⟨-, rfl⟩, _, u, created, rfl⟩, rfl⟩ := h
  exact (moved_of_credit created).of_balance_eq fun _ _ => Contents.balance_setSupply ..

theorem moved_of_burn {module : String} {done : Unit} (h : (burn module [coin]).Gives v done w) :
    v.Moved coin (some (.ofModule module)) none w := by
  simp only [burn, gives_bind, gives_liftM, gives_forM_cons, gives_forM_nil, gives_supply,
    gives_setSupply] at h
  obtain ⟨_, _, ⟨-, rfl⟩, _, ⟨_, u, destroyed, _, _, ⟨-, -, rfl⟩, rfl⟩, rfl⟩ := h
  exact (moved_of_debit destroyed).of_balance_eq fun _ _ => Contents.balance_setSupply ..

end Ledger

end LedgerBridge
