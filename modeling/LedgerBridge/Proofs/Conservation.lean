import LedgerBridge.Proofs.Agreement
import LedgerBridge.Proofs.Balances
import LedgerBridge.Proofs.Queries
import Mathlib.Algebra.BigOperators.Group.Finset.Piecewise
import Mathlib.Algebra.Order.BigOperators.Group.Finset
import Mathlib.Data.Fintype.BigOperators

/-! The supply of a denomination is what all accounts together have of it. Every operation of the bank
keeps it so, wherever it stops: coins are taken from the supply with the account that they leave, and
added to it with the account that they reach. -/
namespace LedgerBridge

/-! Sums over all accounts. There are finitely many addresses, so what all accounts together have is a
number, and a movement changes it by what crosses the border of the ledger. -/

instance : Finite Address := by
  let digits (a : Address) (i : Fin 20) : Fin UInt8.size :=
    (a.bytes.get (i.cast a.length_eq.symm)).toFin
  apply Finite.of_injective digits
  intro a b same
  apply Address.ext
  apply List.ext_get (a.length_eq.trans b.length_eq.symm)
  intro i left right
  have digit := congrFun same ⟨i, a.length_eq ▸ left⟩
  exact UInt8.toFin_inj.mp digit

noncomputable instance : Fintype Address := Fintype.ofFinite Address

namespace Contents

/-- What all accounts together have of a denomination. -/
noncomputable def total (v : Contents) (denom : String) : Nat :=
  ∑ owner : Address, (v.balance owner denom).toNat

variable {v w : Contents} {coin : Coin} {source target : Option Address} {denom : String}

theorem balance_le_total (v : Contents) (owner : Address) (denom : String) :
    (v.balance owner denom).toNat ≤ v.total denom :=
  Finset.single_le_sum (f := fun owner => (v.balance owner denom).toNat) (fun _ _ => Nat.zero_le _)
    (Finset.mem_univ owner)

/-- A coin that is at some account counts once. -/
theorem sum_share (coin : Coin) (place : Option Address) (denom : String) :
    ∑ owner : Address, coin.share place owner denom =
      if place.isSome ∧ coin.denom = denom then coin.amount.toNat else 0 := by
  cases place with
  | none => simp [Coin.share]
  | some account =>
    by_cases same : coin.denom = denom
    · simp [Coin.share, same]
    · simp [Coin.share, same]

theorem total_moved (h : v.Moved coin source target w) (denom : String) :
    w.total denom + (if source.isSome ∧ coin.denom = denom then coin.amount.toNat else 0) =
      v.total denom + (if target.isSome ∧ coin.denom = denom then coin.amount.toNat else 0) := by
  rw [← sum_share, ← sum_share, total, total, ← Finset.sum_add_distrib, ← Finset.sum_add_distrib]
  exact Finset.sum_congr rfl fun owner _ => h.balance owner denom

theorem total_congr (same : ∀ owner, w.balance owner denom = v.balance owner denom) :
    w.total denom = v.total denom :=
  Finset.sum_congr rfl fun owner _ => congrArg BitVec.toNat (same owner)

end Contents

namespace Contents

/-- Every balance and every supply can be read. -/
structure Legible (v : Contents) : Prop where
  balance : ∀ owner denom, v.Readable .amount (.balance owner denom)
  supply : ∀ denom, v.Readable .amount (.supply denom)

/-- Nothing is in an account that the supply does not count, and the supply counts nothing else. -/
structure Conserved (v : Contents) : Prop extends Legible v where
  total : ∀ denom, v.total denom = (v.supply denom).toNat

variable {u v w : Contents} {coin : Coin} {source target : Option Address}

theorem decodes_amount (n : Amount) :
    ∀ bs, some (Codec.amount.encode n) = some bs → ∃ a, Codec.amount.decodeAll bs = .ok a := by
  rintro _ ⟨⟩
  exact ⟨n, decode_amount n⟩

theorem Legible.setBalance (h : v.Legible) (owner : Address) (denom : String) (n : Amount) :
    (v.setBalance owner denom n).Legible := by
  have written : ∀ bs, (if n = 0 then none else some (Codec.amount.encode n)) = some bs →
      ∃ a, Codec.amount.decodeAll bs = .ok a := by
    split
    · rintro _ ⟨⟩
    · exact decodes_amount n
  exact ⟨fun other d => readable_put written (h.balance other d),
    fun d => readable_put written (h.supply d)⟩

theorem Legible.setSupply (h : v.Legible) (denom : String) (n : Amount) :
    (v.setSupply denom n).Legible :=
  ⟨fun other d => readable_put (decodes_amount n) (h.balance other d),
    fun d => readable_put (decodes_amount n) (h.supply d)⟩

/-- Records of other kinds play no part. -/
theorem Conserved.put {key : Key} (h : v.Conserved) (balance : key.kind ≠ .balance)
    (supply : key.kind ≠ .supply) (change : Option Bytes) :
    Conserved (Changes.put v key.bytes change) where
  balance owner denom := readable_put_of_kind_ne balance (h.balance owner denom)
  supply denom := readable_put_of_kind_ne supply (h.supply denom)
  total denom := by
    rw [total_congr fun owner => balance_put balance owner denom, supply_put supply]
    exact h.total denom

/-- A movement within the ledger leaves the supply, one across its border changes it. -/
theorem Conserved.of_moved (h : v.Conserved) (moved : v.Moved coin source target w)
    (legible : w.Legible)
    (supply : ∀ denom, (w.supply denom).toNat +
        (if target = none ∧ coin.denom = denom then coin.amount.toNat else 0) =
      (v.supply denom).toNat +
        (if source = none ∧ coin.denom = denom then coin.amount.toNat else 0)) :
    w.Conserved where
  toLegible := legible
  total denom := by
    have before := h.total denom
    have sums := total_moved moved denom
    have supplies := supply denom
    by_cases ofDenom : coin.denom = denom
    · cases source <;> cases target <;> simp [ofDenom] at sums supplies <;> omega
    · simp [ofDenom] at sums supplies
      omega

end Contents

namespace Ledger

open Metered Contents

variable {u v w : Contents} {owner : Address} {coin : Coin}

theorem succeeds_setBalance (owner : Address) (denom : String) (n : Amount) :
    Succeeds (setBalance owner denom n) := fun _ => ⟨(), _, gives_setBalance.mpr rfl⟩

theorem succeeds_setSupply (denom : String) (n : Amount) : Succeeds (setSupply denom n) :=
  fun _ => ⟨(), _, gives_setSupply.mpr rfl⟩

theorem clean_debit (owner : Address) (coin : Coin) : Clean (debit owner coin) :=
  (reads_funds owner coin).bind_clean fun _ => (succeeds_setBalance _ _ _).clean

theorem clean_credit (owner : Address) (coin : Coin) : Clean (credit owner coin) :=
  (reads_balance owner coin.denom).bind_clean fun _ => (reads_liftM _).bind_clean fun _ =>
    (succeeds_setBalance _ _ _).clean

theorem legible_of_debit {done : Unit} (h : (debit owner coin).Gives v done w)
    (legible : v.Legible) : w.Legible ∧ ∀ denom, w.supply denom = v.supply denom := by
  obtain ⟨-, -, rfl⟩ := gives_debit.mp h
  exact ⟨legible.setBalance _ _ _, fun denom => supply_setBalance ..⟩

theorem legible_of_credit {done : Unit} (h : (credit owner coin).Gives v done w)
    (legible : v.Legible) : w.Legible ∧ ∀ denom, w.supply denom = v.supply denom := by
  obtain ⟨-, n, -, rfl⟩ := gives_credit.mp h
  exact ⟨legible.setBalance _ _ _, fun denom => supply_setBalance ..⟩

/-- What an account is credited with is added to the supply. -/
theorem conserved_of_issue {done : Unit} {n : Amount} (conserved : v.Conserved)
    (created : (credit owner coin).Gives v done u)
    (sum : n.toNat = (v.supply coin.denom).toNat + coin.amount.toNat) :
    (u.setSupply coin.denom n).Conserved := by
  obtain ⟨legible, same⟩ := legible_of_credit created conserved.toLegible
  have moved := (moved_of_credit created).of_balance_eq fun other denom' =>
    balance_setSupply (v := u) other coin.denom denom' n
  refine conserved.of_moved moved (legible.setSupply _ _) fun denom => ?_
  by_cases ofDenom : coin.denom = denom
  · subst ofDenom
    simp [sum]
  · simp [ofDenom, same]

/-- An account has no more than the supply, so what it is debited with can be taken from the supply. -/
theorem amount_le_supply {done : Unit} (conserved : v.Conserved)
    (h : (debit owner coin).Gives v done u) :
    coin.amount.toNat ≤ (v.supply coin.denom).toNat := by
  have covered := (moved_of_debit h).covered owner rfl
  have bound := balance_le_total v owner coin.denom
  rw [conserved.total] at bound
  exact Nat.le_trans covered bound

/-- What an account is debited with is taken from the supply. -/
theorem conserved_of_burn {done : Unit} (conserved : v.Conserved)
    (destroyed : (debit owner coin).Gives v done u) :
    (u.setSupply coin.denom ((v.supply coin.denom).minus coin.amount)).Conserved := by
  obtain ⟨legible, same⟩ := legible_of_debit destroyed conserved.toLegible
  have enough := amount_le_supply conserved destroyed
  have moved := (moved_of_debit destroyed).of_balance_eq fun other denom' =>
    balance_setSupply (v := u) other coin.denom denom' ((v.supply coin.denom).minus coin.amount)
  refine conserved.of_moved moved (legible.setSupply _ _) fun denom => ?_
  by_cases ofDenom : coin.denom = denom
  · subst ofDenom
    simp [enough]
  · simp [ofDenom, same]

/-- Coins that were debited fit wherever they go: all that is there is no more than the supply. -/
theorem credit_of_debit {done : Unit} (conserved : v.Conserved)
    (paid : (debit owner coin).Gives v done u) (recipient : Address) :
    ∃ w, (credit recipient coin).Gives u () w := by
  obtain ⟨legible, -⟩ := legible_of_debit paid conserved.toLegible
  have sums := total_moved (moved_of_debit paid) coin.denom
  have bound := balance_le_total u recipient coin.denom
  have supply := conserved.total coin.denom
  simp only [Option.isSome_some, Option.isSome_none, true_and, if_true, Bool.false_eq_true,
    false_and, if_false] at sums
  have fits : (u.balance recipient coin.denom).toNat + coin.amount.toNat < 2 ^ 128 := by
    have limit := (v.supply coin.denom).isLt
    omega
  exact ⟨_, gives_credit.mpr ⟨legible.balance _ _, .ofNatLT _ fits, BitVec.toNat_ofNatLT _ fits, rfl⟩⟩

theorem conserved_of_pay {done received : Unit} {recipient : Address} (conserved : v.Conserved)
    (paid : (debit owner coin).Gives v done u) (h : (credit recipient coin).Gives u received w) :
    w.Conserved := by
  obtain ⟨between, first⟩ := legible_of_debit paid conserved.toLegible
  obtain ⟨legible, second⟩ := legible_of_credit h between
  have moved := (moved_of_debit paid).trans (moved_of_credit h)
  refine conserved.of_moved moved legible fun denom => ?_
  simp [first, second]

theorem gives_endow {done : Unit} :
    (endow owner coin).Gives v done w ↔
      coin.check = .ok () ∧ v.Readable .amount (.balance owner coin.denom) ∧
        v.Readable .amount (.supply coin.denom) ∧ ∃ n m : Amount,
          n.toNat = (v.balance owner coin.denom).toNat + coin.amount.toNat ∧
          m.toNat = (v.supply coin.denom).toNat + coin.amount.toNat ∧
          (v.setBalance owner coin.denom n).setSupply coin.denom m = w := by
  simp only [endow, require, gives_bind, gives_liftM, gives_balance, gives_supply, gives_setBalance,
    gives_setSupply, mapError_eq_ok, sum_eq_ok, and_assoc, exists_and_left, exists_eq_left',
    exists_const]
  constructor
  · rintro ⟨_, checked, balance, supply, n, total, m, sum, rfl⟩
    exact ⟨checked, balance, supply, n, total, m, sum, rfl⟩
  · rintro ⟨checked, balance, supply, n, total, m, sum, rfl⟩
    exact ⟨(), checked, balance, supply, n, total, m, sum, rfl⟩

theorem keeps_endow (owner : Address) (coin : Coin) : Keeps Conserved (endow owner coin) := by
  have clean : Clean (endow owner coin) :=
    (reads_liftM _).bind_clean fun _ => (reads_balance _ _).bind_clean fun _ =>
      (reads_supply _).bind_clean fun _ => (reads_liftM _).bind_clean fun _ =>
        (reads_liftM _).bind_clean fun _ =>
          (succeeds_setBalance _ _ _).clean.bind_succeeds fun _ => succeeds_setSupply _ _
  refine clean.keeps fun v _ w conserved run => ?_
  obtain ⟨-, readable, -, n, m, total, sum, rfl⟩ := gives_endow.mp run
  have created : (credit owner coin).Gives v () (v.setBalance owner coin.denom n) :=
    gives_credit.mpr ⟨readable, n, total, rfl⟩
  exact conserved_of_issue conserved created sum

theorem keeps_mint (module : String) (coins : List Coin) : Keeps Conserved (mint module coins) := by
  refine (keeps_liftM _).bind fun _ => composes_keeps.forM fun coin _ => ?_
  have clean : Clean (do
      let supply ← supply coin.denom
      let newSupply ← sum supply coin.amount
      credit (.ofModule module) coin
      setSupply coin.denom newSupply : Ledger Unit) :=
    (reads_supply _).bind_clean fun _ => (reads_liftM _).bind_clean fun _ =>
      (clean_credit _ _).bind_succeeds fun _ => succeeds_setSupply _ _
  refine clean.keeps fun v _ w conserved run => ?_
  simp only [gives_bind, gives_liftM, gives_supply, gives_setSupply, sum_eq_ok, and_assoc,
    exists_and_left, exists_eq_left'] at run
  obtain ⟨-, n, sum, _, u, created, rfl⟩ := run
  exact conserved_of_issue conserved created sum

theorem keeps_destroy (owner : Address) (coin : Coin) :
    Keeps Conserved (do
      debit owner coin
      let supply ← supply coin.denom
      setSupply coin.denom (supply.minus coin.amount) : Ledger Unit) := by
  intro v conserved
  rw [evaluate_bind]
  rcases (clean_debit owner coin).cases v with ⟨_, u, destroyed⟩ | ⟨e, failed⟩
  · obtain ⟨legible, same⟩ := legible_of_debit destroyed conserved.toLegible
    have counted : (supply coin.denom).Gives u (v.supply coin.denom) u :=
      gives_supply.mpr ⟨legible.supply _, same _, rfl⟩
    have stored : (setSupply coin.denom ((v.supply coin.denom).minus coin.amount)).Gives u ()
        (u.setSupply coin.denom ((v.supply coin.denom).minus coin.amount)) :=
      gives_setSupply.mpr rfl
    rw [destroyed]
    simp only
    rw [evaluate_bind, counted]
    simp only
    rw [stored]
    exact conserved_of_burn conserved destroyed
  · rw [failed]
    exact conserved

theorem keeps_burn (module : String) (coins : List Coin) : Keeps Conserved (burn module coins) :=
  (keeps_liftM _).bind fun _ => composes_keeps.forM fun coin _ => keeps_destroy (.ofModule module) coin

theorem keeps_pay (sender recipient : Address) (coin : Coin) :
    Keeps Conserved (do
      debit sender coin
      credit recipient coin : Ledger Unit) := by
  intro v conserved
  rw [evaluate_bind]
  rcases (clean_debit sender coin).cases v with ⟨_, u, paid⟩ | ⟨e, failed⟩
  · obtain ⟨w, received⟩ := credit_of_debit conserved paid recipient
    rw [paid]
    simp only
    rw [received]
    exact conserved_of_pay conserved paid received
  · rw [failed]
    exact conserved

theorem keeps_send (sender recipient : Address) (coins : List Coin) :
    Keeps Conserved (send sender recipient coins) :=
  (keeps_liftM _).bind fun _ => (composes_keeps.forM fun coin _ => (reads_funds sender coin).keeps.discard).bind
    fun _ => composes_keeps.forM fun coin _ => keeps_pay sender recipient coin

/-- Burning that fails where the supply is less than what is burned. -/
def burnExactly (module : String) (coins : List Coin) : Ledger Unit := do
  checkCoins coins
  coins.forM fun coin => do
    debit (.ofModule module) coin
    let supply ← supply coin.denom
    match supply.minus? coin.amount with
    | some rest => setSupply coin.denom rest
    | none => .fail .balanceOverflow

/-- The supply always has what is burned. -/
theorem agree_burn (module : String) (coins : List Coin) :
    Agree Conserved (burn module coins) (burnExactly module coins) := by
  have stored (coin : Coin) (n : Amount) : Agree (fun _ => coin.amount ≤ n)
      (setSupply coin.denom (n.minus coin.amount))
      (match n.minus? coin.amount with
        | some rest => setSupply coin.denom rest
        | none => .fail .balanceOverflow) := by
    intro s m enough
    simp only [Amount.minus?, if_pos enough]
  have checked : ∀ v done w, v.Conserved → Gives (liftM (checkCoins coins)) v done w → w.Conserved :=
    fun v _ w conserved run => (keeps_liftM _).of_gives run conserved
  refine (agree_refl _).bind (fun _ => Conserved) checked fun _ => ?_
  refine Agree.forM (fun coin _ => ?_) fun coin _ => keeps_destroy (.ofModule module) coin
  refine (agree_refl _).bind (fun _ w => coin.amount ≤ w.supply coin.denom) ?_ fun _ => ?_
  · intro v _ w conserved destroyed
    rw [(legible_of_debit destroyed conserved.toLegible).2]
    exact BitVec.le_def.mpr (amount_le_supply conserved destroyed)
  · refine (agree_refl _).bind (fun n _ => coin.amount ≤ n) ?_ fun n => stored coin n
    intro v n w enough counted
    obtain ⟨-, rfl, -⟩ := gives_supply.mp counted
    exact enough

theorem avoids_read? {property : Contents → Prop} (c : Codec α) (key : Key) :
    Avoids property .balanceOverflow (read? c key) := by
  intro v _
  rw [evaluate_read?]
  split
  · simp
  · rename_i bs _
    cases read : c.decodeAll bs <;> simp [decode, read]

theorem avoids_funds {property : Contents → Prop} (owner : Address) (coin : Coin) :
    Avoids property .balanceOverflow (funds owner coin) := by
  refine Avoids.bind ?_ (reads_balance _ _).keeps fun available => ?_
  · exact (avoids_read? _ _).bind (reads_read? _ _).keeps fun _ => avoids_pure _
  · intro v _
    split <;> simp

theorem checkCoins_ne (coins : List Coin) : checkCoins coins ≠ .error .balanceOverflow := by
  induction coins with
  | nil => nofun
  | cons coin rest ih =>
    simp only [checkCoins, List.forM_eq_forM, List.forM_cons] at ih ⊢
    cases checked : coin.check with
    | ok _ => simpa [require, checked] using ih
    | error e => cases e <;> simp [require, LedgerError.ofFormat]

/-- Sending never finds a balance too large for what it adds. -/
theorem avoids_send (sender recipient : Address) (coins : List Coin) :
    Avoids Conserved .balanceOverflow (send sender recipient coins) := by
  refine (avoids_liftM (checkCoins_ne coins)).bind (keeps_liftM _) fun _ => Avoids.bind ?_ ?_ fun _ => ?_
  · exact avoids_forM (fun coin _ => (avoids_funds sender coin).discard (reads_funds _ _).keeps)
      fun coin _ => (reads_funds sender coin).keeps.discard
  · exact composes_keeps.forM fun coin _ => (reads_funds sender coin).keeps.discard
  · refine avoids_forM (fun coin _ => ?_) fun coin _ => keeps_pay sender recipient coin
    intro v conserved
    rw [evaluate_bind]
    rcases (clean_debit sender coin).cases v with ⟨_, u, paid⟩ | ⟨e, failed⟩
    · obtain ⟨w, received⟩ := credit_of_debit conserved paid recipient
      rw [paid]
      simp only
      rw [received]
      nofun
    · have avoided : Avoids Conserved .balanceOverflow (debit sender coin) :=
        (avoids_funds sender coin).bind (reads_funds _ _).keeps fun _ =>
          (succeeds_setBalance _ _ _).avoids
      have other := avoided v conserved
      rw [failed] at other ⊢
      exact other

end Ledger

end LedgerBridge
