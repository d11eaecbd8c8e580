import LedgerBridge.Proofs.Histories
import Mathlib.Data.Set.List

/-! What the listing of an account's balances shows. Balances of zero are not stored and behind the owner
nothing but a denomination stands in a key, so the listing has each coin of the account once and no
other. -/
namespace LedgerBridge

/-- Behind the same bytes the order is that of what follows them. -/
theorem Bytes.append_left_lt_iff (start : Bytes) {a b : Bytes} : start ++ a < start ++ b ↔ a < b := by
  induction start with
  | nil => rfl
  | cons c rest ih => simp [ih]

namespace Contents

/-- Nothing stands among the balances but what accounts have, and none of it is zero. -/
def Tidy (v : Contents) : Prop :=
  ∀ k bs, Key.Kind.balance.head <+: k → v.get? k = some bs →
    ∃ owner denom n, (Key.balance owner denom).bytes = k ∧ n ≠ 0 ∧ Codec.amount.encode n = bs

variable {v : Contents}

theorem tidy_empty : Tidy ∅ := fun _ _ _ => nofun

theorem Tidy.put (h : v.Tidy) {key : Key} (apart : key.kind ≠ .balance) (change : Option Bytes) :
    Tidy (Changes.put v key.bytes change) := by
  intro k bs among found
  rw [Changes.get?_put] at found
  split at found
  · rename_i same
    rw [← same] at among
    exact absurd (Key.kind_eq_of_head_isPrefix among).symm apart
  · exact h k bs among found

theorem Tidy.setBalance (h : v.Tidy) (owner : Address) (denom : String) (n : Amount) :
    (v.setBalance owner denom n).Tidy := by
  intro k bs among found
  rw [Contents.setBalance, Changes.get?_put] at found
  split at found
  · rename_i same
    split at found
    · cases found
    · rename_i some
      exact ⟨owner, denom, n, same, some, Option.some.inj found⟩
  · exact h k bs among found

/-- What stands under the key of a balance is the balance, and nothing stands for zero. -/
theorem Tidy.get?_eq_some_iff (h : v.Tidy) {owner : Address} {denom : String} {bs : Bytes} :
    v.get? (Key.balance owner denom).bytes = some bs ↔
      v.balance owner denom ≠ 0 ∧ Codec.amount.encode (v.balance owner denom) = bs := by
  have stands {bs : Bytes} (found : v.get? (Key.balance owner denom).bytes = some bs) :
      v.balance owner denom ≠ 0 ∧ Codec.amount.encode (v.balance owner denom) = bs := by
    obtain ⟨_, _, n, -, some, rfl⟩ := h _ bs (Key.head_isPrefix (.balance owner denom)) found
    have value : v.balance owner denom = n := by simp [Contents.balance, record?, found]
    rw [value]
    exact ⟨some, rfl⟩
  refine ⟨stands, ?_⟩
  rintro ⟨some, rfl⟩
  cases found : v.get? (Key.balance owner denom).bytes with
  | none => simp [Contents.balance, record?, found] at some
  | some bs => rw [(stands found).2]

theorem Tidy.readable (h : v.Tidy) (owner : Address) (denom : String) :
    v.Readable .amount (.balance owner denom) := by
  intro bs found
  obtain ⟨-, rfl⟩ := h.get?_eq_some_iff.mp found
  exact ⟨_, decode_amount _⟩

end Contents

namespace Ledger

open Metered Contents

theorem tidy_setBalance (owner : Address) (denom : String) (n : Amount) :
    Keeps Tidy (setBalance owner denom n) := by
  refine (succeeds_setBalance owner denom n).clean.keeps fun v _ w tidy run => ?_
  obtain rfl := gives_setBalance.mp run
  exact tidy.setBalance owner denom n

theorem tidy_setSupply (denom : String) (n : Amount) : Keeps Tidy (setSupply denom n) := by
  refine (succeeds_setSupply denom n).clean.keeps fun v _ w tidy run => ?_
  obtain rfl := gives_setSupply.mp run
  exact tidy.put (by simp) _

theorem tidy_debit (owner : Address) (coin : Coin) : Keeps Tidy (debit owner coin) :=
  (reads_funds owner coin).keeps.bind fun _ => tidy_setBalance _ _ _

theorem tidy_credit (owner : Address) (coin : Coin) : Keeps Tidy (credit owner coin) :=
  (reads_balance _ _).keeps.bind fun _ => (keeps_liftM _).bind fun _ => tidy_setBalance _ _ _

theorem kept_tidy : Kept Tidy where
  endow _ _ :=
    (keeps_liftM _).bind fun _ => (reads_balance _ _).keeps.bind fun _ =>
      (reads_supply _).keeps.bind fun _ => (keeps_liftM _).bind fun _ =>
        (keeps_liftM _).bind fun _ => (tidy_setBalance _ _ _).bind fun _ => tidy_setSupply _ _
  send sender recipient _ :=
    (keeps_liftM _).bind fun _ =>
      (composes_keeps.forM fun coin _ => (reads_funds sender coin).keeps.discard).bind fun _ =>
        composes_keeps.forM fun coin _ => (tidy_debit sender coin).bind fun _ => tidy_credit recipient coin
  mint _ _ :=
    (keeps_liftM _).bind fun _ => composes_keeps.forM fun coin _ => (reads_supply _).keeps.bind fun _ =>
      (keeps_liftM _).bind fun _ => (tidy_credit _ coin).bind fun _ => tidy_setSupply _ _
  burn _ _ :=
    (keeps_liftM _).bind fun _ => composes_keeps.forM fun coin _ => (tidy_debit _ coin).bind fun _ =>
      (reads_supply _).keeps.bind fun _ => tidy_setSupply _ _
  aside _ _ change aside tidy := tidy.put aside.1 change

variable {v : Contents} {owner : Address}

/-- The entry of a coin among the balances of an account. -/
def entry (owner : Address) (coin : Coin) : Bytes × Bytes :=
  ((Key.balance owner coin.denom).bytes, Codec.amount.encode coin.amount)

theorem entry_injective (owner : Address) : Function.Injective (entry owner) := by
  intro coin other same
  obtain ⟨keys, values⟩ := Prod.mk.inj same
  have denoms := (Key.bytes_balance_inj.mp keys).2
  have read := congrArg Codec.amount.decodeAll values
  rw [decode_amount, decode_amount] at read
  cases coin
  cases other
  cases denoms
  cases Except.ok.inj read
  rfl

/-- All that is listed for an account are entries of coins. -/
theorem exists_entries (tidy : v.Tidy) (owner : Address) :
    ∃ coins : List Coin, coins.map (entry owner) = (v.under (Key.Area.balances owner).start).toList := by
  rw [← Set.mem_range, Set.range_list_map]
  rintro ⟨k, bs⟩ mem
  have found := (v.under _).mem_toList_iff.mp mem
  simp only [ByteMap.get?_under, List.isPrefixOf_iff_prefix, Option.ite_none_right_eq_some] at found
  obtain ⟨among, stored⟩ := found
  have head : Key.Kind.balance.head <+: (Key.Area.balances owner).start := by
    simp [Key.Kind.head, Key.Area.start]
  obtain ⟨other, denom, n, rfl, -, rfl⟩ := tidy k bs (head.trans among) stored
  obtain rfl := Key.balances_isPrefix_iff.mp among
  exact ⟨⟨denom, n⟩, rfl⟩

/-- A coin is listed if the account has that much of its denomination, and it is not zero. -/
theorem entry_mem_iff (tidy : v.Tidy) (owner : Address) (coin : Coin) :
    entry owner coin ∈ (v.under (Key.Area.balances owner).start).toList ↔
      v.balance owner coin.denom = coin.amount ∧ coin.amount ≠ 0 := by
  have among : (Key.Area.balances owner).start <+: (Key.balance owner coin.denom).bytes :=
    Key.balances_isPrefix_iff.mpr rfl
  simp only [entry, ByteMap.mem_toList_iff, ByteMap.get?_under, List.isPrefixOf_iff_prefix,
    if_pos among]
  rw [tidy.get?_eq_some_iff]
  constructor
  · rintro ⟨some, same⟩
    have read := congrArg Codec.amount.decodeAll same
    rw [decode_amount, decode_amount] at read
    obtain value := Except.ok.inj read
    exact ⟨value, value ▸ some⟩
  · rintro ⟨value, some⟩
    rw [value]
    exact ⟨some, rfl⟩

theorem gives_balances {coins : List Coin}
    (entries : coins.map (entry owner) = (v.under (Key.Area.balances owner).start).toList) :
    (balances owner).Gives v coins v := by
  simp only [balances, gives_bind]
  refine ⟨(v.under (Key.Area.balances owner).start).toList, v, rfl, ?_⟩
  rw [← entries]
  refine gives_mapM_map fun coin _ => ?_
  have denom : (Key.balance owner coin.denom).bytes.drop (Key.Area.balances owner).start.length =
      Bytes.ofString coin.denom := List.drop_left
  simp only [entry, denom, Utf8.readLossy_ofString, gives_bind, gives_pure]
  exact ⟨coin.amount, v, gives_decode (decode_amount _), rfl, rfl⟩

theorem denoms_sorted {coins : List Coin}
    (entries : coins.map (entry owner) = (v.under (Key.Area.balances owner).start).toList) :
    coins.Pairwise (Bytes.ofString ·.denom < Bytes.ofString ·.denom) := by
  have sorted := (v.under (Key.Area.balances owner).start).sorted
  change (v.under (Key.Area.balances owner).start).toList.Pairwise _ at sorted
  rw [← entries, List.pairwise_map] at sorted
  exact sorted.imp (Bytes.append_left_lt_iff _).mp

end Ledger

namespace Reached

open Metered Contents

variable {s : Store}

theorem tidy (h : Reached s) : s.contents.Tidy := h.of_kept Ledger.kept_tidy tidy_empty

theorem balance_run (h : Reached s) (owner : Address) (denom : String) :
    ((Ledger.balance owner denom).run s .unbounded).result = .ok (s.contents.balance owner denom) := by
  have read := Ledger.gives_balance.mpr ⟨h.tidy.readable owner denom, rfl, rfl⟩
  rw [run_of_limit_eq_cap _ s .unbounded rfl (Nat.zero_le _), perform_of_gives read]
  rfl

/-- In every ledger that can be reached, by whatever operations and calls, an account's listing has the
coins of the account in the order of their denominations: each that is not zero, with its balance, and
nothing else. No balance of zero is stored. -/
theorem balances_exact (h : Reached s) (owner : Address) :
    (∃ coins, ((Ledger.balances owner).run s .unbounded).result = .ok coins ∧
      coins.Pairwise (Bytes.ofString ·.denom < Bytes.ofString ·.denom) ∧
      ∀ denom n, ⟨denom, n⟩ ∈ coins ↔
        ((Ledger.balance owner denom).run s .unbounded).result = .ok n ∧ 0 < n) ∧
    ∀ denom bs, s.get? (Key.balance owner denom).bytes = some bs →
      ∃ n, 0 < n ∧ Codec.amount.encode n = bs := by
  have positive (n : Amount) : 0 < n ↔ n ≠ 0 := BitVec.pos_iff_ne_zero n
  constructor
  · obtain ⟨coins, entries⟩ := Ledger.exists_entries h.tidy owner
    have listed := Ledger.gives_balances entries
    refine ⟨coins, ?_, Ledger.denoms_sorted entries, fun denom n => ?_⟩
    · rw [run_of_limit_eq_cap _ s .unbounded rfl (Nat.zero_le _), perform_of_gives listed]
      rfl
    · rw [← List.mem_map_of_injective (Ledger.entry_injective owner), entries,
        Ledger.entry_mem_iff h.tidy, h.balance_run, Except.ok.injEq, positive]
  · intro denom bs stored
    have found : s.contents.get? (Key.balance owner denom).bytes = some bs :=
      (s.get?_view _).trans stored
    obtain ⟨some, value⟩ := h.tidy.get?_eq_some_iff.mp found
    exact ⟨_, (positive _).mpr some, value⟩

/-- An account whose address looks like separators, and funds for it and for its neighbour. -/
def slashes : Address := ⟨List.replicate 20 0x2F, rfl⟩

def endowed : Store :=
  let first := (Ledger.endow slashes ⟨"ubridge", 7⟩).run ∅ .unbounded
  let second := (Ledger.endow ⟨List.replicate 19 0x2F ++ [0x30], rfl⟩ ⟨"abridge", 9⟩).run first.store
    .unbounded
  ((Ledger.endow slashes ⟨"abridge", 5⟩).run second.store .unbounded).store

theorem balances_exact_of_slashes :
    ∃ coins, ((Ledger.balances slashes).run endowed .unbounded).result = .ok coins ∧
      (⟨"abridge", 5⟩ : Coin) ∈ coins ∧ ⟨"ubridge", 7⟩ ∈ coins ∧ ⟨"abridge", 9⟩ ∉ coins := by
  have step {s : Store} (h : Reached s) (owner : Address) (coin : Coin) :
      Reached ((Ledger.endow owner coin).run s .unbounded).store :=
    .operation h (.endow owner coin) .unbounded rfl (Nat.zero_le _)
  have reached : Reached endowed := step (step (step .empty _ _) _ _) _ _
  obtain ⟨⟨coins, listed, -, exactly⟩, -⟩ := balances_exact reached slashes
  refine ⟨coins, listed, ?_, ?_, ?_⟩
  all_goals rw [exactly]
  all_goals decide +kernel

end Reached

end LedgerBridge
