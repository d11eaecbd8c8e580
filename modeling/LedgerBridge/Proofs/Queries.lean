import LedgerBridge.Ledger.Bank
import LedgerBridge.Ledger.Channel
import LedgerBridge.Outpost.Swap
import LedgerBridge.Precompile.Gateway
import LedgerBridge.Proofs.Records

/-! Queries change nothing, whether they find what they look for or not. -/
namespace LedgerBridge

namespace Ledger

open Metered

theorem reads_read? (c : Codec α) (key : Key) : Reads (read? c key) := by
  intro v
  rw [evaluate_read?]
  split <;> rfl

theorem reads_readAll (c : Codec α) (area : Key.Area) : Reads (readAll c area) := by
  apply Reads.bind (reads_scan _)
  intro entries
  exact composes_reads.mapM fun _ _ => reads_liftM _

/-- Entries that can all be read are read in their order. -/
theorem gives_mapM_map {f : β → Ledger α} {entry : α → β} {v : Contents} {items : List α}
    (each : ∀ a ∈ items, (f (entry a)).Gives v a v) : ((items.map entry).mapM f).Gives v items v := by
  induction items with
  | nil => exact gives_pure.mpr ⟨rfl, rfl⟩
  | cons a rest ih =>
    obtain ⟨first, others⟩ := List.forall_mem_cons.mp each
    simp only [List.map_cons, List.mapM_cons, gives_bind, gives_pure]
    exact ⟨a, v, first, rest, v, ih others, rfl, rfl⟩

theorem gives_decode {c : Codec α} {v : Contents} {bs : Bytes} {a : α} (read : c.decodeAll bs = .ok a) :
    (decode c bs : Ledger α).Gives v a v := by
  rw [gives_liftM, decode, read]
  exact ⟨rfl, rfl⟩

/-- A listing goes through records in the order of their keys. -/
theorem gives_readAll {c : Codec α} {area : Key.Area} {key : α → Bytes} {v : Contents}
    {items : List α} (sorted : items.Pairwise fun a b => key a < key b)
    (entries : ∀ k bs, area.start <+: k ∧ v.get? k = some bs ↔
      ∃ a ∈ items, key a = k ∧ c.encode a = bs)
    (readable : ∀ a ∈ items, c.decodeAll (c.encode a) = .ok a) :
    (readAll c area).Gives v items v := by
  have within : (v.under area.start).toList = items.map fun a => (key a, c.encode a) := by
    have ordered : (items.map fun a => (key a, c.encode a)).Pairwise (·.1 < ·.1) :=
      List.pairwise_map.mpr sorted
    apply ByteMap.toList_ext (v.under _).sorted ordered
    intro k
    ext1 bs
    rw [ByteMap.lookup_eq_some_iff ordered]
    change (v.under _).get? k = some bs ↔ _
    simp only [ByteMap.get?_under, List.isPrefixOf_iff_prefix, List.mem_map, Prod.mk.injEq,
      ← entries, Option.ite_none_right_eq_some]
  simp only [readAll, gives_bind]
  refine ⟨(v.under area.start).toList, v, rfl, ?_⟩
  rw [within]
  exact gives_mapM_map fun a mem => gives_decode (readable a mem)

theorem reads_balance (owner : Address) (denom : String) : Reads (balance owner denom) := by
  apply Reads.bind (reads_read? _ _)
  intro stored
  exact reads_pure _

theorem reads_supply (denom : String) : Reads (supply denom) := by
  apply Reads.bind (reads_read? _ _)
  intro stored
  exact reads_pure _

theorem reads_balances (owner : Address) : Reads (balances owner) := by
  apply Reads.bind (reads_scan _)
  intro entries
  exact composes_reads.mapM fun _ _ => (reads_liftM _).bind fun _ => reads_pure _

theorem reads_funds (owner : Address) (coin : Coin) : Reads (funds owner coin) := by
  apply Reads.bind (reads_balance owner coin.denom)
  intro available
  split
  · exact reads_fail _
  · exact reads_pure _

theorem reads_grant? (time : UInt64) (granter grantee : Address) (type : String) :
    Reads (grant? time granter grantee type) := by
  apply Reads.bind (reads_read? _ _)
  intro grant
  exact reads_pure _

theorem reads_authorize (time : UInt64) (caller owner : Address) (m : Message) :
    Reads (authorize time caller owner m) := by
  simp only [authorize]
  split
  · exact reads_pure _
  · apply Reads.bind (reads_grant? _ _ _ _)
    intro grant
    cases grant with
    | none => exact reads_fail _
    | some grant => exact Reads.bind (reads_liftM _) fun _ => reads_pure _

theorem reads_allowance (time : UInt64) (owner spender : Address) (denom : String) :
    Reads (allowance time owner spender denom) := by
  simp only [allowance]
  split
  · exact reads_pure _
  · apply Reads.bind (reads_grant? _ _ _ _)
    intro grant
    split <;> exact reads_pure _

theorem reads_pairAt? (token : Address) : Reads (pairAt? token) := by
  apply Reads.bind (reads_get _)
  intro denom
  cases denom with
  | none => exact reads_pure _
  | some denom => exact reads_read? _ _

theorem reads_bondDenom : Reads bondDenom := by
  apply Reads.bind (reads_read? _ _)
  intro stored
  exact reads_pure _

theorem reads_nextSequence (port channel : String) : Reads (nextSequence port channel) := by
  apply Reads.bind (reads_read? _ _)
  intro stored
  exact reads_pure _

end Ledger

theorem Outpost.reads_denomAt (token : Address) : Metered.Reads (denomAt token) := by
  apply Metered.Reads.bind ((Ledger.reads_pairAt? token).mapError _)
  intro pair
  cases pair with
  | none => exact Metered.reads_fail _
  | some pair => exact Metered.reads_pure _

end LedgerBridge
