import LedgerBridge.Proofs.BulkSends
import LedgerBridge.Proofs.Registries

/-! The lists that a genesis goes through: pairs, funds and grants. Each is gone through to the end
exactly if a condition on the list as a whole holds, and then the map holds what the list says, however
often something comes in it. -/
namespace LedgerBridge

namespace Metered

variable {α : Type} {f : α → Metered ε PUnit}

theorem gives_forM_append {items others : List α} {v w : Contents} {done : PUnit} :
    ((items ++ others).forM f).Gives v done w ↔
      ∃ u, (items.forM f).Gives v () u ∧ (others.forM f).Gives u done w := by
  simp only [List.forM_eq_forM, List.forM_append, gives_bind]
  constructor
  · rintro ⟨_, u, before, after⟩
    exact ⟨u, before, after⟩
  · rintro ⟨u, before, after⟩
    exact ⟨(), u, before, after⟩

/-- A loop whose next step succeeds exactly if the item `follows` those before. The lists that it goes
through to the end are those of which `may` holds, and `property` tells what it leaves. -/
structure Extends (f : α → Metered ε PUnit) (may : List α → Prop) (follows : List α → α → Prop)
    (property : List α → Contents → Prop) : Prop where
  nil : may []
  concat : ∀ done a, may (done ++ [a]) ↔ may done ∧ follows done a
  succeeds : ∀ {done a v}, property done v → ((∃ w, (f a).Gives v () w) ↔ follows done a)
  extended : ∀ {done a v w}, property done v → (f a).Gives v () w → property (done ++ [a]) w

theorem Extends.forM {may : List α → Prop} {follows : List α → α → Prop}
    {property : List α → Contents → Prop} (h : Extends f may follows property) {v : Contents}
    (start : property [] v) (items : List α) :
    ((∃ w, (items.forM f).Gives v () w) ↔ may items) ∧
      ∀ w, (items.forM f).Gives v () w → property items w := by
  induction items using List.reverseRecOn with
  | nil => simp [h.nil, start]
  | append_singleton done a ih =>
    obtain ⟨passes, holds⟩ := ih
    have last {u w : Contents} : ([a].forM f).Gives u () w ↔ (f a).Gives u () w := by simp
    simp only [gives_forM_append, last, h.concat]
    refine ⟨⟨?_, ?_⟩, ?_⟩
    · rintro ⟨w, u, before, step⟩
      exact ⟨passes.mp ⟨u, before⟩, (h.succeeds (holds u before)).mp ⟨w, step⟩⟩
    · rintro ⟨may, follows⟩
      obtain ⟨u, before⟩ := passes.mpr may
      obtain ⟨w, step⟩ := (h.succeeds (holds u before)).mpr follows
      exact ⟨w, u, before, step⟩
    · rintro w ⟨u, before, step⟩
      exact h.extended (holds u before) step

end Metered

open Metered

/-! Pairs. -/

namespace PairConfig

/-- A pair whose denomination is one and can be shown. -/
structure Valid (p : PairConfig) : Prop where
  denom : Denom.check p.denom = .ok ()
  name : Metadata.checkName p.name = .ok ()
  symbol : Metadata.checkSymbol p.symbol = .ok ()
  decimals : p.decimals ≤ 18

/-- A pair that can be registered after others: no denomination or address is theirs. -/
structure MayFollow (ps : List PairConfig) (p : PairConfig) : Prop where
  valid : p.Valid
  denom : p.denom ∉ ps.map PairConfig.denom
  address : Address.ofToken p.denom ∉ ps.map fun p => Address.ofToken p.denom

/-- Pairs that can be registered together. -/
structure Registrable (ps : List PairConfig) : Prop where
  valid : ∀ p ∈ ps, p.Valid
  denoms : (ps.map PairConfig.denom).Nodup
  addresses : (ps.map fun p => Address.ofToken p.denom).Nodup

variable {p : PairConfig} {ps : List PairConfig} {v w : Contents}

theorem check_metadata {done : Unit} : p.metadata.check = .ok done ↔ p.Valid := by
  have limited : (if 18 < p.metadata.decimals then .error (.decimals p.metadata.decimals)
      else .ok () : Except FormatError Unit) = .ok done ↔ p.decimals ≤ 18 := by
    by_cases few : p.decimals ≤ 18
    · simp [metadata, few, UInt8.not_lt.mpr few]
    · simp [metadata, few, UInt8.not_le.mp few]
  rw [Metadata.check]
  simp only [bind_eq_ok, limited]
  constructor
  · rintro ⟨_, denom, _, name, _, symbol, decimals⟩
    exact ⟨denom, name, symbol, decimals⟩
  · rintro ⟨denom, name, symbol, decimals⟩
    exact ⟨(), denom, (), name, (), symbol, decimals⟩

theorem Valid.fits (h : p.Valid) : p.metadata.Fits := by
  have name := h.name
  have symbol := h.symbol
  refine ⟨Denom.fits_of_check h.denom, ?_, ?_⟩
  · simp only [Metadata.checkName] at name
    split at name
    · cases name
    · exact Text.fits_of_utf8ByteSize_le 64 (by simp [metadata]; omega) (by decide)
  · simp only [Metadata.checkSymbol] at symbol
    split at symbol
    · cases symbol
    · exact Text.fits_of_utf8ByteSize_le 12 (by simp [metadata]; omega) (by decide)

theorem registrable_concat (ps : List PairConfig) (p : PairConfig) :
    Registrable (ps ++ [p]) ↔ Registrable ps ∧ MayFollow ps p := by
  constructor
  · rintro ⟨valid, denoms, addresses⟩
    obtain ⟨before, last⟩ := List.forall_mem_append.mp valid
    obtain ⟨newDenom, denoms⟩ := (nodup_map_concat _ ps p).mp denoms
    obtain ⟨newAddress, addresses⟩ := (nodup_map_concat _ ps p).mp addresses
    exact ⟨⟨before, denoms, addresses⟩, last p (List.mem_singleton_self p), newDenom, newAddress⟩
  · rintro ⟨⟨before, denoms, addresses⟩, last, newDenom, newAddress⟩
    exact ⟨List.forall_mem_append.mpr ⟨before, List.forall_mem_singleton.mpr last⟩,
      (nodup_map_concat _ ps p).mpr ⟨newDenom, denoms⟩,
      (nodup_map_concat _ ps p).mpr ⟨newAddress, addresses⟩⟩

@[simp] theorem map_denom_pairs (ps : List PairConfig) :
    (ps.map pair).map TokenPair.denom = ps.map PairConfig.denom := by
  rw [List.map_map]
  rfl

@[simp] theorem map_address_pairs (ps : List PairConfig) :
    (ps.map pair).map TokenPair.address = ps.map fun p => Address.ofToken p.denom := by
  rw [List.map_map]
  rfl

end PairConfig

/-- The pairs are registered, and how they are shown is known. -/
structure Contents.Offers (v : Contents) (ps : List PairConfig) : Prop where
  registers : v.Registers (ps.map PairConfig.pair)
  metadata : v.Tabulates .metadata PairConfig.denom (fun p => Metadata.codec.encode p.metadata) ps

namespace Contents

/-- The map with one more pair. -/
def offer (v : Contents) (p : PairConfig) : Contents :=
  Changes.put (v.register p.pair) (Key.metadata p.denom).bytes
    (some (Metadata.codec.encode p.metadata))

variable {v w : Contents} {ps : List PairConfig} {p : PairConfig}

theorem Offers.gives_registerPair (h : v.Offers ps) :
    (Config.registerPair p).Gives v () w ↔ PairConfig.MayFollow ps p ∧ v.offer p = w := by
  simp only [Config.registerPair, Config.ofLedger, gives_bind, gives_mapError,
    h.registers.gives_registerPair, Ledger.setMetadata, gives_liftM, Ledger.require, mapError_eq_ok,
    PairConfig.check_metadata, Ledger.gives_write, Metadata.lawful_codec.writable_iff,
    PairConfig.map_denom_pairs, PairConfig.map_address_pairs]
  constructor
  · rintro ⟨_, _, ⟨-, denom, address, rfl⟩, _, _, ⟨valid, rfl⟩, -, rfl⟩
    exact ⟨⟨valid, denom, address⟩, rfl⟩
  · rintro ⟨⟨valid, denom, address⟩, rfl⟩
    exact ⟨(), _, ⟨valid.denom, denom, address, rfl⟩, (), _, ⟨valid, rfl⟩, valid.fits, rfl⟩

theorem Offers.offer (h : v.Offers ps) (follows : PairConfig.MayFollow ps p) :
    (v.offer p).Offers (ps ++ [p]) where
  registers := by
    have registered : (v.register p.pair).Registers (ps.map PairConfig.pair ++ [p.pair]) := by
      apply h.registers.register (Denom.fits_of_check follows.valid.denom)
      · rw [PairConfig.map_denom_pairs]
        exact follows.denom
      · rw [PairConfig.map_address_pairs]
        exact follows.address
    rw [List.map_append]
    exact registered.put_aside (by simp) (by simp) _
  metadata := Tabulates.put_next
    ((h.metadata.put_aside (by simp) _).put_aside (by simp) _) Key.bytes_metadata_inj.mp p

theorem extends_registerPair :
    Extends Config.registerPair PairConfig.Registrable PairConfig.MayFollow fun ps v => v.Offers ps where
  nil := ⟨nofun, .nil, .nil⟩
  concat := PairConfig.registrable_concat
  succeeds offers := by simp [offers.gives_registerPair]
  extended offers step := by
    obtain ⟨follows, rfl⟩ := offers.gives_registerPair.mp step
    exact offers.offer follows

end Contents

/-! Funds. -/

namespace Endowment

def coin (e : Endowment) : Coin := ⟨e.denom, e.amount⟩

/-- What an account gets of a denomination, all entries together. -/
def totalAt (es : List Endowment) (owner : Address) (denom : String) : Nat :=
  Coin.totalOf ((es.filter (·.address = owner)).map coin) denom

/-- What there is of a denomination, all entries together. -/
def total (es : List Endowment) (denom : String) : Nat := Coin.totalOf (es.map coin) denom

/-- An entry that can be paid out after others. -/
structure MayFollow (es : List Endowment) (e : Endowment) : Prop where
  denom : Denom.check e.denom = .ok ()
  total : total es e.denom + e.amount.toNat < Amount.size

/-- Entries that can be paid out together. -/
structure Payable (es : List Endowment) : Prop where
  denom : ∀ e ∈ es, Denom.check e.denom = .ok ()
  total : ∀ denom, total es denom < Amount.size

theorem totalAt_concat (es : List Endowment) (e : Endowment) (owner : Address) (denom : String) :
    totalAt (es ++ [e]) owner denom = totalAt es owner denom +
      (if e.address = owner ∧ e.denom = denom then e.amount.toNat else 0) := by
  by_cases same : e.address = owner <;> simp [totalAt, same, coin]

theorem total_concat (es : List Endowment) (e : Endowment) (denom : String) :
    total (es ++ [e]) denom = total es denom +
      (if e.denom = denom then e.amount.toNat else 0) := by
  simp [total, coin]

/-- No account gets more than there is. -/
theorem totalAt_le_total (es : List Endowment) (owner : Address) (denom : String) :
    totalAt es owner denom ≤ total es denom := by
  induction es using List.reverseRecOn with
  | nil => exact Nat.le_refl 0
  | append_singleton es e ih =>
    rw [totalAt_concat, total_concat]
    split <;> split <;> simp_all; omega

theorem payable_concat (es : List Endowment) (e : Endowment) :
    Payable (es ++ [e]) ↔ Payable es ∧ MayFollow es e := by
  constructor
  · rintro ⟨denoms, totals⟩
    obtain ⟨before, last⟩ := List.forall_mem_append.mp denoms
    have sum := totals e.denom
    rw [total_concat, if_pos rfl] at sum
    refine ⟨⟨before, fun denom => ?_⟩, last e (List.mem_singleton_self e), sum⟩
    have bound := totals denom
    rw [total_concat] at bound
    exact Nat.lt_of_le_of_lt (Nat.le_add_right _ _) bound
  · rintro ⟨⟨before, totals⟩, last, sum⟩
    refine ⟨List.forall_mem_append.mpr ⟨before, List.forall_mem_singleton.mpr last⟩, fun denom => ?_⟩
    rw [total_concat]
    split
    · rename_i same
      exact same ▸ sum
    · exact totals denom

end Endowment

namespace Contents

/-- Accounts have what was paid out to them, and no more. -/
structure Funded (v : Contents) (es : List Endowment) : Prop extends Legible v where
  balances : ∀ owner denom, (v.balance owner denom).toNat = Endowment.totalAt es owner denom
  supplies : ∀ denom, (v.supply denom).toNat = Endowment.total es denom

variable {v w : Contents} {es : List Endowment} {e : Endowment}

theorem funded_empty : Funded ∅ [] where
  balance _ _ _ := nofun
  supply _ _ := nofun
  balances _ _ := rfl
  supplies _ := rfl

theorem extends_endow :
    Extends (fun e => Config.ofLedger (Ledger.endow e.address ⟨e.denom, e.amount⟩))
      Endowment.Payable Endowment.MayFollow fun es v => v.Funded es where
  nil := ⟨nofun, fun _ => (by decide : 0 < Amount.size)⟩
  concat := Endowment.payable_concat
  succeeds := by
    intro es e v funded
    simp only [Config.ofLedger, gives_mapError, Ledger.gives_endow]
    constructor
    · rintro ⟨_, checked, -, -, n, m, -, sum, -⟩
      rw [funded.supplies] at sum
      exact ⟨checked, sum ▸ m.isLt⟩
    · rintro ⟨checked, sum⟩
      -- What an account has is part of the supply, so the bound on the total is enough for both.
      have share := Endowment.totalAt_le_total es e.address e.denom
      have part : (v.balance e.address e.denom).toNat + e.amount.toNat < 2 ^ 128 := by
        rw [funded.balances]
        exact Nat.lt_of_le_of_lt (Nat.add_le_add_right share _) sum
      have whole : (v.supply e.denom).toNat + e.amount.toNat < 2 ^ 128 := by
        rw [funded.supplies]
        exact sum
      exact ⟨_, checked, funded.balance _ _, funded.supply _, .ofNatLT _ part, .ofNatLT _ whole,
        BitVec.toNat_ofNatLT _ part, BitVec.toNat_ofNatLT _ whole, rfl⟩
  extended := by
    intro es e v w funded step
    simp only [Config.ofLedger, gives_mapError, Ledger.gives_endow] at step
    obtain ⟨-, -, -, n, m, balance, supply, rfl⟩ := step
    refine ⟨(funded.setBalance _ _ _).setSupply _ _, fun owner denom => ?_, fun denom => ?_⟩
    · rw [Endowment.totalAt_concat, balance_setSupply, balance_setBalance, ← funded.balances]
      by_cases same : e.address = owner ∧ e.denom = denom
      · obtain ⟨rfl, rfl⟩ := same
        simpa using balance
      · simp [same]
    · rw [Endowment.total_concat, supply_setSupply, supply_setBalance, ← funded.supplies]
      by_cases same : e.denom = denom
      · subst same
        simpa using supply
      · simp [same]

end Contents

/-! Grants. -/

def GrantKind.messageType : GrantKind → String
  | .send => Message.sendType
  | .transfer => Message.transferType

theorem GrantKind.messageType_injective : Function.Injective messageType := by
  intro k k' same
  cases k <;> cases k'
  case send.send | transfer.transfer => rfl
  case send.transfer | transfer.send => exact absurd same (by decide)

namespace GenesisGrant

/-- Under what a grant is stored. -/
def place (g : GenesisGrant) : Address × Address × GrantKind := (g.granter, g.grantee, g.kind)

def toGrant (g : GenesisGrant) (o : OutpostConfig) : Grant := ⟨g.authorization o, g.expiration⟩

/-- A grant that is still in force at the time. -/
def Lasts (g : GenesisGrant) (time : UInt64) : Prop := ∀ t, g.expiration = some t → time < t

variable {g : GenesisGrant} {time : UInt64} {o : OutpostConfig}

theorem any_expiration : g.expiration.any (· ≤ time) = false ↔ g.Lasts time := by
  cases ends : g.expiration <;> simp [Lasts, ends]

theorem messageType_authorization :
    (g.authorization o).messageType = g.kind.messageType := by
  cases kind : g.kind <;> simp [authorization, kind, Authorization.messageType, GrantKind.messageType]

end GenesisGrant

namespace Contents

/-- The grants are stored: of those that are stored in one place, the last. -/
def Grants (v : Contents) (o : OutpostConfig) (gs : List GenesisGrant) : Prop :=
  v.Tabulates (fun (granter, grantee, kind) => .grant granter grantee kind.messageType)
    GenesisGrant.place (fun g => Grant.codec.encode (g.toGrant o)) gs

variable {v w : Contents} {c : Config} {g : GenesisGrant} {gs : List GenesisGrant}

theorem gives_grant :
    (c.grant g).Gives v () w ↔
      (g.Lasts c.chain.blockTime ∧ (g.authorization c.outpost).Fits) ∧
        Changes.put v (Key.grant g.granter g.grantee g.kind.messageType).bytes
          (some (Grant.codec.encode (g.toGrant c.outpost))) = w := by
  simp only [Config.grant]
  cases ends : g.expiration.any (· ≤ c.chain.blockTime) with
  | true =>
    have expired : ¬ g.Lasts c.chain.blockTime := fun lasts =>
      absurd (GenesisGrant.any_expiration.mpr lasts) (by simp [ends])
    simp [expired]
  | false =>
    have lasts := GenesisGrant.any_expiration.mp ends
    simp [Config.ofLedger, Ledger.gives_saveGrant, Grant.isExpired, ends, lasts,
      GenesisGrant.messageType_authorization, GenesisGrant.toGrant]

theorem extends_grant (c : Config) :
    Extends c.grant
      (fun gs => ∀ g ∈ gs, g.Lasts c.chain.blockTime ∧ (g.authorization c.outpost).Fits)
      (fun _ g => g.Lasts c.chain.blockTime ∧ (g.authorization c.outpost).Fits)
      fun gs v => v.Grants c.outpost gs where
  nil := nofun
  concat gs g := by rw [List.forall_mem_append, List.forall_mem_singleton]
  succeeds granted := by simp [gives_grant]
  extended := by
    intro gs g v w granted step
    obtain ⟨-, rfl⟩ := gives_grant.mp step
    refine Tabulates.put_next granted ?_ g
    rintro ⟨granter, grantee, kind⟩ ⟨granter', grantee', kind'⟩ same
    obtain ⟨rfl, rfl, types⟩ := Key.bytes_grant_inj.mp same
    rw [GrantKind.messageType_injective types]

end Contents

end LedgerBridge
