import LedgerBridge.Ledger.Record

/-! The keys of different records are different. The first bytes of a key say what kind of record it
is, and behind them accounts have a fixed length, so nothing runs into what follows it. -/
namespace LedgerBridge.Key

/-- The kinds of records. -/
inductive Kind
  | balance
  | supply
  | metadata
  | grant
  | pair
  | pairAddress
  | stakingParams
  | channel
  | sequence
  | packet
  deriving DecidableEq

@[simp, reducible] def kind : Key → Kind
  | balance .. => .balance
  | supply _ => .supply
  | metadata _ => .metadata
  | grant .. => .grant
  | pair _ => .pair
  | pairAddress _ => .pairAddress
  | stakingParams => .stakingParams
  | channel .. => .channel
  | sequence .. => .sequence
  | packet .. => .packet

/-- The record tells of nothing that left over a channel. -/
def IsLocal (key : Key) : Prop := key.kind ≠ .sequence ∧ key.kind ≠ .packet

theorem isLocal_balance (owner : Address) (denom : String) : (balance owner denom).IsLocal :=
  ⟨nofun, nofun⟩

theorem isLocal_supply (denom : String) : (supply denom).IsLocal := ⟨nofun, nofun⟩

/-- The record is of one of these kinds. -/
def Among (kinds : List Kind) (key : Key) : Prop := key.kind ∈ kinds

theorem Among.ne {kinds : List Kind} {kind : Kind} (absent : kind ∉ kinds) {key : Key}
    (inside : key.Among kinds) : key.kind ≠ kind := fun same => absent (same ▸ inside)

/-- What the keys of a kind of record begin with. -/
def Kind.head : Kind → Bytes
  | balance => Bytes.ofString "bank/bal/"
  | supply => Bytes.ofString "bank/supply/"
  | metadata => Bytes.ofString "bank/meta/"
  | grant => Bytes.ofString "authz/"
  | pair => Bytes.ofString "erc20/pair/"
  | pairAddress => Bytes.ofString "erc20/addr/"
  | stakingParams => Bytes.ofString "staking/params"
  | channel => Bytes.ofString "transfer/channel/"
  | sequence => Bytes.ofString "transfer/seq/"
  | packet => Bytes.ofString "transfer/packet/"

theorem Kind.eq_of_head_isPrefix (a b : Kind) : a.head <+: b.head → a = b := by
  cases a <;> cases b <;> decide

theorem head_isPrefix (key : Key) : key.kind.head <+: key.bytes := by
  cases key <;> simp [Kind.head, bytes, Area.start]

/-- The first bytes of a key are those of its own kind only. -/
theorem kind_eq_of_head_isPrefix {kind : Kind} {key : Key} (h : kind.head <+: key.bytes) :
    kind = key.kind := by
  rcases List.prefix_or_prefix_of_prefix h (head_isPrefix key) with shorter | longer
  · exact Kind.eq_of_head_isPrefix _ _ shorter
  · exact (Kind.eq_of_head_isPrefix _ _ longer).symm

/-- No kind of record has keys among those of another. -/
theorem kind_eq_of_bytes_eq {key other : Key} (same : key.bytes = other.bytes) :
    key.kind = other.kind := by
  have first := head_isPrefix key
  rw [same] at first
  exact kind_eq_of_head_isPrefix first

theorem bytes_ne_of_kind_ne {key other : Key} (apart : key.kind ≠ other.kind) :
    key.bytes ≠ other.bytes := fun same => apart (kind_eq_of_bytes_eq same)

@[simp] theorem bytes_balance_inj {owner owner' : Address} {denom denom' : String} :
    (balance owner denom).bytes = (balance owner' denom').bytes ↔
      owner = owner' ∧ denom = denom' := by
  constructor
  · intro same
    simp only [bytes, Area.start, List.append_assoc, List.append_cancel_left_eq] at same
    obtain ⟨owners, rest⟩ := List.append_inj same (by rw [owner.length_eq, owner'.length_eq])
    have denoms := List.append_cancel_left rest
    exact ⟨Address.ext owners, Bytes.ofString_injective denoms⟩
  · rintro ⟨rfl, rfl⟩
    rfl

@[simp] theorem bytes_supply_inj {denom denom' : String} :
    (supply denom).bytes = (supply denom').bytes ↔ denom = denom' := Bytes.append_ofString_inj

@[simp] theorem bytes_grant_inj {granter granter' grantee grantee' : Address} {type type' : String} :
    (grant granter grantee type).bytes = (grant granter' grantee' type').bytes ↔
      granter = granter' ∧ grantee = grantee' ∧ type = type' := by
  constructor
  · intro same
    simp only [bytes, List.append_assoc, List.append_cancel_left_eq] at same
    obtain ⟨granters, rest⟩ :=
      List.append_inj same (by rw [granter.length_eq, granter'.length_eq])
    obtain ⟨grantees, types⟩ :=
      List.append_inj rest (by rw [grantee.length_eq, grantee'.length_eq])
    exact ⟨Address.ext granters, Address.ext grantees, Bytes.ofString_injective types⟩
  · rintro ⟨rfl, rfl, rfl⟩
    rfl

@[simp] theorem bytes_pair_inj {denom denom' : String} :
    (pair denom).bytes = (pair denom').bytes ↔ denom = denom' := Bytes.append_ofString_inj

@[simp] theorem bytes_pairAddress_inj {a b : Address} :
    (pairAddress a).bytes = (pairAddress b).bytes ↔ a = b := by
  constructor
  · intro same
    exact Address.ext (List.append_cancel_left same)
  · rintro rfl
    rfl

@[simp] theorem bytes_metadata_inj {denom denom' : String} :
    (metadata denom).bytes = (metadata denom').bytes ↔ denom = denom' := Bytes.append_ofString_inj

/-- Among the keys of an account's balances no balance of another account stands. -/
theorem balances_isPrefix_iff {owner other : Address} {denom : String} :
    (Area.balances owner).start <+: (balance other denom).bytes ↔ other = owner := by
  constructor
  · rintro ⟨rest, same⟩
    simp only [bytes, Area.start, List.append_assoc, List.append_cancel_left_eq] at same
    obtain ⟨owners, -⟩ := List.append_inj same (by rw [owner.length_eq, other.length_eq])
    exact Address.ext owners.symm
  · rintro rfl
    exact List.prefix_append _ _

end LedgerBridge.Key
