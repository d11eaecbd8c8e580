import LedgerBridge.Proofs.GenesisStates
import LedgerBridge.Proofs.Spending

/-! The grants that a chain starts with. There is one for each granter, grantee and kind, and an entry for
these writes over those before it, whatever denomination they are for. So of entries that differ in
nothing but that, the last is in force and the others are lost. -/
namespace LedgerBridge

open Metered

/-- From the end, the last of those that pass is found first. -/
theorem find?_reverse_of_last {p : α → Bool} {before after : List α} {a : α} (passes : p a = true)
    (last : ∀ b ∈ after, p b = false) : (before ++ a :: after).reverse.find? p = some a := by
  have none : after.reverse.find? p = none := by
    rw [List.find?_eq_none]
    intro b member
    simp [last b (List.mem_reverse.mp member)]
  simp [List.find?_append, none, passes]

/-- What is found from the end is no earlier than the others that pass. -/
theorem exists_find?_reverse_of_mem (p : α → Bool) (before : List α) {after : List α} {b : α}
    (member : b ∈ after) (passes : p b = true) :
    ∃ last, (before ++ after).reverse.find? p = some last ∧ last ∈ after := by
  cases found : after.reverse.find? p with
  | none =>
    rw [List.find?_eq_none] at found
    exact absurd passes (found b (List.mem_reverse.mpr member))
  | some last =>
    exact ⟨last, by simp [List.find?_append, found],
      List.mem_reverse.mp (List.mem_of_find?_eq_some found)⟩

theorem Limits.limit?_singleton (denom denom' : String) (amount : Amount) :
    Limits.limit? [⟨denom, amount⟩] denom' = if denom = denom' then some amount else none := by
  by_cases same : denom = denom' <;> simp [limit?, same]

namespace Config

variable {c : Config} {v : Contents} {s : Store} {g last : GenesisGrant}

/-- The entry that a grant comes from, if there is any for these accounts. -/
def lastFor (c : Config) (granter grantee : Address) (kind : GrantKind) : Option GenesisGrant :=
  c.genesis.grants.reverse.find? (·.place = (granter, grantee, kind))

theorem mem_of_lastFor {granter grantee : Address} {kind : GrantKind}
    (h : c.lastFor granter grantee kind = some g) :
    g ∈ c.genesis.grants ∧ g.place = (granter, grantee, kind) := by
  rw [lastFor] at h
  exact ⟨List.mem_reverse.mp (List.mem_of_find?_eq_some h), by simpa using List.find?_some h⟩

/-- The entry is in force: what it permits is what the ledger tells at the start. -/
def InForce (c : Config) (s : Store) (g : GenesisGrant) : Prop :=
  match g.kind with
  | .send =>
    ((Ledger.allowance c.chain.blockTime g.granter g.grantee g.denom).perform s).1 =
      .ok (.limited g.spendLimit)
  | .transfer => ∃ allocations expiration,
    ((Ledger.grant? c.chain.blockTime g.granter g.grantee Message.transferType).perform s).1 =
        .ok (some ⟨.transfer allocations, expiration⟩) ∧
      ∃ a ∈ allocations, a.port = c.outpost.port ∧ a.channel = c.outpost.channel ∧
        a.limits.limit? g.denom = some g.spendLimit

theorem Describes.grant? (h : c.Describes v) (granter grantee : Address) (kind : GrantKind) :
    v.Readable Grant.codec (.grant granter grantee kind.messageType) ∧
      v.grant? granter grantee kind.messageType =
        (c.lastFor granter grantee kind).map (·.toGrant c.outpost) := by
  have stored := h.grants (granter, grantee, kind)
  simp only [Contents.Readable, Contents.grant?, Contents.record?] at stored ⊢
  rw [stored]
  rw [← lastFor]
  cases found : c.lastFor granter grantee kind with
  | none => simp
  | some g =>
    have member := (mem_of_lastFor found).1
    have read : Grant.codec.decodeAll (Grant.codec.encode (g.toGrant c.outpost)) =
        .ok (g.toGrant c.outpost) := Grant.lawful_codec.decodeAll_encode (h.written g member)
    simp [read]

/-- No grant has expired at the start. -/
theorem Describes.liveGrant? (h : c.Describes v) (startable : c.Startable) (granter grantee : Address)
    (kind : GrantKind) :
    v.liveGrant? c.chain.blockTime granter grantee kind.messageType =
      (c.lastFor granter grantee kind).map (·.toGrant c.outpost) := by
  rw [Contents.liveGrant?, (h.grant? granter grantee kind).2]
  cases found : c.lastFor granter grantee kind with
  | none => rfl
  | some g =>
    have lasts := GenesisGrant.any_expiration.mpr (startable.grants g (mem_of_lastFor found).1)
    simp [GenesisGrant.toGrant, Grant.isExpired, lasts]

/-- What the last entry for the accounts permits is all that is in force. -/
theorem inForce_iff (started : c.initialStore = .ok s) (positive : 0 < g.spendLimit)
    (others : g.kind = .send → g.granter ≠ g.grantee)
    (found : c.lastFor g.granter g.grantee g.kind = some last) :
    c.InForce s g ↔ last.denom = g.denom ∧ last.spendLimit = g.spendLimit := by
  obtain ⟨startable, described⟩ := describes_of_genesis? (gives_of_initialStore started)
  have live := described.liveGrant? startable g.granter g.grantee g.kind
  have readable := (described.grant? g.granter g.grantee g.kind).1
  have kind : last.kind = g.kind := congrArg (·.2.2) (mem_of_lastFor found).2
  rw [found, Option.map_some] at live
  cases of : g.kind with
  | send =>
    rw [of] at live readable kind
    have told := perform_of_gives
      (Ledger.gives_allowance readable (others of) c.chain.blockTime g.denom)
    have limits : s.contents.sendLimits c.chain.blockTime g.granter g.grantee =
        [⟨last.denom, last.spendLimit⟩] := by
      rw [Contents.sendLimits, show Message.sendType = GrantKind.send.messageType from rfl, live]
      simp [GenesisGrant.toGrant, GenesisGrant.authorization, kind]
    simp only [InForce, of]
    rw [told, Contents.allowance, limits, Limits.limit, Limits.limit?_singleton]
    by_cases same : last.denom = g.denom
    · simp [same]
    · simpa [same] using Ne.symm (BitVec.ne_of_lt positive).symm
  | transfer =>
    rw [of] at live readable kind
    have told := perform_of_gives (Ledger.gives_grant?.mpr ⟨readable, live, rfl⟩)
    have stored : last.toGrant c.outpost = ⟨.transfer [⟨c.outpost.port, c.outpost.channel,
        [⟨last.denom, last.spendLimit⟩], []⟩], last.expiration⟩ := by
      simp [GenesisGrant.toGrant, GenesisGrant.authorization, kind]
    rw [stored] at told
    simp only [InForce, of]
    rw [show Message.transferType = GrantKind.transfer.messageType from rfl, told]
    simp [Limits.limit?_singleton]

/-- What there is of grants at the start comes from the last entry for each granter, grantee and kind.
Where entries differ in the denomination at least, one is in force exactly if none for the same accounts
and of the same kind comes after it. -/
theorem inForce_iff_last (started : c.initialStore = .ok s)
    (distinct : c.genesis.grants.Pairwise fun g g' => ¬ (g.place = g'.place ∧ g.denom = g'.denom))
    (positive : ∀ g ∈ c.genesis.grants, 0 < g.spendLimit) :
    (∀ granter grantee kind,
      ((Ledger.grant? c.chain.blockTime granter grantee kind.messageType).perform s).1 =
        .ok ((c.lastFor granter grantee kind).map (·.toGrant c.outpost))) ∧
    ∀ before g after, c.genesis.grants = before ++ g :: after →
      (g.kind = .send → g.granter ≠ g.grantee) →
        (c.InForce s g ↔ ∀ later ∈ after, later.place ≠ g.place) := by
  obtain ⟨startable, described⟩ := describes_of_genesis? (gives_of_initialStore started)
  constructor
  · intro granter grantee kind
    have readable := (described.grant? granter grantee kind).1
    have live := described.liveGrant? startable granter grantee kind
    exact perform_of_gives (Ledger.gives_grant?.mpr ⟨readable, live, rfl⟩)
  · intro before g after split others
    have limited : 0 < g.spendLimit := positive g (by simp [split])
    constructor
    · intro inForce later member same
      obtain ⟨last, found, after'⟩ := exists_find?_reverse_of_mem
        (fun later => later.place = g.place) (before ++ [g]) member (decide_eq_true same)
      have entry : c.lastFor g.granter g.grantee g.kind = some last := by
        rw [lastFor, split, List.append_cons]
        exact found
      have apart := (List.pairwise_cons.mp (List.pairwise_append.mp (split ▸ distinct)).2.1).1
      exact apart last after' ⟨(mem_of_lastFor entry).2.symm,
        ((inForce_iff started limited others entry).mp inForce).1.symm⟩
    · intro last
      have found : c.lastFor g.granter g.grantee g.kind = some g := by
        rw [lastFor, split]
        exact find?_reverse_of_last (decide_eq_true rfl) fun later member =>
          decide_eq_false (last later member)
      exact (inForce_iff started limited others found).mpr ⟨rfl, rfl⟩

/-- Two accounts, and limits for two denominations between them. -/
def ofTwoLimits : Config :=
  { standard with
    genesis := { GenesisConfig.standard with
      grants := [⟨.send, developer, .zero, "abridge", 10, none⟩,
        ⟨.transfer, developer, .zero, "abridge", 5, some 1800000000⟩,
        ⟨.send, developer, .zero, "ubridge", 20, none⟩] } }

theorem inForce_iff_last_of_two_limits :
    ∃ s, ofTwoLimits.initialStore = .ok s ∧
      (ofTwoLimits.genesis.grants.Pairwise
        fun g g' => ¬ (g.place = g'.place ∧ g.denom = g'.denom)) ∧
      (∀ g ∈ ofTwoLimits.genesis.grants, 0 < g.spendLimit) ∧
      ¬ ofTwoLimits.InForce s ⟨.send, developer, .zero, "abridge", 10, none⟩ ∧
      ofTwoLimits.InForce s ⟨.transfer, developer, .zero, "abridge", 5, some 1800000000⟩ ∧
      ofTwoLimits.InForce s ⟨.send, developer, .zero, "ubridge", 20, none⟩ := by
  have distinct : ofTwoLimits.genesis.grants.Pairwise
      fun g g' => ¬ (g.place = g'.place ∧ g.denom = g'.denom) := by decide
  have positive : ∀ g ∈ ofTwoLimits.genesis.grants, 0 < g.spendLimit := by decide
  obtain ⟨s, started, -⟩ := exists_of_any_toOption
    (by decide +kernel : (ofTwoLimits.initialStore.toOption.any fun _ => true) = true)
  obtain ⟨-, entries⟩ := inForce_iff_last started distinct positive
  refine ⟨s, started, distinct, positive, ?first, ?second, ?third⟩
  case first =>
    intro inForce
    exact (entries [] _ _ rfl (by decide)).mp inForce _
      (List.mem_cons_of_mem _ List.mem_cons_self) rfl
  case second => exact (entries [_] _ _ rfl (by decide)).mpr (by decide)
  case third => exact (entries [_, _] _ _ rfl (by decide)).mpr nofun

/-- A limit that is listed for a denomination is not there, for one of another that is listed later. -/
theorem limit_lost_to_later_entry :
    (ofTwoLimits.genesis.grants.Pairwise
        fun g g' => ¬ (g.place = g'.place ∧ g.denom = g'.denom)) ∧
      (∀ g ∈ ofTwoLimits.genesis.grants, 0 < g.spendLimit) ∧
      ∃ s, ofTwoLimits.initialStore = .ok s ∧
        ∃ g ∈ ofTwoLimits.genesis.grants, g.kind = .send ∧ g.granter ≠ g.grantee ∧
          g.spendLimit = 10 ∧
          ((Ledger.allowance ofTwoLimits.chain.blockTime g.granter g.grantee g.denom).perform s).1 =
            .ok (.limited 0) := by
  refine ⟨by decide, by decide, ?_⟩
  obtain ⟨s, started, told⟩ := exists_of_any_toOption
    (by decide +kernel : (ofTwoLimits.initialStore.toOption.any fun s =>
      ((Ledger.allowance 1700000000 developer .zero "abridge").perform s).1 = .ok (.limited 0)) = true)
  exact ⟨s, started, _, List.mem_cons_self, rfl, by decide, rfl, of_decide_eq_true told⟩

end Config

end LedgerBridge
