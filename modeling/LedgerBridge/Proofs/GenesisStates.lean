import LedgerBridge.Proofs.Genesis
import LedgerBridge.Proofs.GenesisLists

/-! What a chain starts with. A configuration is one to start from exactly if what it says can be so, and
the store that comes of it holds what it says, all of it and nothing else. -/
namespace LedgerBridge

open Metered

namespace Contents

variable {u v w : Contents} {kinds others : List Key.Kind}

theorem ChangedWithin.trans_among (first : v.ChangedWithin (Key.Among kinds) u)
    (second : u.ChangedWithin (Key.Among others) w) :
    v.ChangedWithin (Key.Among (kinds ++ others)) w :=
  (first.mono fun _ => List.mem_append_left _).trans (second.mono fun _ => List.mem_append_right _)

theorem ChangedWithin.get?_of_kind (h : v.ChangedWithin (Key.Among kinds) w) (key : Key)
    (absent : key.kind ∉ kinds) : w.get? key.bytes = v.get? key.bytes :=
  h.get?_eq fun _ inside => Key.bytes_ne_of_kind_ne (inside.ne absent)

theorem Offers.of_changedWithin {ps : List PairConfig} (h : v.Offers ps)
    (change : v.ChangedWithin (Key.Among kinds) w) (pair : .pair ∉ kinds)
    (address : .pairAddress ∉ kinds) (metadata : .metadata ∉ kinds) : w.Offers ps where
  registers := h.registers.of_changedWithin change fun _ inside => ⟨inside.ne pair, inside.ne address⟩
  metadata := h.metadata.of_changedWithin change fun _ inside _ => inside.ne metadata

theorem Funded.of_changedWithin {es : List Endowment} (h : v.Funded es)
    (change : v.ChangedWithin (Key.Among kinds) w) (balance : .balance ∉ kinds)
    (supply : .supply ∉ kinds) : w.Funded es where
  balance owner denom bs found := by
    rw [change.get?_of_kind (.balance owner denom) balance] at found
    exact h.balance owner denom bs found
  supply denom bs found := by
    rw [change.get?_of_kind (.supply denom) supply] at found
    exact h.supply denom bs found
  balances owner denom := by
    rw [Contents.balance, record?, change.get?_of_kind (.balance owner denom) balance]
    exact h.balances owner denom
  supplies denom := by
    rw [Contents.supply, record?, change.get?_of_kind (.supply denom) supply]
    exact h.supplies denom

end Contents

namespace Ledger

variable {v w : Contents} {done : Unit}

theorem gives_setBondDenom {denom : String} :
    (setBondDenom denom).Gives v done w ↔
      Denom.check denom = .ok () ∧
        Changes.put v Key.stakingParams.bytes (some (Codec.string.encode denom)) = w := by
  simp only [setBondDenom, require, gives_bind, gives_liftM, mapError_eq_ok, gives_write,
    Codec.lawful_string.writable_iff]
  constructor
  · rintro ⟨_, _, ⟨checked, rfl⟩, -, rfl⟩
    exact ⟨checked, rfl⟩
  · rintro ⟨checked, rfl⟩
    exact ⟨(), v, ⟨checked, rfl⟩, Denom.fits_of_check checked, rfl⟩

theorem gives_openChannel {port channel : String} {far : ChannelEnd} :
    (openChannel port channel far).Gives v done w ↔
      Identifier.check "port" port = .ok () ∧ Identifier.check "channel" channel = .ok () ∧
        far.Fits ∧
        Changes.put v (Key.channel port channel).bytes (some (ChannelEnd.codec.encode far)) = w := by
  simp only [openChannel, gives_bind, gives_liftM, gives_write, ChannelEnd.lawful_codec.writable_iff]
  constructor
  · rintro ⟨_, _, ⟨port, rfl⟩, _, _, ⟨channel, rfl⟩, fits, rfl⟩
    exact ⟨port, channel, fits, rfl⟩
  · rintro ⟨port, channel, fits, rfl⟩
    exact ⟨(), v, ⟨port, rfl⟩, (), v, ⟨channel, rfl⟩, fits, rfl⟩

end Ledger

namespace Config

/-- All texts that a genesis stores unchecked have lengths of four bytes. -/
structure TextsFit (c : Config) : Prop where
  counterparty : Text.Fits c.genesis.counterpartyChannel
  grants : ∀ g ∈ c.genesis.grants, Text.Fits g.denom

/-- What a configuration says can be so. -/
structure Startable (c : Config) : Prop where
  bondDenom : Denom.check c.chain.bondDenom = .ok ()
  pairs : PairConfig.Registrable c.pairs
  port : Identifier.check "port" c.outpost.port = .ok ()
  channel : Identifier.check "channel" c.outpost.channel = .ok ()
  balances : Endowment.Payable c.genesis.balances
  grants : ∀ g ∈ c.genesis.grants, g.Lasts c.chain.blockTime

/-- A map that holds what the configuration says. -/
structure Describes (c : Config) (v : Contents) : Prop where
  bondDenom : v.get? Key.stakingParams.bytes = some (Codec.string.encode c.chain.bondDenom)
  offers : v.Offers c.pairs
  channel : v.get? (Key.channel c.outpost.port c.outpost.channel).bytes =
    some (ChannelEnd.codec.encode ⟨c.outpost.port, c.genesis.counterpartyChannel⟩)
  funded : v.Funded c.genesis.balances
  grants : v.Grants c.outpost c.genesis.grants
  written : ∀ g ∈ c.genesis.grants, (g.authorization c.outpost).Fits

variable {c : Config} {v w : Contents}

theorem TextsFit.fits_authorization (h : c.TextsFit) (port : Text.Fits c.outpost.port)
    (channel : Text.Fits c.outpost.channel) {g : GenesisGrant} (member : g ∈ c.genesis.grants) :
    (g.authorization c.outpost).Fits := by
  have single {α : Type} {fits : α → Prop} {a : α} (h : fits a) : FitsAll fits [a] :=
    ⟨(by decide : 1 < Bytes.capacity 4), List.forall_mem_singleton.mpr h⟩
  have none {α : Type} {fits : α → Prop} : FitsAll fits [] :=
    ⟨(by decide : 0 < Bytes.capacity 4), nofun⟩
  have limits : Limits.Fits [⟨g.denom, g.spendLimit⟩] := single (h.grants g member)
  simp only [GenesisGrant.authorization]
  cases g.kind with
  | send => exact limits
  | transfer => exact single ⟨port, channel, limits, none⟩

/-- A genesis in its five parts. -/
theorem gives_genesis? :
    c.genesis?.Gives v () w ↔ ∃ chosen offered opened funded,
      (Ledger.setBondDenom c.chain.bondDenom).Gives v () chosen ∧
      (c.pairs.forM registerPair).Gives chosen () offered ∧
      (Ledger.openChannel c.outpost.port c.outpost.channel
        ⟨c.outpost.port, c.genesis.counterpartyChannel⟩).Gives offered () opened ∧
      (c.genesis.balances.forM fun e => ofLedger (Ledger.endow e.address ⟨e.denom, e.amount⟩)).Gives
        opened () funded ∧
      (c.genesis.grants.forM c.grant).Gives funded () w := by
  simp only [genesis?, gives_bind]
  simp only [ofLedger, gives_mapError]
  constructor
  · rintro ⟨_, chosen, bond, _, offered, pairs, _, opened, channel, _, funded, balances, grants⟩
    exact ⟨chosen, offered, opened, funded, bond, pairs, channel, balances, grants⟩
  · rintro ⟨chosen, offered, opened, funded, bond, pairs, channel, balances, grants⟩
    exact ⟨(), chosen, bond, (), offered, pairs, (), opened, channel, (), funded, balances, grants⟩

/-! The lists, where nothing of their kind is there yet. -/

variable {kinds : List Key.Kind}

theorem passes_pairs (before : Contents.ChangedWithin (Key.Among kinds) ∅ v)
    (pair : .pair ∉ kinds) (address : .pairAddress ∉ kinds) (metadata : .metadata ∉ kinds)
    (ps : List PairConfig) :
    ((∃ w, (ps.forM registerPair).Gives v () w) ↔ PairConfig.Registrable ps) ∧
      ∀ w, (ps.forM registerPair).Gives v () w → w.Offers ps := by
  have empty : Contents.Offers ∅ [] := ⟨Contents.registers_empty, Contents.tabulates_empty⟩
  exact Contents.extends_registerPair.forM (empty.of_changedWithin before pair address metadata) ps

theorem passes_balances (before : Contents.ChangedWithin (Key.Among kinds) ∅ v)
    (balance : .balance ∉ kinds) (supply : .supply ∉ kinds) (es : List Endowment) :
    ((∃ w, (es.forM fun e => ofLedger (Ledger.endow e.address ⟨e.denom, e.amount⟩)).Gives v () w) ↔
        Endowment.Payable es) ∧
      ∀ w, (es.forM fun e => ofLedger (Ledger.endow e.address ⟨e.denom, e.amount⟩)).Gives v () w →
        w.Funded es :=
  Contents.extends_endow.forM (Contents.funded_empty.of_changedWithin before balance supply) es

theorem passes_grants (before : Contents.ChangedWithin (Key.Among kinds) ∅ v)
    (grant : .grant ∉ kinds) (gs : List GenesisGrant) :
    ((∃ w, (gs.forM c.grant).Gives v () w) ↔
        ∀ g ∈ gs, g.Lasts c.chain.blockTime ∧ (g.authorization c.outpost).Fits) ∧
      ∀ w, (gs.forM c.grant).Gives v () w → w.Grants c.outpost gs :=
  (Contents.extends_grant c).forM (Contents.tabulates_empty.of_changedWithin before
    fun _ inside _ => inside.ne grant) gs

/-- What a genesis that gets to its end leaves, and what it takes for that. -/
theorem describes_of_genesis? (h : c.genesis?.Gives ∅ () v) : c.Startable ∧ c.Describes v := by
  obtain ⟨chosen, offered, opened, funded, bond, pairs, channel, balances, grants⟩ :=
    gives_genesis?.mp h
  -- No part finds records of its own kind, and none touches those of an earlier one.
  have toChosen := (changesWithin_bondDenom _).of_gives bond
  have toOffered := toChosen.trans_among ((changesWithin_pairs _).of_gives pairs)
  have toOpened := toOffered.trans_among ((changesWithin_channel _ _ _).of_gives channel)
  have toFunded := toOpened.trans_among ((changesWithin_balances _).of_gives balances)
  have fromFunded := (changesWithin_grants c _).of_gives grants
  have fromOpened := ((changesWithin_balances _).of_gives balances).trans_among fromFunded
  have fromOffered := ((changesWithin_channel _ _ _).of_gives channel).trans_among fromOpened
  have fromChosen := ((changesWithin_pairs _).of_gives pairs).trans_among fromOffered
  obtain ⟨registrable, offers⟩ :=
    passes_pairs toChosen (by decide) (by decide) (by decide) c.pairs
  obtain ⟨payable, funds⟩ := passes_balances toOpened (by decide) (by decide) c.genesis.balances
  obtain ⟨lasting, stores⟩ := passes_grants toFunded (by decide) c.genesis.grants
  obtain ⟨bondDenom, rfl⟩ := Ledger.gives_setBondDenom.mp bond
  obtain ⟨plainPort, plainChannel, -, rfl⟩ := Ledger.gives_openChannel.mp channel
  have lasts := lasting.mp ⟨_, grants⟩
  refine ⟨⟨bondDenom, registrable.mp ⟨_, pairs⟩, plainPort, plainChannel, payable.mp ⟨_, balances⟩,
    fun g member => (lasts g member).1⟩, ?_⟩
  refine ⟨?_, (offers _ pairs).of_changedWithin fromOffered (by decide) (by decide) (by decide), ?_,
    (funds _ balances).of_changedWithin fromFunded (by decide) (by decide), stores _ grants,
    fun g member => (lasts g member).2⟩
  · rw [fromChosen.get?_of_kind .stakingParams (by decide), Changes.get?_put, if_pos rfl]
  · rw [fromOpened.get?_of_kind (.channel ..) (by simp), Changes.get?_put, if_pos rfl]

/-- A genesis gets to its end if what the configuration says can be so. -/
theorem Startable.exists_genesis? (h : c.Startable) (fits : c.TextsFit) :
    ∃ v, c.genesis?.Gives ∅ () v := by
  obtain ⟨chosen, bond⟩ :
      ∃ w : Contents, (Ledger.setBondDenom c.chain.bondDenom).Gives ∅ () w :=
    ⟨_, Ledger.gives_setBondDenom.mpr ⟨h.bondDenom, rfl⟩⟩
  have toChosen := (changesWithin_bondDenom _).of_gives bond
  obtain ⟨offered, pairs⟩ :=
    (passes_pairs toChosen (by decide) (by decide) (by decide) c.pairs).1.mpr h.pairs
  have toOffered := toChosen.trans_among ((changesWithin_pairs _).of_gives pairs)
  have port := Identifier.fits_of_check h.port
  obtain ⟨opened, channel⟩ : ∃ w, (Ledger.openChannel c.outpost.port c.outpost.channel
      ⟨c.outpost.port, c.genesis.counterpartyChannel⟩).Gives offered () w :=
    ⟨_, Ledger.gives_openChannel.mpr ⟨h.port, h.channel, ⟨port, fits.counterparty⟩, rfl⟩⟩
  have toOpened := toOffered.trans_among ((changesWithin_channel _ _ _).of_gives channel)
  obtain ⟨funded, balances⟩ :=
    (passes_balances toOpened (by decide) (by decide) c.genesis.balances).1.mpr h.balances
  have toFunded := toOpened.trans_among ((changesWithin_balances _).of_gives balances)
  obtain ⟨v, grants⟩ := (passes_grants toFunded (by decide) c.genesis.grants).1.mpr fun g member =>
    ⟨h.grants g member,
      fits.fits_authorization port (Identifier.fits_of_check h.channel) member⟩
  exact ⟨v, gives_genesis?.mpr ⟨chosen, offered, opened, funded, bond, pairs, channel, balances, grants⟩⟩

/-- A ledger that tells what the configuration says, and nothing of packets. -/
structure StartsAs (c : Config) (s : Store) : Prop where
  balance : ∀ owner denom, ∃ n, ((Ledger.balance owner denom).perform s).1 = .ok n ∧
    n.toNat = Endowment.totalAt c.genesis.balances owner denom
  supply : ∀ denom, ∃ n, ((Ledger.supply denom).perform s).1 = .ok n ∧
    n.toNat = Endowment.total c.genesis.balances denom
  pairs : ∃ listing, (Ledger.pairs.perform s).1 = .ok listing ∧
    listing.Perm (c.pairs.map PairConfig.pair)
  metadata : ∀ denom, ((Ledger.metadata? denom).perform s).1 =
    .ok ((c.pairs.find? (·.denom = denom)).map PairConfig.metadata)
  bondDenom : (Ledger.bondDenom.perform s).1 = .ok c.chain.bondDenom
  channel : ((Ledger.channel? c.outpost.port c.outpost.channel).perform s).1 =
    .ok (some ⟨c.outpost.port, c.genesis.counterpartyChannel⟩)
  nextSequence : ((Ledger.nextSequence c.outpost.port c.outpost.channel).perform s).1 = .ok 1
  packet : ∀ port channel n, ((Ledger.packet? port channel n).perform s).1 = .ok none
  packets : ∀ port channel, ((Ledger.packets port channel).perform s).1 = .ok []

theorem Describes.gives_metadata? (h : c.Describes v) (startable : c.Startable) (denom : String) :
    (Ledger.metadata? denom).Gives v
      ((c.pairs.find? (·.denom = denom)).map PairConfig.metadata) v := by
  simp only [Ledger.metadata?, Ledger.gives_read?, Contents.Readable, Contents.record?,
    h.offers.metadata.get?_of_nodup startable.pairs.denoms denom]
  cases found : c.pairs.find? (·.denom = denom) with
  | none => simp
  | some p =>
    have valid := startable.pairs.valid p (List.mem_of_find?_eq_some found)
    simp [Metadata.lawful_codec.decodeAll_encode valid.fits]

theorem Describes.gives_bondDenom (h : c.Describes v) (startable : c.Startable) :
    Ledger.bondDenom.Gives v c.chain.bondDenom v := by
  have read := Codec.lawful_string.decodeAll_encode (Denom.fits_of_check startable.bondDenom)
  simp [Ledger.bondDenom, Contents.Readable, Contents.record?, h.bondDenom, read]

theorem Describes.gives_channel? (h : c.Describes v) (startable : c.Startable) (fits : c.TextsFit) :
    (Ledger.channel? c.outpost.port c.outpost.channel).Gives v
      (some ⟨c.outpost.port, c.genesis.counterpartyChannel⟩) v := by
  have read := ChannelEnd.lawful_codec.decodeAll_encode
    (show ChannelEnd.Fits ⟨c.outpost.port, c.genesis.counterpartyChannel⟩ from
      ⟨Identifier.fits_of_check startable.port, fits.counterparty⟩)
  simp [Ledger.channel?, Contents.Readable, Contents.record?, h.channel, read]

/-- Nothing is listed under any channel as long as nothing was sent. -/
theorem gives_packets_of_changedWithin (changed : Contents.ChangedWithin Key.IsLocal ∅ v)
    (port channel : String) : (Ledger.packets port channel).Gives v [] v := by
  apply Ledger.gives_readAll (List.Pairwise.nil : ([] : List Packet).Pairwise fun p q =>
    (Key.packet port channel p.sequence).bytes < (Key.packet port channel q.sequence).bytes)
  · intro key bs
    simp only [List.not_mem_nil, false_and, exists_false, iff_false, not_and]
    intro within
    have absent : v.get? key = none := changed.get?_eq fun other inside same =>
      inside.2 (Key.kind_eq_of_start_isPrefix (same ▸ within))
    simp [absent]
  · nofun

theorem startsAs_of_initialStore {s : Store} (fits : c.TextsFit) (h : c.initialStore = .ok s) :
    c.StartsAs s := by
  obtain ⟨startable, described⟩ := describes_of_genesis? (gives_of_initialStore h)
  have changed := changedWithin_of_initialStore h
  have logs (port channel : String) : s.contents.Logs port channel [] :=
    (Contents.logs_empty port channel).of_changedWithin changed
  refine ⟨?balance, ?supply, ?pairs, ?metadata, ?bondDenom, ?channel, ?nextSequence, ?packet, ?packets⟩
  case balance =>
    intro owner denom
    have funded := described.funded
    exact ⟨_, perform_of_gives (Ledger.gives_balance.mpr ⟨funded.balance owner denom, rfl, rfl⟩),
      funded.balances owner denom⟩
  case supply =>
    intro denom
    have funded := described.funded
    exact ⟨_, perform_of_gives (Ledger.gives_supply.mpr ⟨funded.supply denom, rfl, rfl⟩),
      funded.supplies denom⟩
  case pairs =>
    obtain ⟨listing, same, -, gives⟩ := described.offers.registers.gives_pairs
    exact ⟨listing, perform_of_gives gives, same⟩
  case metadata =>
    intro denom
    exact perform_of_gives (described.gives_metadata? startable denom)
  case bondDenom => exact perform_of_gives (described.gives_bondDenom startable)
  case channel => exact perform_of_gives (described.gives_channel? startable fits)
  case nextSequence => exact perform_of_gives (logs _ _).gives_nextSequence
  case packet =>
    intro port channel n
    simpa using perform_of_gives ((logs port channel).gives_packet? n)
  case packets =>
    intro port channel
    exact perform_of_gives (gives_packets_of_changedWithin changed port channel)

/-- A chain starts exactly if what its configuration says can be so, and its ledger then tells just
that. -/
theorem starts_exactly (fits : c.TextsFit) :
    ((∃ s, c.initialStore = .ok s) ↔ c.Startable) ∧
      ∀ s, c.initialStore = .ok s → c.StartsAs s := by
  refine ⟨?_, fun s => startsAs_of_initialStore fits⟩
  rw [exists_initialStore_iff]
  exact ⟨fun ⟨v, gives⟩ => (describes_of_genesis? gives).1, fun h => h.exists_genesis? fits⟩

/-- Two contracts, an account that is paid twice in one denomination, and a grant. -/
def ofRepeatedFunds : Config :=
  { standard with
    pairs := [⟨"ubridge", "Bridge", "BRIDGE", 6, some developer, false⟩,
      ⟨"abridge", "Strata", "STRATA", 18, none, true⟩]
    genesis := { GenesisConfig.standard with
      balances := [⟨developer, "ubridge", 30⟩, ⟨.zero, "ubridge", 12⟩, ⟨developer, "abridge", 7⟩,
        ⟨developer, "ubridge", 5⟩]
      grants := [⟨.transfer, developer, .zero, "ubridge", 3, some 1800000000⟩] } }

theorem starts_with_repeated_funds :
    ofRepeatedFunds.TextsFit ∧ ofRepeatedFunds.Startable ∧
      (∃ s, ofRepeatedFunds.initialStore = .ok s ∧ ofRepeatedFunds.StartsAs s) ∧
      Endowment.totalAt ofRepeatedFunds.genesis.balances developer "ubridge" = 35 ∧
      Endowment.total ofRepeatedFunds.genesis.balances "ubridge" = 47 := by
  have fits : ofRepeatedFunds.TextsFit := by
    refine ⟨?_, List.forall_mem_singleton.mpr ?_⟩ <;> simp only [Text.Fits] <;> decide
  have startable : ofRepeatedFunds.Startable := by
    refine ⟨by decide, ⟨?_, by decide, by decide +kernel⟩, by decide, by decide, ⟨by decide, ?_⟩, ?_⟩
    · simp only [ofRepeatedFunds, List.forall_mem_cons, List.not_mem_nil, false_imp_iff, implies_true,
        and_true]
      exact ⟨⟨by decide, by decide, by decide, by decide⟩,
        ⟨by decide, by decide, by decide, by decide⟩⟩
    · intro denom
      simp only [ofRepeatedFunds, Endowment.total, List.map, Endowment.coin, Coin.totalOf]
      split <;> split <;> decide
    · refine List.forall_mem_singleton.mpr ?_
      rintro t ⟨⟩
      decide
  obtain ⟨starts, holds⟩ := starts_exactly fits
  obtain ⟨s, started⟩ := starts.mpr startable
  exact ⟨fits, startable, ⟨s, started, holds s started⟩, by decide, by decide⟩

end Config

end LedgerBridge
