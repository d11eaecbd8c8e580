import LedgerBridge.Node.Genesis
import LedgerBridge.Proofs.Frames
import LedgerBridge.Proofs.Histories

/-! The store that a chain starts from is one that its ledger can get to: a genesis does nothing that
the keepers do not offer, one operation after another. -/
namespace LedgerBridge

namespace Metered

theorem perform_bind (x : Metered ε α) (f : α → Metered ε β) (s : Store) :
    (x >>= f).perform s =
      match x.perform s with
      | (.ok a, s) => (f a).perform s
      | (.error e, s) => (.error e, s) := by
  induction x generalizing s with
  | done | fail => rfl
  | access a next ih => exact ih (a.answer s) (a.effect s)

theorem perform_mapError (f : ε → ε') (x : Metered ε α) (s : Store) :
    (x.mapError f).perform s = ((x.perform s).1.mapError f, (x.perform s).2) := by
  induction x generalizing s with
  | done | fail => rfl
  | access a next ih => exact ih (a.answer s) (a.effect s)

/-- A free run gets from stores that can be reached to such stores only. -/
def Progresses (x : Metered ε α) : Prop := ∀ s, Reached s → Reached (x.perform s).2

variable {x : Metered ε α}

theorem progresses_pure (a : α) : Progresses (pure a : Metered ε α) := fun _ reached => reached

theorem progresses_fail (e : ε) : Progresses (fail e : Metered ε α) := fun _ reached => reached

theorem composes_progresses : Composes fun {_} (x : Metered ε _) => Progresses x where
  of_pure := progresses_pure
  bind_gives {_ _ x _} first rest := by
    intro s reached
    have between := first s reached
    rw [perform_bind]
    rcases ended : x.perform s with ⟨e | a, u⟩
    · rw [ended] at between
      exact between
    · rw [ended] at between
      exact rest _ a _ (gives_of_perform (congrArg Prod.fst ended)) u between

theorem Progresses.bind {f : α → Metered ε β} (first : Progresses x)
    (rest : ∀ a, Progresses (f a)) : Progresses (x >>= f) := composes_progresses.bind first rest

theorem Progresses.mapError (h : Progresses x) (f : ε → ε') : Progresses (x.mapError f) := by
  intro s reached
  rw [perform_mapError]
  exact h s reached

end Metered

open Metered

theorem Ledger.KeeperOperation.progresses {x : Ledger α} (h : KeeperOperation x) :
    Progresses x := by
  intro s reached
  have next := Reached.operation reached h .unbounded rfl (Nat.zero_le _)
  rw [run_of_limit_eq_cap x s .unbounded rfl (Nat.zero_le _)] at next
  exact next

namespace Config

theorem progresses_ofLedger {x : Ledger α} (h : Ledger.KeeperOperation x) :
    Progresses (ofLedger x) := h.progresses.mapError _

theorem progresses_registerPair (p : PairConfig) : Progresses (registerPair p) :=
  (progresses_ofLedger (.registerPair p.pair)).bind fun _ =>
    progresses_ofLedger (.setMetadata p.metadata)

theorem progresses_grant (c : Config) (g : GenesisGrant) : Progresses (c.grant g) := by
  simp only [grant]
  split
  · exact progresses_fail _
  · exact progresses_ofLedger (.saveGrant ..)

theorem progresses_genesis? (c : Config) : Progresses c.genesis? := by
  refine (progresses_ofLedger (.setBondDenom _)).bind fun _ => ?_
  refine (composes_progresses.forM fun p _ => progresses_registerPair p).bind fun _ => ?_
  refine (progresses_ofLedger (.openChannel ..)).bind fun _ => Progresses.bind ?_ fun _ => ?_
  · apply composes_progresses.forM
    intro e _
    exact progresses_ofLedger (.endow e.address ⟨e.denom, e.amount⟩)
  · exact composes_progresses.forM fun g _ => c.progresses_grant g

end Config

theorem Config.initialStore_eq_ok {c : Config} {s : Store} :
    c.initialStore = .ok s ↔ c.genesis?.perform ∅ = (.ok (), s) := by
  rw [initialStore]
  rcases c.genesis?.perform ∅ with ⟨e | done, u⟩
  · simp
  · simp

/-! What each part of a genesis may change. -/

namespace Config

theorem changesWithin_bondDenom (denom : String) :
    ChangesWithin (Key.Among [.stakingParams]) (Ledger.setBondDenom denom) :=
  Ledger.changesWithin_setBondDenom (by simp [Key.Among]) denom

theorem changesWithin_pairs (ps : List PairConfig) :
    ChangesWithin (Key.Among [.pair, .pairAddress, .metadata]) (ps.forM registerPair) := by
  apply composes_changesWithin.forM
  intro p _
  exact ((Ledger.changesWithin_registerPair (by simp [Key.Among]) (by simp [Key.Among])).mapError _
    ).bind fun _ => (Ledger.changesWithin_setMetadata (by simp [Key.Among])).mapError _

theorem changesWithin_channel (port channel : String) (far : ChannelEnd) :
    ChangesWithin (Key.Among [.channel]) (Ledger.openChannel port channel far) :=
  Ledger.changesWithin_openChannel (by simp [Key.Among]) far

theorem changesWithin_balances (es : List Endowment) :
    ChangesWithin (Key.Among [.balance, .supply])
      (es.forM fun e => ofLedger (Ledger.endow e.address ⟨e.denom, e.amount⟩)) := by
  apply composes_changesWithin.forM
  intro e _
  exact (Ledger.changesWithin_endow (by simp [Key.Among]) (by simp [Key.Among])).mapError _

theorem changesWithin_grants (c : Config) (gs : List GenesisGrant) :
    ChangesWithin (Key.Among [.grant]) (gs.forM c.grant) := by
  apply composes_changesWithin.forM
  intro g _
  simp only [grant]
  split
  · exact changesWithin_fail _
  · exact (Ledger.changesWithin_saveGrant (by simp [Key.Among])).mapError _

/-- A genesis sends nothing, and leaves no grant that is none. -/
theorem changesWithin_genesis? (c : Config) : ChangesWithin Key.IsLocal c.genesis? := by
  have isLocal {kinds : List Key.Kind} (sequence : .sequence ∉ kinds) (packet : .packet ∉ kinds)
      (key : Key) (inside : key.Among kinds) : key.IsLocal := ⟨inside.ne sequence, inside.ne packet⟩
  refine (((changesWithin_bondDenom _).mono (isLocal (by decide) (by decide))).mapError _).bind
    fun _ => ((changesWithin_pairs _).mono (isLocal (by decide) (by decide))).bind
    fun _ => (((changesWithin_channel _ _ _).mono (isLocal (by decide) (by decide))).mapError _).bind
    fun _ => ((changesWithin_balances _).mono (isLocal (by decide) (by decide))).bind
    fun _ => (changesWithin_grants c _).mono (isLocal (by decide) (by decide))

end Config

theorem Config.gives_of_initialStore {c : Config} {s : Store} (h : c.initialStore = .ok s) :
    c.genesis?.Gives ∅ () s.contents := by
  have gives := gives_of_perform (congrArg Prod.fst (initialStore_eq_ok.mp h))
  rw [initialStore_eq_ok.mp h] at gives
  exact gives

theorem Config.exists_initialStore_iff {c : Config} :
    (∃ s, c.initialStore = .ok s) ↔ ∃ v, c.genesis?.Gives ∅ () v := by
  constructor
  · rintro ⟨s, started⟩
    exact ⟨s.contents, gives_of_initialStore started⟩
  · rintro ⟨v, gives⟩
    have succeeds : (c.genesis?.perform ∅).1 = .ok () := perform_of_gives gives
    exact ⟨_, initialStore_eq_ok.mpr (Prod.ext succeeds rfl)⟩

theorem Config.changedWithin_of_initialStore {c : Config} {s : Store}
    (h : c.initialStore = .ok s) : Contents.ChangedWithin Key.IsLocal ∅ s.contents :=
  c.changesWithin_genesis?.of_gives (gives_of_initialStore h)

theorem Reached.initialStore {c : Config} {s : Store} (h : c.initialStore = .ok s) : Reached s := by
  have reached := c.progresses_genesis? ∅ .empty
  rw [Config.initialStore_eq_ok.mp h] at reached
  exact reached

end LedgerBridge
