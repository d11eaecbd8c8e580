import LedgerBridge.Proofs.Genesis
import LedgerBridge.Proofs.Registries

/-! A registry over all calls that are made to it, those that it refuses included. It answers for the
pairs that were registered and for no others: each is found by its denomination and by its address, and
no later call changes that. -/
namespace LedgerBridge

open Metered

/-- A pair that can be registered after others. -/
structure TokenPair.MayFollow (ps : List TokenPair) (p : TokenPair) : Prop where
  valid : Denom.check p.denom = .ok ()
  denom : p.denom ∉ ps.map (·.denom)
  address : p.address ∉ ps.map (·.address)

/-- The store and the meter that calls are made with, and the pairs that calls have registered. -/
structure Registrar where
  store : Store
  meter : Meter
  pairs : List TokenPair

namespace Registrar

/-- What comes of an operation. -/
def asks (r : Registrar) (x : Ledger α) : Except (Stop LedgerError) α :=
  (x.run r.store r.meter).result

/-- A call to register a pair. -/
def register (r : Registrar) (p : TokenPair) : Registrar :=
  let outcome := (Ledger.registerPair p).run r.store r.meter
  match outcome.result with
  | .ok () => ⟨outcome.store, outcome.meter, r.pairs ++ [p]⟩
  | .error _ => ⟨outcome.store, outcome.meter, r.pairs⟩

def registerAll : List TokenPair → Registrar → Registrar
  | [], r => r
  | p :: rest, r => registerAll rest (r.register p)

/-- A call registers what may follow and is otherwise as good as not made. -/
structure Decides (r : Registrar) (p : TokenPair) : Prop where
  succeeds : r.asks (Ledger.registerPair p) = .ok () ↔ p.MayFollow r.pairs
  refuses : r.asks (Ledger.registerPair p) ≠ .ok () →
    ((Ledger.registerPair p).run r.store r.meter).store = r.store

/-- Pairs are found by their denominations and addresses, and listed in the order of denominations. -/
structure Answers (r : Registrar) : Prop where
  byDenom : ∀ denom, ∃ found, r.asks (Ledger.pairOf? denom) = .ok found ∧
    ∀ p, found = some p ↔ p ∈ r.pairs ∧ p.denom = denom
  byAddress : ∀ address, ∃ found, r.asks (Ledger.pairAt? address) = .ok found ∧
    ∀ p, found = some p ↔ p ∈ r.pairs ∧ p.address = address
  agree : ∀ p ∈ r.pairs, r.asks (Ledger.pairOf? p.denom) = .ok (some p) ∧
    r.asks (Ledger.pairAt? p.address) = .ok (some p)
  listed : ∃ listing, r.asks Ledger.pairs = .ok listing ∧ listing.Nodup ∧
    (∀ p, p ∈ listing ↔ p ∈ r.pairs) ∧
    listing.Pairwise fun p q => Bytes.ofString p.denom < Bytes.ofString q.denom

/-- The store is that of a registry of the pairs, and the meter never runs out. -/
structure Sound (r : Registrar) : Prop where
  registers : r.store.contents.Registers r.pairs
  limit : r.meter.limit = Meter.cap
  used : r.meter.used ≤ Meter.cap

/-- Whatever is refused is refused before anything is written. -/
theorem registerPair_cases (p : TokenPair) (s : Store) :
    (∃ e, (Ledger.registerPair p).perform s = (.error e, s)) ∨
      ∃ t, (Ledger.registerPair p).perform s = (.ok (), t) := by
  have has (key : Key) : (Ledger.contains key).perform s = (.ok (s.contains key.bytes), s) := rfl
  have passed : (liftM (Except.ok () : Except LedgerError Unit) : Ledger Unit).perform s =
    (.ok (), s) := rfl
  simp only [Ledger.registerPair, perform_bind]
  cases p.check with
  | error e => exact .inl ⟨_, rfl⟩
  | ok =>
    simp only [Ledger.require, mapError_ok, passed, has]
    cases s.contains (Key.pair p.denom).bytes with
    | true => exact .inl ⟨_, rfl⟩
    | false =>
      simp only [Bool.false_eq_true, if_false, perform_bind, has]
      cases s.contains (Key.pairAddress p.address).bytes with
      | true => exact .inl ⟨_, rfl⟩
      | false =>
        simp only [Bool.false_eq_true, if_false, Ledger.write]
        split
        · exact .inr ⟨_, rfl⟩
        · exact .inl ⟨_, rfl⟩

variable {r : Registrar} {p : TokenPair}

theorem Sound.asks_of_gives {x : Ledger α} {a : α} {w : Contents} (h : r.Sound)
    (gives : x.Gives r.store.contents a w) : r.asks x = .ok a := by
  rw [asks, run_of_limit_eq_cap x r.store r.meter h.limit h.used, perform_of_gives gives]
  rfl

theorem mayFollow_iff_gives {v : Contents} {ps : List TokenPair} (h : v.Registers ps) :
    p.MayFollow ps ↔ (Ledger.registerPair p).Gives v () (v.register p) := by
  rw [h.gives_registerPair]
  exact ⟨fun ⟨valid, denom, address⟩ => ⟨valid, denom, address, rfl⟩,
    fun ⟨valid, denom, address, _⟩ => ⟨valid, denom, address⟩⟩

/-- A call that succeeds adds the pair to the map, and one that fails changes nothing. -/
theorem Sound.run_registerPair (h : r.Sound) (p : TokenPair) :
    let outcome := (Ledger.registerPair p).run r.store r.meter
    (outcome.result = .ok () ∧ p.MayFollow r.pairs ∧
        outcome.store.contents = r.store.contents.register p) ∨
      ∃ e, outcome.result = .error e ∧ ¬ p.MayFollow r.pairs ∧ outcome.store = r.store := by
  intro outcome
  have same : outcome = _ := run_of_limit_eq_cap (Ledger.registerPair p) r.store r.meter h.limit h.used
  have shown := perform_view (Ledger.registerPair p) r.store
  rw [same]
  rcases registerPair_cases p r.store with ⟨e, failed⟩ | ⟨t, done⟩
  · rw [failed] at shown ⊢
    refine .inr ⟨_, rfl, fun may => ?_, rfl⟩
    cases shown.trans ((mayFollow_iff_gives h.registers).mp may)
  · rw [done] at shown ⊢
    have gives : (Ledger.registerPair p).Gives r.store.contents () t.contents := shown.symm
    obtain ⟨valid, denom, address, registered⟩ := h.registers.gives_registerPair.mp gives
    exact .inl ⟨rfl, ⟨valid, denom, address⟩, registered.symm⟩

theorem Sound.decides (h : r.Sound) (p : TokenPair) : r.Decides p := by
  rcases h.run_registerPair p with ⟨done, may, -⟩ | ⟨e, failed, mayNot, same⟩
  · exact ⟨iff_of_true done may, fun refused => absurd done refused⟩
  · refine ⟨iff_of_false (fun done => ?_) mayNot, fun _ => same⟩
    cases failed.symm.trans done

theorem Sound.register (h : r.Sound) (p : TokenPair) : (r.register p).Sound := by
  have meter := congrArg Outcome.meter
    (run_of_limit_eq_cap (Ledger.registerPair p) r.store r.meter h.limit h.used)
  have limit : ((Ledger.registerPair p).run r.store r.meter).meter.limit = Meter.cap := by
    rw [meter]
    exact h.limit
  have used : ((Ledger.registerPair p).run r.store r.meter).meter.used ≤ Meter.cap := by
    rw [meter]
    exact Nat.min_le_right _ _
  rcases h.run_registerPair p with ⟨done, may, added⟩ | ⟨e, failed, -, same⟩
  · simp only [Registrar.register, done]
    refine ⟨?_, limit, used⟩
    rw [added]
    exact h.registers.register (Denom.fits_of_check may.valid) may.denom may.address
  · simp only [Registrar.register, failed]
    refine ⟨?_, limit, used⟩
    rw [same]
    exact h.registers

theorem pairs_isPrefix_register (r : Registrar) (p : TokenPair) :
    r.pairs <+: (r.register p).pairs := by
  simp only [register]
  split
  · exact List.prefix_append ..
  · exact List.prefix_rfl

theorem Sound.answers (h : r.Sound) : r.Answers := by
  have denom (d : String) := h.asks_of_gives (h.registers.gives_pairOf? d)
  have address (a : Address) := h.asks_of_gives (h.registers.gives_pairAt? a)
  obtain ⟨listing, same, sorted, gives⟩ := h.registers.gives_pairs
  refine ⟨fun d => ⟨_, denom d, fun p => find?_eq_some_iff_of_nodup h.registers.denoms⟩,
    fun a => ⟨_, address a, fun p => find?_eq_some_iff_of_nodup h.registers.addresses⟩,
    fun p member => ?_, listing, h.asks_of_gives gives, ?_, fun p => same.mem_iff, sorted⟩
  · rw [denom, address, find?_eq_some_of_nodup h.registers.denoms member,
      find?_eq_some_of_nodup h.registers.addresses member]
    exact ⟨rfl, rfl⟩
  · refine sorted.imp fun {p q} less => ?_
    rintro rfl
    exact Bytes.lt_irrefl _ less

theorem Sound.registerAll (h : r.Sound) (calls : List TokenPair) :
    (Registrar.registerAll calls r).Sound := by
  induction calls generalizing r with
  | nil => exact h
  | cons p rest ih => exact ih (h.register p)

theorem pairs_isPrefix_registerAll (r : Registrar) (calls : List TokenPair) :
    r.pairs <+: (registerAll calls r).pairs := by
  induction calls generalizing r with
  | nil => exact List.prefix_rfl
  | cons p rest ih => exact (pairs_isPrefix_register r p).trans (ih (r.register p))

theorem registerAll_append (before later : List TokenPair) (r : Registrar) :
    registerAll (before ++ later) r = registerAll later (registerAll before r) := by
  induction before generalizing r with
  | nil => rfl
  | cons p rest ih => exact ih (r.register p)

/-- Whatever calls are made to an empty registry, a further one succeeds exactly if its denomination is
one and neither it nor the address is taken. A call that is refused changes nothing, and the pairs that
were registered stay the first ones. Each is found by its denomination and by its address, under which
nothing else is found, and is listed once. -/
theorem registerAll_one_to_one (store : Store) (meter : Meter) (empty : store.contents.WithoutPairs)
    (limit : meter.limit = Meter.cap) (used : meter.used ≤ Meter.cap) (calls : List TokenPair) :
    let start : Registrar := ⟨store, meter, []⟩
    let r := registerAll calls start
    (∀ p, r.Decides p) ∧
    (∀ before later, before ++ later = calls → (registerAll before start).pairs <+: r.pairs) ∧
    r.Answers := by
  intro start r
  have sound : r.Sound := Sound.registerAll ⟨empty.registers, limit, used⟩ calls
  refine ⟨sound.decides, ?_, sound.answers⟩
  rintro before later rfl
  have split : r = registerAll later (registerAll before start) := registerAll_append before later start
  rw [split]
  exact pairs_isPrefix_registerAll _ _

/-- Calls with an address and a denomination that are taken, and with a denomination that is none. -/
theorem registerAll_one_to_one_of_clashes :
    let abridge := TokenPair.ofDenom "abridge" none
    let aatom : TokenPair := ⟨⟨List.replicate 20 9, rfl⟩, "aatom", false, some .zero⟩
    let calls := [abridge, { abridge with denom := "aother" }, { aatom with denom := "abridge" },
      { aatom with denom := "" }, aatom, { aatom with denom := "aother" }]
    let r := registerAll calls ⟨∅, .unbounded, []⟩
    Contents.WithoutPairs (Store.contents ∅) ∧ Meter.unbounded.limit = Meter.cap ∧
      Meter.unbounded.used ≤ Meter.cap ∧ r.pairs = [abridge, aatom] ∧
      r.asks (Ledger.pairAt? aatom.address) = .ok (some aatom) ∧
      r.asks Ledger.pairs = .ok [aatom, abridge] := by
  intro abridge aatom calls r
  have empty : Contents.WithoutPairs (Store.contents ∅) := fun _ _ => nofun
  have registered : r.pairs = [abridge, aatom] := by decide +kernel
  have member : aatom ∈ r.pairs := by
    rw [registered]
    simp
  obtain ⟨-, -, answers⟩ := registerAll_one_to_one ∅ .unbounded empty rfl (Nat.zero_le _) calls
  exact ⟨empty, rfl, Nat.zero_le _, registered, (answers.agree aatom member).2, by decide +kernel⟩

end Registrar

end LedgerBridge
