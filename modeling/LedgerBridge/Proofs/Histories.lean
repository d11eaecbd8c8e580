import LedgerBridge.Proofs.Conservation
import LedgerBridge.Proofs.Footprints

/-! The states that a ledger can get to: from nothing, by operations of its keepers and by calls, in any
order and whether they succeed or not. In all of them supplies are what accounts have together. -/
namespace LedgerBridge

/-- The record tells of no coins. -/
def Key.IsAside (key : Key) : Prop := key.kind ≠ .balance ∧ key.kind ≠ .supply

namespace Contents

open Metered

/-- A property that the operations of the bank keep, and so do changes of records that tell of no coins. -/
structure Kept (property : Contents → Prop) : Prop where
  endow : ∀ owner coin, Keeps property (Ledger.endow owner coin)
  send : ∀ sender recipient coins, Keeps property (Ledger.send sender recipient coins)
  mint : ∀ module coins, Keeps property (Ledger.mint module coins)
  burn : ∀ module coins, Keeps property (Ledger.burn module coins)
  aside : ∀ (v : Contents) (key : Key) change, key.IsAside → property v →
    property (Changes.put v key.bytes change)

theorem kept_conserved : Kept Conserved where
  endow := Ledger.keeps_endow
  send := Ledger.keeps_send
  mint := Ledger.keeps_mint
  burn := Ledger.keeps_burn
  aside _ _ change aside conserved := conserved.put aside.1 aside.2 change

namespace Kept

variable {property : Contents → Prop} (kept : Kept property)

include kept

theorem changesWithin {x : Metered ε α} (h : ChangesWithin Key.IsAside x) : Keeps property x :=
  h.keeps fun v key change aside _ start => kept.aside v key change aside start

theorem release (m : TransferMessage) : Keeps property (Ledger.release m) := by
  simp only [Ledger.release]
  split
  · exact kept.send _ _ _
  · exact (kept.send _ _ _).bind fun _ => kept.burn _ _

theorem transfer (m : TransferMessage) : Keeps property (Ledger.transfer m) := by
  refine (keeps_liftM _).bind fun _ => (Ledger.reads_read? _ _).keeps.bind fun far => ?_
  split
  · exact keeps_fail _
  · refine (kept.release m).bind fun _ => ?_
    refine (Ledger.reads_nextSequence _ _).keeps.bind fun sequence => ?_
    apply kept.changesWithin
    refine .bind (Ledger.changesWithin_write ⟨by simp, by simp⟩ fun _ => trivial) fun _ => ?_
    refine .bind (Ledger.changesWithin_write ⟨by simp, by simp⟩ fun _ => trivial) fun _ => ?_
    exact changesWithin_pure _

theorem settle (time : UInt64) (authority : Authority) :
    Keeps property (Ledger.settle time authority) := by
  cases authority with
  | own => exact keeps_pure _
  | delegated d =>
    unfold Ledger.settle
    simp only
    split
    · exact kept.changesWithin (Ledger.changesWithin_saveGrant ⟨by simp, by simp⟩)
    · exact kept.changesWithin (Ledger.changesWithin_removeGrant ⟨by simp, by simp⟩)

theorem move (t : TokenContract) (c : Call) (sender recipient : Address) (amount : Amount) :
    Keeps property (t.move c sender recipient amount) :=
  (keeps_liftM _).bind fun _ =>
    ((Ledger.reads_authorize _ _ _ _).keeps.mapError _).bind fun _ =>
      ((kept.send _ _ _).mapError _).bind fun _ =>
        ((kept.settle _ _).mapError _).bind fun _ => keeps_pure _

theorem approve (t : TokenContract) (c : Call) (change : TokenContract.AllowanceChange) :
    Keeps property (t.approve change c) :=
  kept.changesWithin (TokenContract.changesWithin_approve fun _ _ => ⟨by simp, by simp⟩)

theorem mintTo (t : TokenContract) (c : Call) : Keeps property (t.mint c) :=
  (keeps_liftM _).bind fun _ => (keeps_liftM _).bind fun _ => (keeps_liftM _).bind fun _ =>
    (keeps_liftM _).bind fun _ => (keeps_liftM _).bind fun _ =>
      ((kept.mint _ _).mapError _).bind fun _ =>
        ((kept.send _ _ _).mapError _).bind fun _ => keeps_pure _

theorem burnOwn (t : TokenContract) (c : Call) : Keeps property (t.burn c) :=
  (keeps_liftM _).bind fun _ => (keeps_liftM _).bind fun _ => (keeps_liftM _).bind fun _ =>
    (keeps_liftM _).bind fun _ => ((kept.send _ _ _).mapError _).bind fun _ =>
      ((kept.burn _ _).mapError _).bind fun _ => keeps_pure _

theorem operate (t : TokenContract) (c : Call) (op : TokenContract.Operation) :
    Keeps property (t.operate op c) := by
  simp only [TokenContract.operate]
  split
  · cases op <;> simp only [TokenContract.enabledOperation]
    case transfer =>
      exact (keeps_liftM _).bind fun _ => (keeps_liftM _).bind fun _ => (keeps_liftM _).bind fun _ =>
        (kept.move t c _ _ _).discard.bind fun _ => keeps_pure _
    case transferFrom =>
      exact (keeps_liftM _).bind fun _ => (keeps_liftM _).bind fun _ => (keeps_liftM _).bind fun _ =>
        (keeps_liftM _).bind fun _ => (kept.move t c _ _ _).bind fun _ => keeps_pure _
    case approve => exact kept.approve t c _
    case increaseAllowance => exact kept.approve t c _
    case decreaseAllowance => exact kept.approve t c _
    case mint => exact kept.mintTo t c
    case burn => exact kept.burnOwn t c
    case name => exact (TokenContract.reads_describe _).keeps
    case symbol => exact (TokenContract.reads_describe _).keeps
    case decimals => exact (TokenContract.reads_describe _).keeps
    case totalSupply => exact TokenContract.reads_totalSupply.keeps
    case balanceOf => exact TokenContract.reads_balanceOf.keeps
    case allowance => exact TokenContract.reads_allowance.keeps
  · exact keeps_fail _

theorem swap (o : Outpost) (c : Call) : Keeps property (o.swap c) :=
  (keeps_liftM _).bind fun _ => (keeps_liftM _).bind fun _ => (keeps_liftM _).bind fun input =>
    (keeps_liftM _).bind fun output => (keeps_liftM _).bind fun _ => (keeps_liftM _).bind fun _ =>
      (Outpost.reads_denomAt input).keeps.bind fun _ =>
        (Outpost.reads_denomAt output).keeps.bind fun _ =>
          (Ledger.reads_bondDenom.keeps.mapError _).bind fun _ =>
            (keeps_liftM _).bind fun _ => (keeps_liftM _).bind fun _ => (keeps_liftM _).bind fun _ =>
              ((Ledger.reads_authorize _ _ _ _).keeps.mapError _).bind fun _ =>
                ((kept.transfer _).mapError _).discard.bind fun _ =>
                  ((kept.settle _ _).mapError _).bind fun _ => keeps_pure _

theorem operation {p : Precompile} {time : UInt64} {f : Frame} {origin : Address} {readOnly : Bool}
    {x : Action Completed} (h : p.operation time f origin readOnly = .ok x) : Keeps property x := by
  cases p with
  | token t =>
    obtain ⟨⟨m, args⟩, -, rfl⟩ := map_eq_ok.mp h
    exact kept.operate t _ _
  | outpost o =>
    obtain ⟨⟨⟨op, signature, inputs, kind, gas⟩, args⟩, -, rfl⟩ := map_eq_ok.mp h
    cases op
    exact kept.swap o _

/-- A call keeps the property, on whatever gas it is made. -/
theorem run {s : Store} (start : property s.contents) (p : Precompile) (time : UInt64) (f : Frame)
    (origin : Address) (readOnly : Bool) :
    property (p.run time s f origin readOnly).store.contents := by
  cases ended : (p.run time s f origin readOnly).result with
  | error e =>
    rw [Precompile.store_of_run_error ended]
    exact start
  | ok out =>
    obtain ⟨x, read, gives⟩ := Precompile.gives_of_run ended
    exact (kept.operation read).of_gives gives start

end Kept

end Contents

namespace Ledger

open Metered Contents

/-- The operations that the keepers of the ledger offer, queries among them. -/
inductive KeeperOperation : {α : Type} → Ledger α → Prop
  | balance (owner : Address) (denom : String) : KeeperOperation (balance owner denom)
  | supply (denom : String) : KeeperOperation (supply denom)
  | balances (owner : Address) : KeeperOperation (balances owner)
  | metadata? (denom : String) : KeeperOperation (metadata? denom)
  | grant? (time : UInt64) (granter grantee : Address) (type : String) :
    KeeperOperation (grant? time granter grantee type)
  | pairOf? (denom : String) : KeeperOperation (pairOf? denom)
  | pairAt? (token : Address) : KeeperOperation (pairAt? token)
  | pairs : KeeperOperation pairs
  | bondDenom : KeeperOperation bondDenom
  | channel? (port channel : String) : KeeperOperation (channel? port channel)
  | nextSequence (port channel : String) : KeeperOperation (nextSequence port channel)
  | packet? (port channel : String) (sequence : UInt64) :
    KeeperOperation (packet? port channel sequence)
  | packets (port channel : String) : KeeperOperation (packets port channel)
  | endow (owner : Address) (coin : Coin) : KeeperOperation (endow owner coin)
  | send (sender recipient : Address) (coins : List Coin) :
    KeeperOperation (send sender recipient coins)
  | mint (module : String) (coins : List Coin) : KeeperOperation (mint module coins)
  | burn (module : String) (coins : List Coin) : KeeperOperation (burn module coins)
  | sendFromModule (module : String) (recipient : Address) (coins : List Coin) :
    KeeperOperation (sendFromModule module recipient coins)
  | sendToModule (sender : Address) (module : String) (coins : List Coin) :
    KeeperOperation (sendToModule sender module coins)
  | setMetadata (m : Metadata) : KeeperOperation (setMetadata m)
  | saveGrant (time : UInt64) (granter grantee : Address) (g : Grant) :
    KeeperOperation (saveGrant time granter grantee g)
  | removeGrant (granter grantee : Address) (type : String) :
    KeeperOperation (removeGrant granter grantee type)
  | registerPair (p : TokenPair) : KeeperOperation (registerPair p)
  | setBondDenom (denom : String) : KeeperOperation (setBondDenom denom)
  | openChannel (port channel : String) (far : ChannelEnd) :
    KeeperOperation (openChannel port channel far)
  | transfer (m : TransferMessage) : KeeperOperation (transfer m)

theorem KeeperOperation.keeps {property : Contents → Prop} (kept : Kept property) {x : Ledger α}
    (h : KeeperOperation x) : Keeps property x := by
  cases h with
  | balance => exact (reads_balance _ _).keeps
  | supply => exact (reads_supply _).keeps
  | balances => exact (reads_balances _).keeps
  | metadata? => exact (reads_read? _ _).keeps
  | grant? => exact (reads_grant? _ _ _ _).keeps
  | pairOf? => exact (reads_read? _ _).keeps
  | pairAt? => exact (reads_pairAt? _).keeps
  | pairs => exact (reads_readAll _ _).keeps
  | bondDenom => exact reads_bondDenom.keeps
  | channel? => exact (reads_read? _ _).keeps
  | nextSequence => exact (reads_nextSequence _ _).keeps
  | packet? => exact (reads_read? _ _).keeps
  | packets => exact (reads_readAll _ _).keeps
  | endow => exact kept.endow _ _
  | send => exact kept.send _ _ _
  | mint => exact kept.mint _ _
  | burn => exact kept.burn _ _
  | sendFromModule => exact kept.send _ _ _
  | sendToModule => exact kept.send _ _ _
  | setMetadata => exact kept.changesWithin (changesWithin_setMetadata ⟨by simp, by simp⟩)
  | saveGrant => exact kept.changesWithin (changesWithin_saveGrant ⟨by simp, by simp⟩)
  | removeGrant => exact kept.changesWithin (changesWithin_removeGrant ⟨by simp, by simp⟩)
  | registerPair =>
    exact kept.changesWithin (changesWithin_registerPair ⟨by simp, by simp⟩ ⟨by simp, by simp⟩)
  | setBondDenom => exact kept.changesWithin (changesWithin_setBondDenom ⟨by simp, by simp⟩ _)
  | openChannel => exact kept.changesWithin (changesWithin_openChannel ⟨by simp, by simp⟩ _)
  | transfer => exact kept.transfer _

end Ledger

/-- The stores that a ledger can get to from the empty one. Operations of keepers run on a meter that
never runs out, calls on whatever gas they are given; both may fail. -/
inductive Reached : Store → Prop
  | empty : Reached ∅
  | operation {α : Type} {s : Store} {x : Ledger α} (before : Reached s)
    (offered : Ledger.KeeperOperation x) (m : Meter) (limit : m.limit = Meter.cap)
    (used : m.used ≤ Meter.cap) : Reached (x.run s m).store
  | call {s : Store} (before : Reached s) (p : Precompile) (time : UInt64) (f : Frame)
    (origin : Address) (readOnly : Bool) : Reached (p.run time s f origin readOnly).store

namespace Reached

open Metered Contents

variable {s : Store}

theorem conserved_empty : Conserved ∅ where
  balance _ _ := nofun
  supply _ := nofun
  total _ := Finset.sum_eq_zero fun _ _ => rfl

/-- A property of the empty ledger that is kept holds wherever the ledger gets to. -/
theorem of_kept {property : Contents → Prop} (kept : Kept property) (start : property ∅)
    (h : Reached s) : property s.contents := by
  induction h with
  | empty => exact start
  | @operation α s x before offered m limit used ih =>
    rw [run_of_limit_eq_cap x s m limit used]
    have after := offered.keeps kept s.contents ih
    rw [← perform_view x s] at after
    exact after
  | call before p time f origin readOnly ih => exact kept.run ih p time f origin readOnly

theorem conserved (h : Reached s) : s.contents.Conserved := h.of_kept kept_conserved conserved_empty

/-- In every store that can be reached all balances and supplies can be read, and each supply is the
sum of the balances of all accounts. So burning never has to cut the supply off at zero, and sending
never finds a sum of balances too large. -/
theorem supply_eq_sum (h : Reached s) :
    (∀ owner denom, ((Ledger.balance owner denom).perform s).1 =
      .ok (s.contents.balance owner denom)) ∧
    (∀ denom, ((Ledger.supply denom).perform s).1 = .ok (s.contents.supply denom)) ∧
    (∀ denom, (s.contents.supply denom).toNat =
      ∑ owner : Address, (s.contents.balance owner denom).toNat) ∧
    (∀ module coins m, (Ledger.burn module coins).run s m =
      (Ledger.burnExactly module coins).run s m) ∧
    ∀ sender recipient coins m, ((Ledger.send sender recipient coins).run s m).result ≠
      .error (.failed .balanceOverflow) := by
  have conserved := h.conserved
  refine ⟨fun owner denom => ?_, fun denom => ?_, fun denom => ?_, fun module coins m => ?_,
    fun sender recipient coins m failed => ?_⟩
  · have read := Ledger.gives_balance.mpr ⟨conserved.balance owner denom, rfl, rfl⟩
    exact perform_of_gives read
  · have read := Ledger.gives_supply.mpr ⟨conserved.supply denom, rfl, rfl⟩
    exact perform_of_gives read
  · exact (conserved.total denom).symm
  · exact Ledger.agree_burn module coins s m conserved
  · exact Ledger.avoids_send sender recipient coins s.contents conserved
      (evaluate_of_run_failed failed)

theorem supply_eq_sum_after_endow :
    (((Ledger.endow .zero ⟨"abridge", 1000⟩).run ∅ .unbounded).store.contents.supply
      "abridge").toNat = 1000 ∧
    ∑ owner : Address, (((Ledger.endow .zero ⟨"abridge", 1000⟩).run ∅ .unbounded
      ).store.contents.balance owner "abridge").toNat = 1000 := by
  have counted : (((Ledger.endow .zero ⟨"abridge", 1000⟩).run ∅ .unbounded).store.contents.supply
      "abridge").toNat = 1000 := by decide +kernel
  have reached : Reached ((Ledger.endow .zero ⟨"abridge", 1000⟩).run ∅ .unbounded).store :=
    .operation .empty (.endow ..) .unbounded rfl (Nat.zero_le _)
  refine ⟨counted, ?_⟩
  rw [← (supply_eq_sum reached).2.2.1 "abridge"]
  exact counted

end Reached

end LedgerBridge
