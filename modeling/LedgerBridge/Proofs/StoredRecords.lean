import LedgerBridge.Proofs.Histories
import LedgerBridge.Proofs.RecordForms

/-! What stands in a ledger that can be reached. Every record is one that was written as such, so all of
them can be read; and a grant stands only where grants for its type of message are looked for. -/
namespace LedgerBridge

namespace Key

/-- The record is part of how the ledger is set up. Calls look at it, but do not change it. -/
def IsSetup : Key → Prop
  | .pair _ | .stakingParams | .channel _ _ => True
  | _ => False

/-- What may stand under a key. -/
def Stores : Key → Option Bytes → Prop
  | .grant _ _ type, some bs =>
    ∃ g, Grant.codec.decodeAll bs = .ok g ∧ g.authorization.messageType = type
  | .pair _, some bs => ∃ p, TokenPair.codec.decodeAll bs = .ok p
  | .stakingParams, some bs => ∃ denom, Codec.string.decodeAll bs = .ok denom
  | .channel _ _, some bs => ∃ far, ChannelEnd.codec.decodeAll bs = .ok far
  | _, _ => True

theorem Takes.stores {key : Key} {change : Option Bytes} (h : key.Takes change)
    (aside : ¬ key.IsSetup) : key.Stores change := by
  cases key with
  | grant granter grantee type =>
    cases change with
    | none => trivial
    | some bs =>
      obtain ⟨g, fits, type, rfl⟩ := h
      exact ⟨g, Grant.lawful_codec.decodeAll_encode fits, type⟩
  | pair | stakingParams | channel => exact absurd trivial aside
  | _ => trivial

end Key

theorem Message.transferType_ne_sendType : transferType ≠ sendType := by decide

namespace Contents

/-- Under each key stands what may stand there, or nothing. -/
def WellStored (v : Contents) : Prop :=
  ∀ (key : Key) bs, v.get? key.bytes = some bs → key.Stores (some bs)

variable {v : Contents} {key : Key} {change : Option Bytes}

theorem wellStored_empty : WellStored ∅ := fun _ _ => nofun

/-- Where the keys of two records are the same, the same may stand there. -/
theorem stores_of_bytes_eq {other : Key} {bs : Bytes} (same : key.bytes = other.bytes)
    (h : key.Stores (some bs)) : other.Stores (some bs) := by
  have kind := Key.kind_eq_of_bytes_eq same
  cases other with
  | grant granter grantee type =>
    cases key <;> simp only [Key.kind, reduceCtorEq] at kind
    obtain ⟨rfl, rfl, rfl⟩ := Key.bytes_grant_inj.mp same
    exact h
  | pair | stakingParams | channel =>
    cases key <;> simp only [Key.kind, reduceCtorEq] at kind
    exact h
  | _ => trivial

theorem WellStored.put (h : v.WellStored) (stored : key.Stores change) :
    WellStored (Changes.put v key.bytes change) := by
  intro other bs found
  rw [Changes.get?_put] at found
  split at found
  · rename_i same
    subst found
    exact stores_of_bytes_eq same stored
  · exact h other bs found

variable {granter grantee : Address} {type : String} {time : UInt64} {g : Grant}

theorem WellStored.readable_grant (h : v.WellStored) (granter grantee : Address) (type : String) :
    v.Readable Grant.codec (.grant granter grantee type) := fun bs found =>
  (h (.grant granter grantee type) bs found).imp fun _ => And.left

theorem WellStored.messageType (h : v.WellStored)
    (live : v.liveGrant? time granter grantee type = some g) :
    g.authorization.messageType = type := by
  obtain ⟨bs, stored, decoded⟩ := Option.bind_eq_some_iff.mp (grant?_of_liveGrant? live).1
  obtain ⟨g', read, ofType⟩ := h (.grant granter grantee type) bs stored
  cases (toOption_eq_some.mp decoded).symm.trans read
  exact ofType

/-- What is found as a send grant is one. -/
theorem WellStored.exists_limits (h : v.WellStored)
    (live : v.liveGrant? time granter grantee Message.sendType = some g) :
    ∃ limits expiration, g = ⟨.send limits, expiration⟩ := by
  have ofType := h.messageType live
  obtain ⟨authorization, expiration⟩ := g
  cases authorization with
  | send limits => exact ⟨limits, expiration, rfl⟩
  | transfer => exact absurd ofType Message.transferType_ne_sendType

/-- What is found as a transfer grant is one. -/
theorem WellStored.exists_allocations (h : v.WellStored)
    (live : v.liveGrant? time granter grantee Message.transferType = some g) :
    ∃ allocations expiration, g = ⟨.transfer allocations, expiration⟩ := by
  have ofType := h.messageType live
  obtain ⟨authorization, expiration⟩ := g
  cases authorization with
  | send => exact absurd ofType.symm Message.transferType_ne_sendType
  | transfer allocations => exact ⟨allocations, expiration, rfl⟩

end Contents

open Metered Contents

/-- Runs that leave the setup alone keep all well stored. -/
theorem Metered.ChangesWithin.keepsStored {x : Metered ε α}
    (h : ChangesWithin (fun key => ¬ key.IsSetup) x) : Keeps WellStored x :=
  h.keeps fun _ _ _ aside taken stored => stored.put (taken.stores aside)

namespace Ledger

theorem keepsStored_write {c : Codec α} {key : Key} {a : α}
    (stored : c.writable a → key.Stores (some (c.encode a))) : Keeps WellStored (write c key a) := by
  simp only [write]
  split
  · rename_i writable
    exact fun v start => start.put (stored writable)
  · exact keeps_fail _

theorem keepsStored_registerPair (p : TokenPair) : Keeps WellStored (registerPair p) := by
  refine (keeps_liftM _).bind fun _ => (reads_has _).keeps.bind fun _ => ?_
  split
  · exact keeps_fail _
  · refine (reads_has _).keeps.bind fun _ => ?_
    split
    · exact keeps_fail _
    · refine (keepsStored_write fun writable => ?_).bind fun _ => ?_
      · have fits := (TokenPair.lawful_codec.writable_iff p).mp writable
        exact ⟨p, TokenPair.lawful_codec.decodeAll_encode fits⟩
      · have aside : (Key.pairAddress p.address).Stores (some (Bytes.ofString p.denom)) := trivial
        exact fun v start => start.put aside

theorem keepsStored_setBondDenom (denom : String) : Keeps WellStored (setBondDenom denom) :=
  (keeps_liftM _).bind fun _ => keepsStored_write fun writable =>
    ⟨denom, Codec.lawful_string.decodeAll_encode ((Codec.lawful_string.writable_iff _).mp writable)⟩

theorem keepsStored_openChannel (port channel : String) (far : ChannelEnd) :
    Keeps WellStored (openChannel port channel far) :=
  (keeps_liftM _).bind fun _ => (keeps_liftM _).bind fun _ => keepsStored_write fun writable =>
    ⟨far, ChannelEnd.lawful_codec.decodeAll_encode
      ((ChannelEnd.lawful_codec.writable_iff far).mp writable)⟩

theorem KeeperOperation.keepsStored {x : Ledger α} (h : KeeperOperation x) :
    Keeps WellStored x := by
  have aside {owner : Address} {denom : String} : ¬ (Key.balance owner denom).IsSetup := id
  cases h with
  | balance => exact (reads_balance _ _).keeps
  | supply => exact (reads_supply _).keeps
  | balances => exact (reads_balances _).keeps
  | metadata? => exact (reads_read? _ _).keeps
  | grant? => exact (reads_grant? _ _ _ _).keeps
  | pairOf? => exact (reads_read? _ _).keeps
  | pairAt? => exact (reads_pairAt? _).keeps
  | pairs => exact (reads_readAll _ _).keeps
  | bondDenom => exact reads_bondDenom.keeps
  | channel? => exact (reads_read? _ _).keeps
  | nextSequence => exact (reads_nextSequence _ _).keeps
  | packet? => exact (reads_read? _ _).keeps
  | packets => exact (reads_readAll _ _).keeps
  | endow => exact (changesWithin_endow aside id).keepsStored
  | send => exact (changesWithin_send fun _ _ => ⟨aside, aside⟩).keepsStored
  | mint => exact (changesWithin_mint fun _ _ => ⟨aside, id⟩).keepsStored
  | burn => exact (changesWithin_burn fun _ _ => ⟨aside, id⟩).keepsStored
  | sendFromModule => exact (changesWithin_send fun _ _ => ⟨aside, aside⟩).keepsStored
  | sendToModule => exact (changesWithin_send fun _ _ => ⟨aside, aside⟩).keepsStored
  | setMetadata => exact (changesWithin_setMetadata id).keepsStored
  | saveGrant => exact (changesWithin_saveGrant id).keepsStored
  | removeGrant => exact (changesWithin_removeGrant id).keepsStored
  | registerPair p => exact keepsStored_registerPair p
  | setBondDenom denom => exact keepsStored_setBondDenom denom
  | openChannel port channel far => exact keepsStored_openChannel port channel far
  | transfer => exact (changesWithin_transfer (fun _ => id) id (fun _ => id) id).keepsStored

end Ledger

namespace Precompile

variable {p : Precompile} {time : UInt64} {s : Store} {f : Frame} {origin : Address}
  {readOnly : Bool}

theorem keepsStored_operation {x : Action Completed}
    (h : p.operation time f origin readOnly = .ok x) : Keeps WellStored x := by
  cases p with
  | token t =>
    obtain ⟨⟨m, args⟩, -, rfl⟩ := map_eq_ok.mp h
    refine (t.changesWithin_operate m.op _).keeps fun v key change inside taken stored => ?_
    refine stored.put (taken.stores ?_)
    cases key <;> first | exact id | exact fun _ => inside
  | outpost o =>
    obtain ⟨⟨⟨op, signature, inputs, kind, gas⟩, args⟩, -, rfl⟩ := map_eq_ok.mp h
    cases op
    refine (o.changesWithin_swap _).keeps fun v key change inside taken stored => ?_
    refine stored.put (taken.stores ?_)
    cases key <;> first | exact id | exact fun _ => inside

end Precompile

namespace Reached

variable {s : Store}

/-- In a ledger that can be reached every record can be read as what it is. -/
theorem wellStored (h : Reached s) : s.contents.WellStored := by
  induction h with
  | empty => exact wellStored_empty
  | @operation α s x before offered m limit used ih =>
    rw [run_of_limit_eq_cap x s m limit used]
    have kept := offered.keepsStored s.contents ih
    rw [← perform_view x s] at kept
    exact kept
  | @call s before p time f origin readOnly ih =>
    cases ended : (p.run time s f origin readOnly).result with
    | error e =>
      rw [Precompile.store_of_run_error ended]
      exact ih
    | ok out =>
      obtain ⟨x, read, gives⟩ := Precompile.gives_of_run ended
      exact (Precompile.keepsStored_operation read).of_gives gives ih

end Reached

end LedgerBridge
