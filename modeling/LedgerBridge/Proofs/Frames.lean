import LedgerBridge.Proofs.Delegation
import LedgerBridge.Proofs.Queries

/-! Which records a run may change. Wherever it ends, the map is the one that it started on but for
changes under keys of some area, and under the key of a grant it has put nothing but grants. -/
namespace LedgerBridge

/-- What a record may be changed to. That of a grant takes grants for its type of message only. -/
def Key.Takes : Key → Option Bytes → Prop
  | .grant _ _ type, some bs =>
    ∃ g : Grant, g.authorization.Fits ∧ g.authorization.messageType = type ∧
      Grant.codec.encode g = bs
  | _, _ => True

namespace Contents

/-- Some records of the area were changed, one after another. -/
inductive ChangedWithin (area : Key → Prop) (v : Contents) : Contents → Prop
  | same : ChangedWithin area v v
  | put {w : Contents} (before : ChangedWithin area v w) (key : Key) (inside : area key)
    (change : Option Bytes) (taken : key.Takes change) :
    ChangedWithin area v (Changes.put w key.bytes change)

variable {u v w : Contents} {area : Key → Prop}

theorem ChangedWithin.trans (first : v.ChangedWithin area u) (second : u.ChangedWithin area w) :
    v.ChangedWithin area w := by
  induction second with
  | same => exact first
  | put _ key inside change taken ih => exact ih.put key inside change taken

theorem ChangedWithin.mono {wider : Key → Prop} (h : v.ChangedWithin area w)
    (within : ∀ key, area key → wider key) : v.ChangedWithin wider w := by
  induction h with
  | same => exact .same
  | put _ key inside change taken ih => exact ih.put key (within key inside) change taken

/-- A property that each of the changes keeps is kept by all of them. -/
theorem ChangedWithin.keeps {property : Contents → Prop} (h : v.ChangedWithin area w)
    (closed : ∀ u key change, area key → key.Takes change → property u →
      property (Changes.put u key.bytes change)) (start : property v) : property w := by
  induction h with
  | same => exact start
  | put _ key inside change taken ih => exact closed _ key change inside taken ih

/-- What stands under a key unlike all of the area's is as before. -/
theorem ChangedWithin.get?_eq (h : v.ChangedWithin area w) {key : Bytes}
    (outside : ∀ other, area other → other.bytes ≠ key) : w.get? key = v.get? key := by
  induction h with
  | same => rfl
  | put _ other inside change _ ih =>
    rw [Changes.get?_put, if_neg (outside other inside)]
    exact ih

/-- Changes of other records leave balances alone. -/
theorem ChangedWithin.balance_eq (h : v.ChangedWithin area w)
    (aside : ∀ key, area key → key.kind ≠ .balance) (owner : Address) (denom : String) :
    w.balance owner denom = v.balance owner denom := by
  have same : w.get? (Key.balance owner denom).bytes = v.get? (Key.balance owner denom).bytes :=
    h.get?_eq fun other inside => Key.bytes_ne_of_kind_ne (aside other inside)
  simp only [balance, record?, same]

end Contents

namespace Metered

/-- However a run ends, it has changed no records but those of the area. -/
def ChangesWithin (area : Key → Prop) (x : Metered ε α) : Prop :=
  ∀ v : Contents, v.ChangedWithin area (x.evaluate v).2

variable {area : Key → Prop} {x : Metered ε α}

theorem ChangesWithin.keeps {property : Contents → Prop} (h : ChangesWithin area x)
    (closed : ∀ u key change, area key → key.Takes change → property u →
      property (Changes.put u key.bytes change)) : Keeps property x :=
  fun v start => (h v).keeps closed start

theorem ChangesWithin.mono {wider : Key → Prop} (h : ChangesWithin area x)
    (within : ∀ key, area key → wider key) : ChangesWithin wider x := fun v => (h v).mono within

theorem ChangesWithin.of_gives {v w : Contents} {a : α} (h : ChangesWithin area x)
    (run : x.Gives v a w) : v.ChangedWithin area w := by
  have changed := h v
  rw [run] at changed
  exact changed

theorem Reads.changesWithin (h : Reads x) : ChangesWithin area x := by
  intro v
  rw [h v]
  exact .same

theorem changesWithin_pure (a : α) : ChangesWithin area (pure a : Metered ε α) :=
  (reads_pure a).changesWithin

theorem changesWithin_fail (e : ε) : ChangesWithin area (fail e : Metered ε α) :=
  (reads_fail e).changesWithin

theorem changesWithin_liftM (e : Except ε α) : ChangesWithin area (liftM e : Metered ε α) :=
  (reads_liftM e).changesWithin

/-- What comes second may build on what the first has found. -/
theorem ChangesWithin.bind_gives {f : α → Metered ε β} (first : ChangesWithin area x)
    (rest : ∀ v a w, x.Gives v a w → ChangesWithin area (f a)) : ChangesWithin area (x >>= f) := by
  intro v
  have before := first v
  rw [evaluate_bind]
  split
  · rename_i a u run
    rw [run] at before
    exact before.trans (rest v a u run u)
  · rename_i e u run
    rw [run] at before
    exact before

theorem composes_changesWithin : Composes fun {_} (x : Metered ε _) => ChangesWithin area x :=
  ⟨changesWithin_pure, ChangesWithin.bind_gives⟩

theorem ChangesWithin.bind {f : α → Metered ε β} (first : ChangesWithin area x)
    (rest : ∀ a, ChangesWithin area (f a)) : ChangesWithin area (x >>= f) :=
  composes_changesWithin.bind first rest

theorem ChangesWithin.mapError (h : ChangesWithin area x) (f : ε → ε') :
    ChangesWithin area (x.mapError f) := by
  intro v
  rw [evaluate_mapError]
  exact h v

theorem ChangesWithin.discard (h : ChangesWithin area x) : ChangesWithin area (discard x) :=
  composes_changesWithin.discard h

end Metered

namespace Ledger

open Metered

variable {area : Key → Prop}

theorem changesWithin_write {c : Codec α} {key : Key} {a : α} (inside : area key)
    (taken : c.writable a → key.Takes (some (c.encode a))) :
    ChangesWithin area (write c key a) := by
  simp only [write]
  split
  · rename_i writable
    exact fun v => .put .same key inside _ (taken writable)
  · exact changesWithin_fail _

theorem changesWithin_erase {key : Key} (inside : area key) : ChangesWithin area (erase key) := by
  intro v
  refine .put .same key inside none ?_
  cases key <;> trivial

theorem changesWithin_setBalance {owner : Address} {denom : String}
    (inside : area (.balance owner denom)) (n : Amount) :
    ChangesWithin area (setBalance owner denom n) := by
  simp only [setBalance]
  split
  · exact changesWithin_erase inside
  · exact changesWithin_write inside fun _ => trivial

theorem changesWithin_setSupply {denom : String} (inside : area (.supply denom)) (n : Amount) :
    ChangesWithin area (setSupply denom n) := changesWithin_write inside fun _ => trivial

theorem changesWithin_endow {owner : Address} {coin : Coin}
    (balance : area (.balance owner coin.denom)) (supply : area (.supply coin.denom)) :
    ChangesWithin area (endow owner coin) :=
  (changesWithin_liftM _).bind fun _ => (reads_balance _ _).changesWithin.bind fun _ =>
    (reads_supply _).changesWithin.bind fun _ => (changesWithin_liftM _).bind fun _ =>
      (changesWithin_liftM _).bind fun _ => (changesWithin_setBalance balance _).bind fun _ =>
        changesWithin_setSupply supply _

theorem changesWithin_debit {owner : Address} {coin : Coin}
    (inside : area (.balance owner coin.denom)) : ChangesWithin area (debit owner coin) :=
  (reads_funds _ _).changesWithin.bind fun _ => changesWithin_setBalance inside _

theorem changesWithin_credit {owner : Address} {coin : Coin}
    (inside : area (.balance owner coin.denom)) : ChangesWithin area (credit owner coin) :=
  (reads_balance _ _).changesWithin.bind fun _ => (changesWithin_liftM _).bind fun _ =>
    changesWithin_setBalance inside _

theorem changesWithin_send {sender recipient : Address} {coins : List Coin}
    (inside : ∀ coin ∈ coins,
      area (.balance sender coin.denom) ∧ area (.balance recipient coin.denom)) :
    ChangesWithin area (send sender recipient coins) := by
  refine (changesWithin_liftM _).bind fun _ => ChangesWithin.bind ?_ fun _ => ?_
  · apply composes_changesWithin.forM
    intro coin _
    exact (reads_funds _ _).changesWithin.discard
  · apply composes_changesWithin.forM
    intro coin member
    obtain ⟨payer, payee⟩ := inside coin member
    exact (changesWithin_debit payer).bind fun _ => changesWithin_credit payee

theorem changesWithin_mint {module : String} {coins : List Coin}
    (inside : ∀ coin ∈ coins,
      area (.balance (.ofModule module) coin.denom) ∧ area (.supply coin.denom)) :
    ChangesWithin area (mint module coins) := by
  refine (changesWithin_liftM _).bind fun _ => composes_changesWithin.forM ?_
  intro coin member
  obtain ⟨balance, supply⟩ := inside coin member
  exact (reads_supply _).changesWithin.bind fun _ => (changesWithin_liftM _).bind fun _ =>
    (changesWithin_credit balance).bind fun _ => changesWithin_setSupply supply _

theorem changesWithin_burn {module : String} {coins : List Coin}
    (inside : ∀ coin ∈ coins,
      area (.balance (.ofModule module) coin.denom) ∧ area (.supply coin.denom)) :
    ChangesWithin area (burn module coins) := by
  refine (changesWithin_liftM _).bind fun _ => composes_changesWithin.forM ?_
  intro coin member
  obtain ⟨balance, supply⟩ := inside coin member
  exact (changesWithin_debit balance).bind fun _ => (reads_supply _).changesWithin.bind fun _ =>
    changesWithin_setSupply supply _

theorem changesWithin_setMetadata {m : Metadata} (inside : area (.metadata m.base)) :
    ChangesWithin area (setMetadata m) :=
  (changesWithin_liftM _).bind fun _ => changesWithin_write inside fun _ => trivial

theorem changesWithin_saveGrant {time : UInt64} {granter grantee : Address} {g : Grant}
    (inside : area (.grant granter grantee g.authorization.messageType)) :
    ChangesWithin area (saveGrant time granter grantee g) := by
  simp only [saveGrant]
  split
  · exact changesWithin_fail _
  · apply changesWithin_write inside
    intro writable
    exact ⟨g, (Grant.lawful_codec.writable_iff g).mp writable, rfl, rfl⟩

theorem changesWithin_removeGrant {granter grantee : Address} {type : String}
    (inside : area (.grant granter grantee type)) :
    ChangesWithin area (removeGrant granter grantee type) := by
  refine (reads_has _).changesWithin.bind fun _ => ?_
  split
  · exact changesWithin_erase inside
  · exact changesWithin_fail _

/-- Settling what a message was allowed by changes no grant but that one. -/
theorem changesWithin_settle {time : UInt64} {granter grantee : Address} {grant : Grant}
    {m : Message} {left : Option Authorization} (inside : area (.grant granter grantee m.type))
    (accept : grant.authorization.accept m = .ok left) :
    ChangesWithin area (settle time (.delegated ⟨granter, grantee, grant, left⟩)) := by
  obtain ⟨type, kept⟩ := Authorization.accepted accept
  cases left with
  | none =>
    rw [← type] at inside
    exact changesWithin_removeGrant inside
  | some authorization =>
    obtain ⟨sameType, -⟩ := kept authorization rfl
    rw [← sameType] at inside
    exact changesWithin_saveGrant inside

/-- Who acts under a grant changes that grant at most. -/
theorem changesWithin_settle_of_authorize {time : UInt64} {caller owner : Address} {m : Message}
    {authority : Authority} {v w : Contents}
    (allowed : (authorize time caller owner m).Gives v authority w)
    (inside : caller ≠ owner → area (.grant owner caller m.type)) :
    ChangesWithin area (settle time authority) := by
  obtain ⟨-, ⟨-, rfl⟩ | ⟨another, grant, left, -, accepted, rfl⟩⟩ := authority_of_authorize allowed
  · exact changesWithin_pure _
  · exact changesWithin_settle (inside another) accepted

theorem changesWithin_registerPair {p : TokenPair} (pair : area (.pair p.denom))
    (address : area (.pairAddress p.address)) : ChangesWithin area (registerPair p) := by
  refine (changesWithin_liftM _).bind fun _ => (reads_has _).changesWithin.bind fun _ => ?_
  split
  · exact changesWithin_fail _
  · refine (reads_has _).changesWithin.bind fun _ => ?_
    split
    · exact changesWithin_fail _
    · refine (changesWithin_write pair fun _ => trivial).bind fun _ => ?_
      exact fun v => .put .same (.pairAddress p.address) address (some _) trivial

theorem changesWithin_setBondDenom (inside : area .stakingParams) (denom : String) :
    ChangesWithin area (setBondDenom denom) :=
  (changesWithin_liftM _).bind fun _ => changesWithin_write inside fun _ => trivial

theorem changesWithin_openChannel {port channel : String} (inside : area (.channel port channel))
    (far : ChannelEnd) : ChangesWithin area (openChannel port channel far) :=
  (changesWithin_liftM _).bind fun _ => (changesWithin_liftM _).bind fun _ =>
    changesWithin_write inside fun _ => trivial

theorem changesWithin_release {m : TransferMessage}
    (balance : ∀ owner, area (.balance owner m.token.denom)) (supply : area (.supply m.token.denom)) :
    ChangesWithin area (release m) := by
  have within (payer payee : Address) : ∀ coin ∈ [m.token],
      area (.balance payer coin.denom) ∧ area (.balance payee coin.denom) :=
    List.forall_mem_singleton.mpr ⟨balance payer, balance payee⟩
  simp only [release]
  split
  · exact changesWithin_send (within _ _)
  · refine (changesWithin_send (within _ _)).bind fun _ => changesWithin_burn ?_
    exact List.forall_mem_singleton.mpr ⟨balance _, supply⟩

theorem changesWithin_transfer {m : TransferMessage}
    (balance : ∀ owner, area (.balance owner m.token.denom)) (supply : area (.supply m.token.denom))
    (packet : ∀ sequence, area (.packet m.port m.channel sequence))
    (sequence : area (.sequence m.port m.channel)) : ChangesWithin area (transfer m) := by
  refine (changesWithin_liftM _).bind fun _ => (reads_read? _ _).changesWithin.bind fun _ => ?_
  split
  · exact changesWithin_fail _
  · refine (changesWithin_release balance supply).bind fun _ => ?_
    refine (reads_nextSequence _ _).changesWithin.bind fun n => ?_
    refine (changesWithin_write (packet n) fun _ => trivial).bind fun _ => ?_
    exact (changesWithin_write sequence fun _ => trivial).bind fun _ => changesWithin_pure _

end Ledger

end LedgerBridge
