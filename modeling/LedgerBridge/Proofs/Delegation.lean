import LedgerBridge.Precompile.Gateway
import LedgerBridge.Proofs.Authorizations
import LedgerBridge.Proofs.Balances

/-! Spending under grants. A caller that moves what is not its own has a grant in force for it, and
afterwards the grant covers as much less as was moved. -/
namespace LedgerBridge

theorem Grant.isExpired_of_le {g : Grant} {earlier time : UInt64} (le : earlier ≤ time)
    (live : g.isExpired time = false) : g.isExpired earlier = false := by
  obtain ⟨authorization, expiration⟩ := g
  cases expiration with
  | none => rfl
  | some last =>
    simp only [isExpired, Option.any_some, decide_eq_false_iff_not] at live ⊢
    exact fun passed => live (UInt64.le_trans passed le)

namespace Contents

/-- What may be sent under a grant that is in force. -/
def sendLimits (v : Contents) (time : UInt64) (granter grantee : Address) : Limits :=
  match v.liveGrant? time granter grantee Message.sendType with
  | some ⟨.send limits, _⟩ => limits
  | _ => []

/-- What may leave over channels under a grant that is in force. -/
def transferAllocations (v : Contents) (time : UInt64) (granter grantee : Address) :
    List Allocation :=
  match v.liveGrant? time granter grantee Message.transferType with
  | some ⟨.transfer allocations, _⟩ => allocations
  | _ => []

/-- A send grant covered the amount, and its limit is less by just that amount. -/
def SpentSend (v w : Contents) (time : UInt64) (granter grantee : Address) (denom : String)
    (amount : Nat) : Prop :=
  ∃ limits expiration,
    v.liveGrant? time granter grantee Message.sendType = some ⟨.send limits, expiration⟩ ∧
      amount ≤ (limits.limit denom).toNat ∧
      ((w.sendLimits time granter grantee).limit denom).toNat + amount = (limits.limit denom).toNat

/-- The limit of a denomination was set in a send grant in force, which ends with its last limit. -/
def Relimited (v : Contents) (time : UInt64) (granter grantee : Address) (limits : Limits)
    (denom : String) (next : Amount) (w : Contents) : Prop :=
  ∃ expiration,
    v.liveGrant? time granter grantee Message.sendType = some ⟨.send limits, expiration⟩ ∧
      w.grant? granter grantee Message.sendType =
        if limits.set denom next = [] then none
        else some ⟨.send (limits.set denom next), expiration⟩

/-- An amount was drawn from the limit of a denomination in a send grant in force. -/
def Drawn (v : Contents) (time : UInt64) (granter grantee : Address) (denom : String) (amount : Nat)
    (w : Contents) : Prop :=
  ∃ limits next, next.toNat + amount = (Limits.limit limits denom).toNat ∧
    v.Relimited time granter grantee limits denom next w

/-- The first allocation of the channel in a transfer grant allowed the receiver and covered the
amount. Its limit is less by just that amount; without any limits it is gone. -/
def SpentTransfer (v w : Contents) (time : UInt64) (granter grantee : Address)
    (port channel receiver denom : String) (amount : Nat) : Prop :=
  ∃ before a after rest expiration,
    v.liveGrant? time granter grantee Message.transferType =
        some ⟨.transfer (before ++ a :: after), expiration⟩ ∧
      (∀ b ∈ before, ¬ (b.port = port ∧ b.channel = channel)) ∧
      (a.port = port ∧ a.channel = channel) ∧ a.allows receiver ∧
      amount ≤ (a.limits.limit denom).toNat ∧
      (Limits.limit rest denom).toNat + amount = (a.limits.limit denom).toNat ∧
      w.transferAllocations time granter grantee =
        before ++ (if rest = [] then after else { a with limits := rest } :: after)

variable {v : Contents} {key : Key}

theorem fits_of_record? {c : Codec α} {fits : α → Prop} {a : α} (law : c.Lawful fits)
    (h : v.record? c key = some a) : fits a := by
  simp only [record?] at h
  obtain ⟨bs, -, decoded⟩ := Option.bind_eq_some_iff.mp h
  exact law.fits_of_decodeAll (toOption_eq_some.mp decoded)

theorem record?_put_encode {c : Codec α} {fits : α → Prop} {a : α} (law : c.Lawful fits)
    (fit : fits a) : record? (Changes.put v key.bytes (some (c.encode a))) c key = some a := by
  rw [record?_put_same]
  simp [law.decodeAll_encode fit]

theorem grant?_of_liveGrant? {time : UInt64} {granter grantee : Address} {type : String} {g : Grant}
    (h : v.liveGrant? time granter grantee type = some g) :
    v.grant? granter grantee type = some g ∧ g.isExpired time = false := by
  obtain ⟨found, live⟩ := Option.filter_eq_some_iff.mp h
  simp only [Bool.not_eq_true'] at live
  exact ⟨found, live⟩

theorem liveGrant?_of_grant? {time : UInt64} {granter grantee : Address} {type : String} {g : Grant}
    (stored : v.grant? granter grantee type = some g) (live : g.isExpired time = false) :
    v.liveGrant? time granter grantee type = some g := by
  rw [liveGrant?, stored]
  simp [live]

variable {w : Contents} {time earlier : UInt64} {granter grantee : Address} {limits : Limits}
  {denom : String} {next : Amount}

theorem sendLimits_of_liveGrant? {expiration : Option UInt64}
    (live : v.liveGrant? time granter grantee Message.sendType = some ⟨.send limits, expiration⟩) :
    v.sendLimits time granter grantee = limits := by
  rw [sendLimits, live]

/-- The limits before and after, as seen at the time and at any time before. -/
theorem Relimited.sendLimits (h : v.Relimited time granter grantee limits denom next w)
    (le : earlier ≤ time) :
    v.sendLimits earlier granter grantee = limits ∧
      w.sendLimits earlier granter grantee = limits.set denom next := by
  obtain ⟨expiration, live, after⟩ := h
  obtain ⟨stored, inForce⟩ := grant?_of_liveGrant? live
  have before := liveGrant?_of_grant? stored (Grant.isExpired_of_le le inForce)
  refine ⟨sendLimits_of_liveGrant? before, ?_⟩
  by_cases last : limits.set denom next = []
  · rw [if_pos last] at after
    rw [Contents.sendLimits, liveGrant?, after, last]
    rfl
  · rw [if_neg last] at after
    exact sendLimits_of_liveGrant?
      (liveGrant?_of_grant? after (Grant.isExpired_of_le le inForce))

theorem Drawn.spentSend {amount : Nat} (h : v.Drawn time granter grantee denom amount w) :
    v.SpentSend w time granter grantee denom amount := by
  obtain ⟨limits, next, less, set⟩ := h
  have after := (set.sendLimits UInt64.le_rfl).2
  obtain ⟨expiration, live, -⟩ := set
  refine ⟨limits, expiration, live, Nat.le.intro ((Nat.add_comm _ _).trans less), ?_⟩
  rw [after, Limits.limit_set_same]
  exact less

end Contents

namespace Ledger

open Metered

variable {v w : Contents} {time : UInt64} {granter grantee caller owner : Address} {type : String}

theorem gives_grant? {found : Option Grant} :
    (grant? time granter grantee type).Gives v found w ↔
      v.Readable Grant.codec (.grant granter grantee type) ∧
        v.liveGrant? time granter grantee type = found ∧ v = w := by
  simp only [grant?, gives_bind, gives_read?, gives_pure]
  constructor
  · rintro ⟨_, _, ⟨readable, rfl, rfl⟩, rfl, rfl⟩
    exact ⟨readable, rfl, rfl⟩
  · rintro ⟨readable, rfl, rfl⟩
    exact ⟨_, _, ⟨readable, rfl, rfl⟩, rfl, rfl⟩

/-- A caller acts for itself, or under a grant that accepts the message. -/
theorem authority_of_authorize {m : Message} {authority : Authority}
    (h : (authorize time caller owner m).Gives v authority w) :
    v = w ∧ (caller = owner ∧ authority = .own ∨
      caller ≠ owner ∧ ∃ grant left, v.liveGrant? time owner caller m.type = some grant ∧
        grant.authorization.accept m = .ok left ∧
        authority = .delegated ⟨owner, caller, grant, left⟩) := by
  simp only [authorize] at h
  split at h
  · rename_i own
    obtain ⟨rfl, rfl⟩ := gives_pure.mp h
    exact ⟨rfl, .inl ⟨own, rfl⟩⟩
  · rename_i another
    simp only [gives_bind, gives_grant?] at h
    obtain ⟨found, _, ⟨-, live, rfl⟩, h⟩ := h
    cases found with
    | none => exact absurd h gives_fail
    | some grant =>
      simp only [gives_bind, gives_liftM, gives_pure] at h
      obtain ⟨left, _, ⟨accepted, rfl⟩, rfl, rfl⟩ := h
      exact ⟨rfl, .inr ⟨another, grant, left, live, accepted, rfl⟩⟩

theorem gives_authorize {m : Message} {grant : Grant} {left : Option Authorization}
    (readable : v.Readable Grant.codec (.grant owner caller m.type)) (another : caller ≠ owner)
    (live : v.liveGrant? time owner caller m.type = some grant)
    (accepted : grant.authorization.accept m = .ok left) :
    (authorize time caller owner m).Gives v (.delegated ⟨owner, caller, grant, left⟩) v := by
  simp only [authorize, if_neg another, gives_bind, gives_grant?]
  refine ⟨_, v, ⟨readable, live, rfl⟩, ?_⟩
  exact gives_bind.mpr ⟨_, v, gives_liftM.mpr ⟨accepted, rfl⟩, gives_pure.mpr ⟨rfl, rfl⟩⟩

theorem gives_saveGrant {g : Grant} {done : Unit} :
    (saveGrant time granter grantee g).Gives v done w ↔
      g.isExpired time = false ∧ g.authorization.Fits ∧
        Changes.put v (Key.grant granter grantee g.authorization.messageType).bytes
          (some (Grant.codec.encode g)) = w := by
  simp only [saveGrant]
  cases expired : g.isExpired time <;> simp [Grant.lawful_codec.writable_iff]

theorem gives_removeGrant {done : Unit} :
    (removeGrant granter grantee type).Gives v done w ↔
      v.contains (Key.grant granter grantee type).bytes ∧
        Changes.put v (Key.grant granter grantee type).bytes none = w := by
  simp only [removeGrant, gives_bind, contains, gives_has]
  constructor
  · rintro ⟨present, _, ⟨rfl, rfl⟩, rest⟩
    split at rest
    · rename_i there
      exact ⟨there, gives_erase.mp rest⟩
    · exact absurd rest gives_fail
  · rintro ⟨there, rfl⟩
    refine ⟨_, _, ⟨rfl, rfl⟩, ?_⟩
    rw [if_pos there]
    exact gives_erase.mpr rfl

/-- Settling changes nothing but a grant. -/
theorem exists_put_of_settle {authority : Authority} {done : Unit}
    (h : (settle time authority).Gives v done w) :
    w = v ∨ ∃ granter grantee type change,
      w = Changes.put v (Key.grant granter grantee type).bytes change := by
  cases authority with
  | own => exact .inl (gives_pure.mp h).2.symm
  | delegated d =>
    unfold settle at h
    simp only at h
    split at h
    · obtain ⟨-, -, rfl⟩ := gives_saveGrant.mp h
      exact .inr ⟨_, _, _, _, rfl⟩
    · obtain ⟨-, rfl⟩ := gives_removeGrant.mp h
      exact .inr ⟨_, _, _, _, rfl⟩

theorem balance_settle {authority : Authority} {done : Unit}
    (h : (settle time authority).Gives v done w) (owner : Address) (denom : String) :
    w.balance owner denom = v.balance owner denom := by
  rcases exists_put_of_settle h with rfl | ⟨granter, grantee, type, change, rfl⟩
  · rfl
  · simp

/-- What a message was allowed by can be settled, if the grant is still what it was then. -/
theorem gives_settle {u : Contents} {m : Message} {grant : Grant} {left : Option Authorization}
    (live : v.liveGrant? time granter grantee m.type = some grant)
    (accepted : grant.authorization.accept m = .ok left)
    (kept : u.get? (Key.grant granter grantee m.type).bytes =
      v.get? (Key.grant granter grantee m.type).bytes) :
    (settle time (.delegated ⟨granter, grantee, grant, left⟩)).Gives u ()
      (Changes.put u (Key.grant granter grantee m.type).bytes
        (left.map fun authorization => Grant.codec.encode { grant with authorization })) := by
  obtain ⟨stored, inForce⟩ := Contents.grant?_of_liveGrant? live
  obtain ⟨type, leaves⟩ := Authorization.accepted accepted
  cases left with
  | none =>
    obtain ⟨bs, there, -⟩ := Option.bind_eq_some_iff.mp stored
    refine gives_removeGrant.mpr ⟨?_, by rw [type]; rfl⟩
    rw [type, ByteMap.contains, kept, there]
    rfl
  | some authorization =>
    obtain ⟨sameType, fits⟩ := leaves authorization rfl
    have fit := Contents.fits_of_record? Grant.lawful_codec stored
    refine gives_saveGrant.mpr ⟨inForce, fits fit, ?_⟩
    rw [sameType]
    rfl

/-- What is stored under the grant's key afterwards is what the message left, if anything. -/
theorem get?_of_settle {u : Contents} {m : Message} {grant : Grant} {left : Option Authorization} {settled : Unit}
    (accepted : grant.authorization.accept m = .ok left)
    (h : (settle time (.delegated ⟨granter, grantee, grant, left⟩)).Gives u settled w) :
    w.get? (Key.grant granter grantee m.type).bytes =
      left.map fun authorization => Grant.codec.encode { grant with authorization } := by
  obtain ⟨type, leaves⟩ := Authorization.accepted accepted
  cases left with
  | none =>
    obtain ⟨-, rfl⟩ := gives_removeGrant.mp h
    rw [type, Changes.get?_put, if_pos rfl]
    rfl
  | some authorization =>
    obtain ⟨-, -, rfl⟩ := gives_saveGrant.mp h
    rw [(leaves authorization rfl).1, Changes.get?_put, if_pos rfl]
    rfl

/-- After settling, the grant is for what the message left of its authorization. -/
theorem grant?_of_settle {u : Contents} {grant : Grant} {m : Message} {left : Option Authorization}
    {done : Unit} (live : u.liveGrant? time granter grantee m.type = some grant)
    (accept : grant.authorization.accept m = .ok left)
    (h : (settle time (.delegated ⟨granter, grantee, grant, left⟩)).Gives v done w) :
    w.grant? granter grantee m.type = left.map fun authorization => { grant with authorization } := by
  have fits := Contents.fits_of_record? Grant.lawful_codec (Contents.grant?_of_liveGrant? live).1
  have stored := get?_of_settle accept h
  rw [Contents.grant?, Contents.record?, stored]
  cases left with
  | none => rfl
  | some authorization =>
    have fit := ((Authorization.accepted accept).2 authorization rfl).2 fits
    simp [Grant.lawful_codec.decodeAll_encode (a := { grant with authorization }) fit]

/-- What is left of the authorization is in force as long as it was. -/
theorem liveGrant?_of_settle {u : Contents} {grant : Grant} {m : Message}
    {left : Option Authorization} {done : Unit}
    (live : u.liveGrant? time granter grantee m.type = some grant)
    (accept : grant.authorization.accept m = .ok left)
    (h : (settle time (.delegated ⟨granter, grantee, grant, left⟩)).Gives v done w) :
    w.liveGrant? time granter grantee m.type =
      left.map fun authorization => { grant with authorization } := by
  have inForce := (Contents.grant?_of_liveGrant? live).2
  have stored := grant?_of_settle live accept h
  cases left with
  | none =>
    rw [Contents.liveGrant?, stored]
    rfl
  | some authorization => exact Contents.liveGrant?_of_grant? stored inForce

/-- Who moves a coin of another's under a send grant draws what was moved from it. -/
theorem drawn_of_settle_send {u : Contents} {grant : Grant} {m : SendMessage}
    {left : Option Authorization} {coin : Coin} {done : Unit} (single : m.coins = [coin])
    (live : u.liveGrant? time granter grantee Message.sendType = some grant)
    (accept : grant.authorization.accept (.send m) = .ok left)
    (h : (settle time (.delegated ⟨granter, grantee, grant, left⟩)).Gives v done w) :
    u.Drawn time granter grantee coin.denom coin.amount.toNat w := by
  have after := grant?_of_settle (m := .send m) live accept h
  obtain ⟨limits, rest, granted, spent, rfl⟩ := Authorization.accept_send_eq_ok.mp accept
  obtain ⟨authorization, expiration⟩ := grant
  cases granted
  rw [single] at spent
  simp only [Limits.spendAll, List.foldlM_cons, List.foldlM_nil, bind_eq_ok, pure_eq_ok,
    exists_eq_right] at spent
  have less := Limits.limit_of_spend spent
  obtain ⟨-, rfl⟩ := Limits.spend_eq_ok.mp spent
  rw [Limits.limit_set_same] at less
  have set : u.Relimited time granter grantee limits coin.denom
      ((limits.limit coin.denom).minus coin.amount) w := by
    refine ⟨expiration, live, after.trans ?_⟩
    split <;> rfl
  exact ⟨limits, _, less, set⟩

theorem spent_of_settle_transfer {u : Contents} {grant : Grant} {m : TransferMessage}
    {left : Option Authorization} {done : Unit}
    (live : u.liveGrant? time granter grantee Message.transferType = some grant)
    (accept : grant.authorization.accept (.transfer m) = .ok left)
    (h : (settle time (.delegated ⟨granter, grantee, grant, left⟩)).Gives v done w) :
    u.SpentTransfer w time granter grantee m.port m.channel m.receiver m.token.denom
      m.token.amount.toNat := by
  have after := liveGrant?_of_settle (m := .transfer m) live accept h
  obtain ⟨allocations, rest, granted, spent, rfl⟩ := Authorization.accept_transfer_eq_ok.mp accept
  obtain ⟨authorization, expiration⟩ := grant
  cases granted
  obtain ⟨before, a, others, taken, rfl, apart, here, used, rfl⟩ :=
    Allocation.exists_of_spendFirst spent
  obtain ⟨allowed, limits, paid, rfl⟩ := Allocation.spend_eq_ok.mp used
  have less := Limits.limit_of_spend paid
  refine ⟨before, a, others, limits, expiration, live, apart, here, allowed, by omega, less, ?_⟩
  simp only [Contents.transferAllocations]
  rw [show w.liveGrant? time granter grantee Message.transferType = _ from after]
  by_cases empty : limits = []
  · by_cases none : before ++ others = []
    · simp_all
    · simp [empty, none]
  · simp [empty]

end Ledger

end LedgerBridge
