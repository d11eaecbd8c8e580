import LedgerBridge.Proofs.Footprints

/-! What one account may move of another's, and how the operations of token contracts change it. All
tokens share one grant between two accounts; an operation changes the limit of its own token in it, and
what the grant lets be spent of others is as before. -/
namespace LedgerBridge

/-- What a call means for an allowance. -/
inductive AllowanceUse
  | change (how : TokenContract.AllowanceChange) (amount : Nat)
  | spend (amount : Nat)
  | none
  deriving DecidableEq

namespace AllowanceUse

/-- From which allowance a use leads to which. -/
def Leads : AllowanceUse → (before after : Nat) → Prop
  | change .set amount, _, after => after = amount
  | change .increase amount, before, after => after = before + amount
  | change .decrease amount, before, after => after + amount = before
  | spend amount, before, after => after + amount = before
  | none, before, after => after = before

def spent : AllowanceUse → Nat
  | spend amount => amount
  | _ => 0

/-- The use leaves it to the spender what becomes of the allowance. -/
def isChange : AllowanceUse → Bool
  | change _ _ => true
  | _ => false

end AllowanceUse

namespace Contents

/-- What the spender may move of the owner's at the time. -/
def allowance (v : Contents) (time : UInt64) (owner spender : Address) (denom : String) : Amount :=
  (v.sendLimits time owner spender).limit denom

/-- What became of an allowance, as seen at the time of a call. As seen earlier it may also have been
cut, since a grant that had expired at the call may have been replaced. -/
structure Accounted (v : Contents) (time : UInt64) (owner spender : Address) (denom : String)
    (use : AllowanceUse) (w : Contents) : Prop where
  leads : use.Leads (v.allowance time owner spender denom).toNat
    (w.allowance time owner spender denom).toNat
  covered : ∀ earlier ≤ time, use.isChange = false →
    (w.allowance earlier owner spender denom).toNat + use.spent ≤
      (v.allowance earlier owner spender denom).toNat

/-- A send grant with one limit was made where none was in force. -/
def Begun (v : Contents) (time : UInt64) (owner spender : Address) (denom : String) (next : Amount)
    (w : Contents) : Prop :=
  v.liveGrant? time owner spender Message.sendType = none ∧
    ∃ expiration, Grant.isExpired ⟨.send [⟨denom, next⟩], expiration⟩ time = false ∧
      w.grant? owner spender Message.sendType = some ⟨.send [⟨denom, next⟩], expiration⟩

variable {v w : Contents} {time earlier : UInt64} {owner spender : Address} {limits : Limits}
  {denom other : String} {next : Amount} {use : AllowanceUse}

theorem Relimited.accounted_other (h : v.Relimited time owner spender limits denom next w)
    (apart : denom ≠ other) : v.Accounted time owner spender other .none w := by
  have same (earlier : UInt64) (le : earlier ≤ time) :
      w.allowance earlier owner spender other = v.allowance earlier owner spender other := by
    obtain ⟨before, after⟩ := h.sendLimits le
    rw [allowance, allowance, before, after]
    exact Limits.limit_set_other limits apart next
  constructor
  · exact congrArg BitVec.toNat (same time UInt64.le_rfl)
  · intro earlier le _
    rw [same earlier le]
    exact Nat.le_refl _

theorem Drawn.accounted {amount : Nat} (h : v.Drawn time owner spender denom amount w) :
    v.Accounted time owner spender denom (.spend amount) w := by
  obtain ⟨limits, next, spent, set⟩ := h
  have less (earlier : UInt64) (le : earlier ≤ time) :
      (w.allowance earlier owner spender denom).toNat + amount =
        (v.allowance earlier owner spender denom).toNat := by
    obtain ⟨before, after⟩ := set.sendLimits le
    rw [allowance, allowance, before, after, Limits.limit_set_same]
    exact spent
  exact ⟨less time UInt64.le_rfl, fun earlier le _ => Nat.le_of_eq (less earlier le)⟩

theorem Relimited.accounted_change (h : v.Relimited time owner spender limits denom next w)
    {how : TokenContract.AllowanceChange} {amount : Nat}
    (leads : (AllowanceUse.change how amount).Leads (limits.limit denom).toNat next.toNat) :
    v.Accounted time owner spender denom (.change how amount) w := by
  obtain ⟨before, after⟩ := h.sendLimits UInt64.le_rfl
  constructor
  · rw [allowance, allowance, before, after, Limits.limit_set_same]
    exact leads
  · intro _ _ unchanged
    cases unchanged

theorem Begun.sendLimits (h : v.Begun time owner spender denom next w) :
    v.sendLimits time owner spender = [] ∧
      ∀ earlier ≤ time, w.sendLimits earlier owner spender = [⟨denom, next⟩] := by
  obtain ⟨dead, expiration, live, after⟩ := h
  constructor
  · rw [Contents.sendLimits, dead]
  · intro earlier le
    exact sendLimits_of_liveGrant? (liveGrant?_of_grant? after (Grant.isExpired_of_le le live))

theorem Begun.accounted_other (h : v.Begun time owner spender denom next w)
    (apart : denom ≠ other) : v.Accounted time owner spender other .none w := by
  obtain ⟨before, after⟩ := h.sendLimits
  have nothing (earlier : UInt64) (le : earlier ≤ time) :
      w.allowance earlier owner spender other = 0 := by
    rw [allowance, after earlier le]
    simp [Limits.limit, Limits.limit?, apart]
  constructor
  · rw [nothing time UInt64.le_rfl, allowance, before]
    rfl
  · intro earlier le _
    rw [nothing earlier le]
    exact Nat.zero_le _

theorem Begun.accounted_change (h : v.Begun time owner spender denom next w)
    {how : TokenContract.AllowanceChange} {amount : Nat}
    (leads : (AllowanceUse.change how amount).Leads 0 next.toNat) :
    v.Accounted time owner spender denom (.change how amount) w := by
  obtain ⟨before, after⟩ := h.sendLimits
  constructor
  · rw [allowance, allowance, before, after time UInt64.le_rfl]
    simpa [Limits.limit, Limits.limit?] using leads
  · intro _ _ unchanged
    cases unchanged

/-- Without a change of the grant there is none of an allowance. -/
theorem accounted_of_grant?_eq (same : w.grant? owner spender Message.sendType =
      v.grant? owner spender Message.sendType) :
    v.Accounted time owner spender denom .none w := by
  have kept (earlier : UInt64) :
      w.allowance earlier owner spender denom = v.allowance earlier owner spender denom := by
    rw [allowance, allowance, sendLimits, sendLimits, liveGrant?, liveGrant?, same]
  constructor
  · exact congrArg BitVec.toNat (kept time)
  · intro earlier _ _
    rw [kept]
    exact Nat.le_refl _

/-- A grant whose key is not in the area is as before. -/
theorem ChangedWithin.grant?_eq {area : Key → Prop} (h : v.ChangedWithin area w)
    (outside : ∀ granter grantee type, area (.grant granter grantee type) →
      ¬ (granter = owner ∧ grantee = spender ∧ type = Message.sendType)) :
    w.grant? owner spender Message.sendType = v.grant? owner spender Message.sendType := by
  have same : w.get? (Key.grant owner spender Message.sendType).bytes =
      v.get? (Key.grant owner spender Message.sendType).bytes := by
    apply h.get?_eq
    intro key inside equal
    have kind := Key.kind_eq_of_bytes_eq equal
    cases key with
    | grant granter grantee type =>
      exact outside granter grantee type inside (Key.bytes_grant_inj.mp equal)
    | _ => simp at kind
  rw [grant?, grant?, record?, record?, same]

end Contents

/-- The number that stands at a place, if one does. -/
def Arguments.number (args : Arguments) (index : Nat) : Nat :=
  match (args[index]? : Option Abi.Value) with
  | some (.uint n) => n.toNat
  | _ => 0

theorem Arguments.number_eq {args : Arguments} {index : Nat} {a : Amount}
    (stated : args[index]? = some (.ofAmount a)) : args.number index = a.toNat := by
  simp only [number, stated, Abi.Value.ofAmount]
  exact (Word.toNat_eq_iff.mpr rfl).symm

namespace TokenContract

open Metered LedgerBridge.Action

/-- What an operation means for the allowance that the spender has from the owner. -/
def Operation.use (op : Operation) (caller : Address) (args : Arguments) (owner spender : Address) :
    AllowanceUse :=
  if op.concerns caller args owner spender then
    match op with
    | .approve => .change .set (args.number 1)
    | .increaseAllowance => .change .increase (args.number 1)
    | .decreaseAllowance => .change .decrease (args.number 1)
    | .transferFrom => .spend (args.number 2)
    | _ => .none
  else .none

theorem leads_of_next {how : AllowanceChange} {denom : String} {current : Option Amount}
    {amount next : Amount} (h : how.next denom current amount = .ok next) :
    (AllowanceUse.change how amount.toNat).Leads (current.getD 0).toNat next.toNat := by
  cases how with
  | set =>
    have same : next = amount := by
      cases current <;> simp only [AllowanceChange.next] at h
      · split at h <;> cases h
        rfl
      · cases h
        rfl
    exact congrArg BitVec.toNat same
  | increase =>
    cases current with
    | none =>
      simp only [AllowanceChange.next] at h
      split at h <;> cases h
      simp [AllowanceUse.Leads]
    | some current =>
      simp only [AllowanceChange.next] at h
      cases sum : current.plus? amount with
      | none => simp [sum] at h
      | some total =>
        simp only [sum, Except.ok.injEq] at h
        subst h
        exact Amount.ofNat?_eq_some_iff.mp sum
  | decrease =>
    cases current with
    | none => cases h
    | some current =>
      simp only [AllowanceChange.next, Amount.minus?] at h
      by_cases enough : amount ≤ current
      · rw [if_pos enough] at h
        cases h
        have le : amount.toNat ≤ current.toNat := BitVec.le_def.mp enough
        simp only [AllowanceUse.Leads, Option.getD_some, Amount.toNat_minus]
        omega
      · rw [if_neg enough] at h
        cases h

variable {v w : Contents} {c : Call} {done : Completed} {t : TokenContract} {owner spender : Address}

/-- Storing an allowance sets the limit of the token, in the grant in force or in a new one. -/
theorem relimited_or_begun_of_storeAllowance {time : UInt64} {amount : Amount} {stored : Unit}
    (h : (t.storeAllowance time owner spender
      (v.liveGrant? time owner spender Message.sendType) amount).Gives v stored w) :
    (∃ limits, (t.grantedLimit? (v.liveGrant? time owner spender Message.sendType)).getD 0 =
        limits.limit t.denom ∧ v.Relimited time owner spender limits t.denom amount w) ∨
      t.grantedLimit? (v.liveGrant? time owner spender Message.sendType) = none ∧
        v.Begun time owner spender t.denom amount w := by
  simp only [storeAllowance] at h
  split at h
  · rename_i limits expiration live
    refine .inl ⟨limits, by rw [live]; rfl, expiration, live, ?_⟩
    split at h
    · rename_i last
      obtain ⟨-, rfl⟩ := Ledger.gives_removeGrant.mp (gives_ofLedger.mp h)
      rw [if_pos last, Contents.grant?, Contents.record?_put_same]
      rfl
    · rename_i rest others
      obtain ⟨-, fits, rfl⟩ := Ledger.gives_saveGrant.mp (gives_ofLedger.mp h)
      rw [if_neg others]
      exact Contents.record?_put_encode Grant.lawful_codec fits
  · exact absurd h gives_fail
  · rename_i dead
    obtain ⟨live, fits, rfl⟩ := Ledger.gives_saveGrant.mp (gives_ofLedger.mp h)
    refine .inr ⟨by rw [dead]; rfl, dead, _, live, ?_⟩
    exact Contents.record?_put_encode Grant.lawful_codec fits

theorem accounted_of_approve {how : AllowanceChange} (h : (t.approve how c).Gives v done w)
    (own : owner = c.caller) (named : c.arguments[0]? = some (.address spender)) (denom : String) :
    v.Accounted c.time owner spender denom
      (if t.denom = denom then .change how (c.arguments.number 1) else .none) w := by
  subst own
  simp only [approve, gives_bind, gives_liftM, and_assoc, exists_and_left, exists_eq_left',
    Arguments.address_eq_ok, Arguments.amount_eq_ok] at h
  obtain ⟨_, -, other, called, amount, stated, h⟩ := h
  cases Option.some.inj (called.symm.trans named)
  split at h
  · simp at h
  · simp only [gives_bind, gives_liftM, and_assoc, exists_and_left, exists_eq_left', gives_ofLedger,
      Ledger.gives_grant?, gives_pure] at h
    obtain ⟨-, next, led, _, _, stored, -, rfl⟩ := h
    have leads := leads_of_next led
    rw [← Arguments.number_eq stated] at leads
    rcases relimited_or_begun_of_storeAllowance stored with ⟨limits, current, set⟩ | ⟨none, begun⟩
    · rw [current] at leads
      split
      · rename_i same
        subst same
        exact set.accounted_change leads
      · rename_i apart
        exact set.accounted_other apart
    · rw [none] at leads
      split
      · rename_i same
        subst same
        exact begun.accounted_change leads
      · rename_i apart
        exact begun.accounted_other apart

theorem accounted_of_transferFrom (h : (t.transferFrom c).Gives v done w) (caller : spender = c.caller)
    (named : c.arguments[0]? = some (.address owner)) (others : owner ≠ spender) (denom : String) :
    v.Accounted c.time owner spender denom
      (if t.denom = denom then .spend (c.arguments.number 2) else .none) w := by
  subst caller
  obtain ⟨sender, recipient, amount, called, stated, -, allowed, -⟩ := explains_transferFrom h
  cases Option.some.inj (called.symm.trans named)
  have drawn := allowed.resolve_left others
  rw [← Arguments.number_eq stated] at drawn
  split
  · rename_i same
    subst same
    exact drawn.accounted
  · rename_i apart
    obtain ⟨limits, next, -, set⟩ := drawn
    exact set.accounted_other apart

/-- An operation that succeeds changes the allowance between two accounts by what it means for it. -/
theorem accounted_of_operate {op : Operation} (h : (t.operate op c).Gives v done w)
    (others : owner ≠ spender) (denom : String) :
    v.Accounted c.time owner spender denom
      (if t.denom = denom then op.use c.caller c.arguments owner spender else .none) w := by
  by_cases concerned : op.concerns c.caller c.arguments owner spender = true
  · have run := (gives_operate.mp h).2
    simp only [Operation.use, if_pos concerned]
    cases op <;> simp only [enabledOperation] at run <;>
      simp only [Operation.concerns, decide_eq_true_eq, Bool.false_eq_true] at concerned
    case transferFrom => exact accounted_of_transferFrom run concerned.1 concerned.2 others denom
    case approve => exact accounted_of_approve run concerned.1 concerned.2 denom
    case increaseAllowance => exact accounted_of_approve run concerned.1 concerned.2 denom
    case decreaseAllowance => exact accounted_of_approve run concerned.1 concerned.2 denom
  · have same : w.grant? owner spender Message.sendType = v.grant? owner spender Message.sendType := by
      apply ((changesWithin_operate t op c).of_gives h).grant?_eq
      rintro granter grantee type ⟨-, about⟩ ⟨rfl, rfl, -⟩
      exact concerned about
    simp only [Operation.use, if_neg concerned, ite_self]
    exact Contents.accounted_of_grant?_eq same

/-- What an operation spends of an allowance is moved out of the owner's account. -/
theorem moved_of_use_eq_spend {op : Operation} (h : (t.operate op c).Gives v done w) {amount : Nat}
    (spends : op.use c.caller c.arguments owner spender = .spend amount) :
    ∃ recipient n, n.toNat = amount ∧
      v.Moved ⟨t.denom, n⟩ (some owner) (some recipient) w := by
  have run := (gives_operate.mp h).2
  by_cases concerned : op.concerns c.caller c.arguments owner spender = true
  · simp only [Operation.use, if_pos concerned] at spends
    cases op <;> simp only [AllowanceUse.spend.injEq, reduceCtorEq] at spends
    subst spends
    simp only [Operation.concerns, decide_eq_true_eq] at concerned
    obtain ⟨sender, recipient, n, called, stated, explains, -, -⟩ := explains_transferFrom run
    cases Option.some.inj (called.symm.trans concerned.2)
    exact ⟨recipient, n, (Arguments.number_eq stated).symm, explains.moved⟩
  · simp only [Operation.use, if_neg concerned, reduceCtorEq] at spends

end TokenContract

/-- A swap is no matter of allowances. -/
theorem Outpost.accounted_of_swap {o : Outpost} {c : Call} {v w : Contents} {done : Completed}
    (h : (o.swap c).Gives v done w) (owner spender : Address) (denom : String) :
    v.Accounted c.time owner spender denom .none w := by
  apply Contents.accounted_of_grant?_eq
  apply ((changesWithin_swap o c).of_gives h).grant?_eq
  rintro granter grantee type ⟨-, -, rfl⟩ ⟨-, -, same⟩
  exact absurd same (by decide)

end LedgerBridge
