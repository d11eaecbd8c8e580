import LedgerBridge.Proofs.DelegatedTransfers

/-! Setting, raising and lowering an allowance. The owner has a limit changed in the send grant in force,
or a grant made for this one limit if none is. Which changes can be made depends on whether the grant
covers the token at all: a limit of zero is not the same as none. -/
namespace LedgerBridge

namespace TokenContract

open Metered Contents LedgerBridge.Action

theorem toNat_later (time lifetime : UInt64) :
    (later time lifetime).toNat = min (time.toNat + lifetime.toNat) (2 ^ 64 - 1) := by
  have small : min (time.toNat + lifetime.toNat) (UInt64.size - 1) < 2 ^ 64 := by
    simp only [UInt64.size]
    omega
  rw [later, UInt64.toNat_ofNat', Nat.mod_eq_of_lt small]
  rfl

/-- From what is granted a change by the amount leads somewhere. Only what is granted can be lowered, and
what is not granted is not set to nothing. -/
def AllowanceChange.Admits : AllowanceChange → (current : Option Amount) → (amount : Nat) → Prop
  | .set, some _, _ => True
  | .set, none, amount | .increase, none, amount => amount ≠ 0
  | .increase, some current, amount => current.toNat + amount < 2 ^ 128
  | .decrease, some current, amount => amount ≤ current.toNat
  | .decrease, none, _ => False

theorem AllowanceChange.exists_next {how : AllowanceChange} {denom : String}
    {current : Option Amount} {amount : Amount} :
    (∃ next, how.next denom current amount = .ok next) ↔ how.Admits current amount.toNat := by
  have first : (∃ next, (if amount = 0 then .error (noAllowance denom) else .ok amount) =
      (.ok next : Except Refusal Amount)) ↔ amount.toNat ≠ 0 := by
    have isZero : amount = 0 ↔ amount.toNat = 0 := BitVec.toNat_inj.symm
    rw [Ne, ← isZero]
    split
    · rename_i zero
      refine iff_of_false ?_ (not_not_intro zero)
      rintro ⟨_, ⟨⟩⟩
    · rename_i positive
      exact iff_of_true ⟨amount, rfl⟩ positive
  cases current with
  | none =>
    cases how with
    | set | increase => exact first
    | decrease => simp [next, Admits]
  | some current =>
    cases how with
    | set => simp [next, Admits]
    | increase =>
      have sum : (∃ total, current.plus? amount = some total) ↔
          current.toNat + amount.toNat < 2 ^ 128 := by
        simp only [Amount.plus?, Amount.ofNat?_eq_some_iff]
        refine ⟨?_, fun small => ⟨.ofNatLT _ small, BitVec.toNat_ofNatLT _ _⟩⟩
        rintro ⟨total, exactly⟩
        exact exactly ▸ total.isLt
      rw [Admits, ← sum, next]
      cases current.plus? amount <;> simp
    | decrease =>
      simp only [next, Admits, Amount.minus?, ← BitVec.le_def]
      by_cases enough : amount ≤ current <;> simp [enough]

/-- The method that makes the change. -/
def AllowanceChange.method : AllowanceChange → Method Operation
  | .set => ⟨.approve, "approve(address,uint256)", [.address, .uint256], .transaction, 30956⟩
  | .increase => ⟨.increaseAllowance, "increaseAllowance(address,uint256)", [.address, .uint256],
      .transaction, 34605⟩
  | .decrease => ⟨.decreaseAllowance, "decreaseAllowance(address,uint256)", [.address, .uint256],
      .transaction, 34519⟩

variable {t : TokenContract} {how : AllowanceChange} {v w : Contents} {time : UInt64}
  {owner spender : Address} {limits : Limits} {expiration : Option UInt64} {amount next : Amount}

/-- What is granted of the token in the send grant in force, if that covers it. -/
def granted? (t : TokenContract) (v : Contents) (time : UInt64) (owner spender : Address) :
    Option Amount :=
  t.grantedLimit? (v.liveGrant? time owner spender Message.sendType)

/-- The change of an allowance can be made. -/
structure CanChange (t : TokenContract) (how : AllowanceChange) (v : Contents) (time : UInt64)
    (owner spender : Address) (amount : Amount) : Prop where
  another : spender ≠ owner
  admitted : how.Admits (t.granted? v time owner spender) amount.toNat
  /-- Where no grant is in force, a new one would be. -/
  begins : v.liveGrant? time owner spender Message.sendType = none →
    time.toNat < min (time.toNat + t.approvalLifetime.toNat) (2 ^ 64 - 1)
  /-- A list is stored with its length in four bytes, so it has fewer than `2 ^ 32` entries. A grant that
  does not cover the token has to have room for one more limit. -/
  room : ∀ limits expiration,
    v.liveGrant? time owner spender Message.sendType = some ⟨.send limits, expiration⟩ →
      t.granted? v time owner spender = none → limits.length + 1 < 2 ^ 32

/-- The allowance was changed: in the grant in force, or by a new one where none was. -/
structure Changed (t : TokenContract) (how : AllowanceChange) (v : Contents) (time : UInt64)
    (owner spender : Address) (amount next : Amount) (done : Completed) (w : Contents) : Prop where
  leads : (AllowanceUse.change how amount.toNat).Leads
    ((t.granted? v time owner spender).getD 0).toNat next.toNat
  allowance : w.allowance time owner spender t.denom = next
  amended : ∀ limits expiration,
    v.liveGrant? time owner spender Message.sendType = some ⟨.send limits, expiration⟩ →
      v.Amended time owner spender limits expiration t.denom next w
  begun : v.liveGrant? time owner spender Message.sendType = none → ∃ last : UInt64,
    last.toNat = min (time.toNat + t.approvalLifetime.toNat) (2 ^ 64 - 1) ∧
      w.grant? owner spender Message.sendType = some ⟨.send [⟨t.denom, next⟩], some last⟩
  /-- Nothing else in the ledger is touched: no balance, no supply and no other grant. -/
  others : ∀ bytes, bytes ≠ (Key.grant owner spender Message.sendType).bytes →
    w.get? bytes = v.get? bytes
  reported : done =
    ⟨Completed.success, [approvalLog t.pair.address owner spender (.ofAmount next)], []⟩

theorem gives_storeAllowance_of_live (named : Text.Fits t.denom)
    (live : v.liveGrant? time owner spender Message.sendType = some ⟨.send limits, expiration⟩) :
    (t.storeAllowance time owner spender (some ⟨.send limits, expiration⟩) next).Gives v () w ↔
      (next ≠ 0 → limits.limit? t.denom = none → limits.length + 1 < Bytes.capacity 4) ∧
        Changes.put v (Key.grant owner spender Message.sendType).bytes
          (if limits.set t.denom next = [] then none
            else some (Grant.codec.encode ⟨.send (limits.set t.denom next), expiration⟩)) = w := by
  obtain ⟨stored, inForce⟩ := grant?_of_liveGrant? live
  have fits := fits_of_record? Grant.lawful_codec stored
  rw [← Limits.fits_set fits fun _ => named]
  simp only [storeAllowance]
  split
  · rename_i last
    obtain ⟨bs, there, -⟩ := Option.bind_eq_some_iff.mp stored
    have present : v.contains (Key.grant owner spender Message.sendType).bytes := by
      rw [ByteMap.contains, there]
      rfl
    rw [gives_ofLedger, Ledger.gives_removeGrant, last, if_pos rfl]
    exact and_congr_left fun _ => iff_of_true present ⟨Nat.zero_lt_succ _, List.forall_mem_nil _⟩
  · rename_i others
    rw [gives_ofLedger, Ledger.gives_saveGrant, if_neg others]
    exact and_iff_right inForce

theorem fits_single (named : Text.Fits t.denom) :
    (Authorization.send [⟨t.denom, next⟩]).Fits :=
  ⟨(by decide : 1 < Bytes.capacity 4), List.forall_mem_singleton.mpr named⟩

/-- A new approval is in force if its lifetime takes it past the time. -/
theorem isExpired_later {authorization : Authorization} {lifetime : UInt64} :
    Grant.isExpired ⟨authorization, some (later time lifetime)⟩ time = false ↔
      time.toNat < min (time.toNat + lifetime.toNat) (2 ^ 64 - 1) := by
  rw [← toNat_later, ← UInt64.lt_iff_toNat_lt, ← UInt64.not_le]
  simp [Grant.isExpired]

theorem gives_storeAllowance_of_none (named : Text.Fits t.denom) :
    (t.storeAllowance time owner spender none next).Gives v () w ↔
      time.toNat < min (time.toNat + t.approvalLifetime.toNat) (2 ^ 64 - 1) ∧
        Changes.put v (Key.grant owner spender Message.sendType).bytes (some (Grant.codec.encode
          ⟨.send [⟨t.denom, next⟩], some (later time t.approvalLifetime)⟩)) = w := by
  rw [storeAllowance, gives_ofLedger, Ledger.gives_saveGrant, isExpired_later]
  exact and_congr_right fun _ => and_iff_right (fits_single named)

variable {c : Call} {done : Completed}

/-- With arguments that are well-formed, it is looked up what is granted and the change is stored. -/
theorem approve_eq (stated : c.arguments = [.address spender, .ofAmount amount]) :
    t.approve how c = if spender = c.caller then
        .fail (.invalid s!"spender cannot be the owner: {spender.text}")
      else (do
        let existing ← .ofLedger (Ledger.grant? c.time c.caller spender Message.sendType)
        let next ← how.next t.denom (t.grantedLimit? existing) amount
        t.storeAllowance c.time c.caller spender existing next
        return ⟨Completed.success, [approvalLog c.address c.caller spender (.ofAmount next)], []⟩) := by
  have second : c.arguments.amount 1 "amount" = .ok amount := by
    rw [stated]
    exact Arguments.amount_eq_ok.mpr rfl
  simp only [approve, second]
  rw [stated]
  change (if spender = c.caller then _ else _) = _
  split <;> rfl

theorem gives_approve (stored : v.WellStored)
    (stated : c.arguments = [.address spender, .ofAmount amount]) :
    (t.approve how c).Gives v done w ↔ spender ≠ c.caller ∧ ∃ next,
      how.next t.denom (t.granted? v c.time c.caller spender) amount = .ok next ∧
      (t.storeAllowance c.time c.caller spender
        (v.liveGrant? c.time c.caller spender Message.sendType) next).Gives v () w ∧
      done = ⟨Completed.success, [approvalLog c.address c.caller spender (.ofAmount next)], []⟩ := by
  have readable := stored.readable_grant c.caller spender Message.sendType
  rw [approve_eq stated]
  split
  · rename_i own
    exact iff_of_false gives_fail fun h => h.1 own
  · rename_i another
    simp only [gives_bind, gives_liftM, gives_ofLedger, Ledger.gives_grant?, gives_pure, and_assoc,
      exists_and_left, exists_eq_left', ne_eq, another, not_false_eq_true, true_and, readable]
    constructor
    · rintro ⟨next, led, _, _, saved, rfl, rfl⟩
      exact ⟨next, led, saved, rfl⟩
    · rintro ⟨next, led, saved, rfl⟩
      exact ⟨next, led, (), w, saved, rfl, rfl⟩

/-- What is not granted cannot be lowered, or set to nothing. -/
theorem AllowanceChange.next_ne_zero {denom : String} (h : how.next denom none amount = .ok next) :
    next ≠ 0 := by
  cases how with
  | set | increase =>
    simp only [AllowanceChange.next] at h
    split at h
    · cases h
    · rename_i positive
      cases h
      exact positive
  | decrease => cases h

/-- A change that can be made is made. -/
theorem exists_approve (stored : v.WellStored) (named : Text.Fits t.denom)
    (stated : c.arguments = [.address spender, .ofAmount amount])
    (can : t.CanChange how v c.time c.caller spender amount) :
    ∃ done w, (t.approve how c).Gives v done w := by
  obtain ⟨next, led⟩ : ∃ next, how.next t.denom (t.granted? v c.time c.caller spender) amount =
    .ok next := AllowanceChange.exists_next.mpr can.admitted
  have saves : ∃ w, (t.storeAllowance c.time c.caller spender
      (v.liveGrant? c.time c.caller spender Message.sendType) next).Gives v () w := by
    cases live : v.liveGrant? c.time c.caller spender Message.sendType with
    | none => exact ⟨_, (gives_storeAllowance_of_none named).mpr ⟨can.begins live, rfl⟩⟩
    | some grant =>
      obtain ⟨limits, expiration, rfl⟩ := stored.exists_limits live
      refine ⟨_, (gives_storeAllowance_of_live named live).mpr ⟨fun _ absent => ?_, rfl⟩⟩
      exact can.room limits expiration live (by rw [granted?, live]; exact absent)
  obtain ⟨w, saved⟩ := saves
  exact ⟨_, w, (gives_approve stored stated).mpr ⟨can.another, next, led, saved, rfl⟩⟩

/-- A change that was made could be made, and has done what it is to do. -/
theorem changed_of_gives (stored : v.WellStored) (named : Text.Fits t.denom)
    (contract : c.address = t.pair.address)
    (stated : c.arguments = [.address spender, .ofAmount amount])
    (h : (t.approve how c).Gives v done w) :
    t.CanChange how v c.time c.caller spender amount ∧
      ∃ next, t.Changed how v c.time c.caller spender amount next done w := by
  obtain ⟨another, next, led, saved, rfl⟩ := (gives_approve stored stated).mp h
  have admitted := AllowanceChange.exists_next.mp ⟨next, led⟩
  have leads := leads_of_next led
  rw [contract]
  cases live : v.liveGrant? c.time c.caller spender Message.sendType with
  | none =>
    rw [live] at saved
    obtain ⟨begins, written⟩ := (gives_storeAllowance_of_none named).mp saved
    have noGrant (g : Grant) : v.liveGrant? c.time c.caller spender Message.sendType ≠ some g := by
      simp [live]
    have made : w.grant? c.caller spender Message.sendType =
        some ⟨.send [⟨t.denom, next⟩], some (later c.time t.approvalLifetime)⟩ := by
      rw [← written]
      exact record?_put_encode Grant.lawful_codec (fits_single named)
    have begun : v.Begun c.time c.caller spender t.denom next w :=
      ⟨live, _, isExpired_later.mpr begins, made⟩
    refine ⟨⟨another, admitted, fun _ => begins, fun _ _ found => (noGrant _ found).elim⟩, next,
      ⟨leads, ?_, fun _ _ found => (noGrant _ found).elim, fun _ => ⟨_, toNat_later _ _, made⟩,
        fun _ apart => ?_, rfl⟩⟩
    · rw [Contents.allowance, begun.sendLimits.2 _ UInt64.le_rfl]
      simp [Limits.limit, Limits.limit?]
    · rw [← written, Changes.get?_put, if_neg apart.symm]
  | some grant =>
    obtain ⟨limits, expiration, rfl⟩ := stored.exists_limits live
    rw [live] at saved
    obtain ⟨room, written⟩ := (gives_storeAllowance_of_live named live).mp saved
    have fits := fits_of_record? Grant.lawful_codec (grant?_of_liveGrant? live).1
    have inForce : v.liveGrant? c.time c.caller spender Message.sendType ≠ none := by simp [live]
    have amended : v.Amended c.time c.caller spender limits expiration t.denom next w :=
      amended_of_put live (fun _ => (Limits.fits_set fits fun _ => named).mpr room)
        (by rw [← written, Changes.get?_put, if_pos rfl])
    refine ⟨⟨another, admitted, fun dead => absurd dead inForce, ?_⟩, next,
      ⟨leads, amended.allowance, ?_, fun dead => absurd dead inForce, fun _ apart => ?_, rfl⟩⟩
    · intro limits' expiration' found absent
      cases live.symm.trans found
      rw [absent] at led
      rw [granted?, live] at absent
      exact room (AllowanceChange.next_ne_zero led) absent
    · intro limits' expiration' found
      cases live.symm.trans found
      exact amended
    · rw [← written, Changes.get?_put, if_neg apart.symm]

/-- A change that leads nowhere is refused for the reason why. -/
theorem evaluate_approve_of_error (stored : v.WellStored)
    (stated : c.arguments = [.address spender, .ofAmount amount]) (another : spender ≠ c.caller)
    {why : Refusal}
    (refused : how.next t.denom (t.granted? v c.time c.caller spender) amount = .error why) :
    (t.approve how c).evaluate v = (.error why, v) := by
  have looked : (Ledger.grant? c.time c.caller spender Message.sendType).Gives v
      (v.liveGrant? c.time c.caller spender Message.sendType) v :=
    Ledger.gives_grant?.mpr ⟨stored.readable_grant _ _ _, rfl, rfl⟩
  rw [approve_eq stated, if_neg another, evaluate_bind_of_gives (gives_ofLedger.mpr looked)]
  apply evaluate_bind_of_error
  rw [evaluate_liftM, ← refused]
  rfl

theorem operate_method (enabled : t.pair.enabled = true) :
    t.operate how.method.op c = t.approve how c := by
  rw [operate, if_pos enabled]
  cases how <;> rfl

/-- In every ledger that can be reached, an owner that gives enough gas succeeds in changing what another
may spend of a token if and only if the change leads somewhere from what is granted and can be stored.
Then the limit of the token is what the change leads to, in the grant in force, of which all else stays
as it is, or in a new grant for just that. This is logged, and it is what the contract tells whoever asks
next. Else nothing is done; and if the change leads nowhere it is refused for that. -/
theorem approve_exactly {s : Store} (reached : Reached s) {t : TokenContract}
    (valid : t.pair.check = .ok ()) (enabled : t.pair.enabled = true) (time : UInt64)
    (owner spender origin : Address) (how : AllowanceChange) (amount : Amount) :
    ∃ enough ≤ Meter.cap, ∀ gas, enough ≤ gas →
      let r := (Precompile.token t).run time s
        ⟨owner, Abi.encodeCall how.method.signature [.address spender, .ofAmount amount], gas⟩
        origin false
      ((∃ out, r.result = .ok out) ↔ t.CanChange how s.contents time owner spender amount) ∧
      (∀ out, r.result = .ok out → ∃ next,
        t.Changed how s.contents time owner spender amount next out.toCompleted r.store.contents ∧
        t.TellsAllowance time r.store owner spender next) ∧
      (∀ e, r.result = .error e → r.store.contents = s.contents) ∧
      (spender ≠ owner → ∀ why,
        how.next t.denom (t.granted? s.contents time owner spender) amount = .error why →
        r.result = .error (.refused why)) := by
  have stored := reached.wellStored
  have named : Text.Fits t.denom := Denom.fits_of_check valid
  have listed : how.method ∈ methods := by cases how <;> decide
  have conform : Abi.Conform how.method.inputs [.address spender, .ofAmount amount] := by
    cases how <;> simp [AllowanceChange.method, Abi.Kind.admits, Abi.Value.ofAmount]
  obtain ⟨enough, capped, mirrors⟩ := Precompile.exists_enough_token listed conform
    (by simp [Abi.encode, Abi.tail, Abi.wordSize, UInt64.size, Abi.Value.ofAmount]) t time s owner
    origin
  refine ⟨enough, capped, fun gas paid => ?_⟩
  intro r
  let c : Call := ⟨owner, origin, t.pair.address, time, [.address spender, .ofAmount amount]⟩
  have run : Precompile.Mirrors r (t.approve how c) s.contents := by
    rw [← operate_method enabled]
    exact mirrors gas paid
  have done : ∀ out, r.result = .ok out → t.CanChange how s.contents time owner spender amount ∧
      ∃ next, t.Changed how s.contents time owner spender amount next out.toCompleted
        r.store.contents :=
    fun out succeeded => changed_of_gives stored named rfl rfl (run.gives succeeded)
  refine ⟨⟨?_, fun can => ?_⟩, fun out succeeded => ?_,
    fun _ failed => congrArg Store.contents (Precompile.store_of_run_error failed),
    fun another why refused => ?_⟩
  · rintro ⟨out, succeeded⟩
    exact (done out succeeded).1
  · obtain ⟨_, _, gives⟩ := exists_approve (c := c) stored named rfl can
    exact run.exists_ok gives
  · obtain ⟨can, next, changed⟩ := done out succeeded
    refine ⟨next, changed, ?_⟩
    rw [← changed.allowance]
    exact tellsAllowance enabled (reached.call _ _ _ _ _).wellStored time can.another.symm
  · have failed := evaluate_approve_of_error (c := c) stored rfl another refused
    exact run.refused (congrArg Prod.fst failed)

/-- The granter, who lets the grantee move a hundred, adds thirty. A hundred and thirty are told then. -/
theorem approve_exactly_of_granter :
    ∃ s, Config.granting.initialStore = .ok s ∧ Config.granted.pair.check = .ok () ∧
      Config.granted.pair.enabled = true ∧ ∃ gas ≤ Meter.cap,
        let r := (Precompile.token Config.granted).run 1700000000 s
          ⟨Config.granter, Abi.encodeCall "increaseAllowance(address,uint256)"
            [.address Config.grantee, .ofAmount 30], gas⟩ Config.granter false
        (∃ out, r.result = .ok out) ∧
          Config.granted.TellsAllowance 1700000000 r.store Config.granter Config.grantee 130 := by
  have valid : Config.granted.pair.check = .ok () := by decide +kernel
  obtain ⟨s, started, live, -⟩ := Config.exists_granting
  have hundred : Config.granted.granted? s.contents 1700000000 Config.granter Config.grantee =
      some 100 := by
    rw [granted?, live]
    decide
  obtain ⟨enough, capped, exactly⟩ := approve_exactly (.initialStore started) valid rfl 1700000000
    Config.granter Config.grantee Config.granter .increase 30
  obtain ⟨succeeds, changes, -⟩ := exactly enough (Nat.le_refl _)
  have can : Config.granted.CanChange .increase s.contents 1700000000 Config.granter Config.grantee
      30 := by
    have small : (100 : Amount).toNat + (30 : Amount).toNat < 2 ^ 128 := by decide
    refine ⟨by decide, by rw [hundred]; exact small, fun dead => ?_, fun _ _ _ absent => ?_⟩
    · cases live.symm.trans dead
    · cases hundred.symm.trans absent
  have ends := succeeds.mpr can
  refine ⟨s, started, valid, rfl, enough, capped, ends, ?_⟩
  obtain ⟨out, ended⟩ := ends
  obtain ⟨next, changed, tells⟩ := changes out ended
  have leads := changed.leads
  rw [hundred] at leads
  have sum : next = 130 := BitVec.eq_of_toNat_eq leads
  rw [sum] at tells
  exact tells

end TokenContract

end LedgerBridge
