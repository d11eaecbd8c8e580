import LedgerBridge.Proofs.Allowances
import LedgerBridge.Proofs.Genesis
import LedgerBridge.Proofs.PaidCalls
import LedgerBridge.Proofs.Settlement

/-! Allowances over whole histories. A call changes an allowance by what it means for it, and by nothing
if it fails; so as long as the owner does not change it, a spender moves no more than it was at first,
whatever else happens and however time goes by. -/
namespace LedgerBridge

namespace Contents

/-- Every send grant that is stored can be read. -/
def SendGrantsReadable (v : Contents) : Prop :=
  ∀ owner spender, v.Readable Grant.codec (.grant owner spender Message.sendType)

variable {v w : Contents}

theorem readable_grant_put {key : Key} {change : Option Bytes} (taken : key.Takes change)
    {owner spender : Address} {type : String}
    (readable : v.Readable Grant.codec (.grant owner spender type)) :
    Readable (Changes.put v key.bytes change) Grant.codec (.grant owner spender type) := by
  by_cases kind : key.kind = .grant
  · apply readable_put _ readable
    rintro bs rfl
    cases key with
    | grant granter grantee type =>
      obtain ⟨g, fits, -, rfl⟩ := taken
      exact ⟨g, Grant.lawful_codec.decodeAll_encode fits⟩
    | _ => simp at kind
  · exact readable_put_of_kind_ne kind readable

theorem ChangedWithin.sendGrantsReadable {area : Key → Prop} (h : v.ChangedWithin area w)
    (readable : v.SendGrantsReadable) : w.SendGrantsReadable :=
  h.keeps (fun _ _ _ _ taken before owner spender => readable_grant_put taken (before owner spender))
    readable

end Contents

/-- The allowance that is looked up is what the grant in force leaves. -/
theorem Ledger.gives_allowance {v : Contents} {owner spender : Address}
    (readable : v.Readable Grant.codec (.grant owner spender Message.sendType))
    (others : owner ≠ spender) (time : UInt64) (denom : String) :
    (allowance time owner spender denom).Gives v
      (.limited (v.allowance time owner spender denom)) v := by
  simp only [allowance, if_neg others, Metered.gives_bind, gives_grant?]
  refine ⟨_, _, ⟨readable, rfl, rfl⟩, ?_⟩
  rw [Contents.allowance, Contents.sendLimits]
  split
  · simp_all
  · simp_all [Limits.limit, Limits.limit?]

/-- The allowance that a ledger tells is the one that its map holds. -/
theorem Ledger.perform_allowance {s : Store} (readable : s.contents.SendGrantsReadable)
    {owner spender : Address} (others : owner ≠ spender) (time : UInt64) (denom : String) :
    ((allowance time owner spender denom).perform s).1 =
      .ok (.limited (s.contents.allowance time owner spender denom)) :=
  Metered.perform_of_gives (gives_allowance (readable owner spender) others time denom)

/-- The stores of a chain that goes on from its genesis, or from any ledger with send grants that can
be read. -/
inductive Running : Store → Prop
  | genesis {c : Config} {s : Store} (started : c.initialStore = .ok s) : Running s
  | ledger {s : Store} (readable : s.contents.SendGrantsReadable) : Running s
  | call {s : Store} (before : Running s) (q : Request) : Running (q.call s).store

theorem Running.sendGrantsReadable {s : Store} (h : Running s) : s.contents.SendGrantsReadable := by
  induction h with
  | genesis started =>
    exact (Config.changedWithin_of_initialStore started).sendGrantsReadable fun _ _ => nofun
  | ledger readable => exact readable
  | call before q ih => exact (q.precompile.changedWithin_run ..).sendGrantsReadable ih

namespace Request

/-- What a call would mean for an allowance if it succeeded. -/
def use (q : Request) (owner spender : Address) (denom : String) : AllowanceUse :=
  match q.precompile with
  | .token t =>
    if t.denom = denom then
      match Precompile.decode TokenContract.table q.frame q.readOnly with
      | .ok (m, args) => m.op.use q.frame.caller args owner spender
      | .error _ => .none
    else .none
  | .outpost _ => .none

/-- What a call that is made in a store means for an allowance. -/
def bearing (q : Request) (s : Store) (owner spender : Address) (denom : String) : AllowanceUse :=
  match (q.call s).result with
  | .ok _ => q.use owner spender denom
  | .error _ => .none

/-- What a spender moves of the owner's in calls that are made in turn. -/
def spentAll (owner spender : Address) (denom : String) : Store → List Request → Nat
  | _, [] => 0
  | s, q :: rest =>
    (q.bearing s owner spender denom).spent + spentAll owner spender denom (q.call s).store rest

variable {s : Store} {q : Request} {owner spender : Address} {denom : String}

theorem accounted_call (q : Request) (s : Store) (others : owner ≠ spender) (denom : String) :
    s.contents.Accounted q.time owner spender denom (q.bearing s owner spender denom)
      (q.call s).store.contents := by
  obtain ⟨p, time, f, origin, readOnly⟩ := q
  simp only [bearing, call]
  cases ended : (p.run time s f origin readOnly).result with
  | error e =>
    rw [Precompile.store_of_run_error ended]
    exact Contents.accounted_of_grant?_eq rfl
  | ok out =>
    obtain ⟨x, operation, gives⟩ := Precompile.gives_of_run ended
    cases p with
    | token t =>
      obtain ⟨⟨m, args⟩, read, rfl⟩ := map_eq_ok.mp operation
      simp only [use, read]
      exact TokenContract.accounted_of_operate gives others denom
    | outpost o =>
      obtain ⟨⟨⟨op, signature, inputs, kind, gas⟩, args⟩, -, rfl⟩ := map_eq_ok.mp operation
      cases op
      exact Outpost.accounted_of_swap gives owner spender denom

/-- What is spent is moved out of the owner's account. -/
theorem moved_of_spend {amount : Nat} (h : q.bearing s owner spender denom = .spend amount) :
    ∃ recipient coin, coin.denom = denom ∧ coin.amount.toNat = amount ∧
      s.contents.Moved coin (some owner) (some recipient) (q.call s).store.contents := by
  obtain ⟨p, time, f, origin, readOnly⟩ := q
  simp only [bearing, call] at h ⊢
  cases ended : (p.run time s f origin readOnly).result with
  | error e => simp [ended] at h
  | ok out =>
    rw [ended] at h
    obtain ⟨x, operation, gives⟩ := Precompile.gives_of_run ended
    cases p with
    | token t =>
      obtain ⟨⟨m, args⟩, read, rfl⟩ := map_eq_ok.mp operation
      simp only [use, read] at h
      split at h
      · rename_i same
        obtain ⟨recipient, n, stated, moved⟩ := TokenContract.moved_of_use_eq_spend gives h
        exact ⟨recipient, ⟨t.denom, n⟩, same, stated, moved⟩
      · cases h
    | outpost o => cases h

/-- As long as the owner leaves an allowance alone, what is spent of it is no more than it was. -/
theorem spentAll_le (requests : List Request) (others : owner ≠ spender) (time : UInt64)
    (later : ∀ q ∈ requests, time ≤ q.time)
    (unchanged : ∀ q ∈ requests, (q.use owner spender denom).isChange = false) :
    spentAll owner spender denom s requests ≤
      (s.contents.allowance time owner spender denom).toNat := by
  induction requests generalizing s with
  | nil => exact Nat.zero_le _
  | cons q rest ih =>
    obtain ⟨next, laters⟩ := List.forall_mem_cons.mp later
    obtain ⟨first, tail⟩ := List.forall_mem_cons.mp unchanged
    have left : (q.bearing s owner spender denom).isChange = false := by
      rw [bearing]
      split
      · exact first
      · rfl
    have now := (accounted_call q s others denom).covered time next left
    have remaining := ih (s := (q.call s).store) laters tail
    rw [spentAll]
    omega

end Request

/-- In a chain that goes on, each call leads from one value of an allowance to another just as it is
meant to, and what is spent in calls that do not change it is covered by its value at the start. -/
theorem Running.allowance_accounted {s : Store} (running : Running s) {owner spender : Address}
    (others : owner ≠ spender) (denom : String) :
    (∀ q : Request, ∃ before after,
      ((Ledger.allowance q.time owner spender denom).perform s).1 = .ok (.limited before) ∧
      ((Ledger.allowance q.time owner spender denom).perform (q.call s).store).1 =
        .ok (.limited after) ∧
      (q.bearing s owner spender denom).Leads before.toNat after.toNat ∧
      ∀ amount, q.bearing s owner spender denom = .spend amount →
        ∃ recipient coin, coin.denom = denom ∧ coin.amount.toNat = amount ∧
          s.contents.Moved coin (some owner) (some recipient) (q.call s).store.contents) ∧
    ∀ (time : UInt64) (requests : List Request), (∀ q ∈ requests, time ≤ q.time) →
      (∀ q ∈ requests, (q.use owner spender denom).isChange = false) →
      ∃ limit, ((Ledger.allowance time owner spender denom).perform s).1 = .ok (.limited limit) ∧
        Request.spentAll owner spender denom s requests ≤ limit.toNat := by
  refine ⟨fun q => ?_, fun time requests later unchanged => ?_⟩
  · have before := Ledger.perform_allowance running.sendGrantsReadable others q.time denom
    have after := Ledger.perform_allowance (running.call q).sendGrantsReadable others q.time denom
    exact ⟨_, _, before, after, (q.accounted_call s others denom).leads,
      fun amount spends => Request.moved_of_spend spends⟩
  · have start := Ledger.perform_allowance running.sendGrantsReadable others time denom
    exact ⟨_, start, Request.spentAll_le requests others time later unchanged⟩

namespace Config

/-- An account that lets another spend of what it has. -/
def granter : Address := ⟨List.replicate 20 1, rfl⟩

def grantee : Address := ⟨List.replicate 20 2, rfl⟩

/-- The granter has a thousand and lets the grantee spend a hundred. -/
def granting : Config :=
  { standard with
    pairs := [⟨"ubridge", "Bridge", "BRIDGE", 6, none, true⟩]
    genesis := { GenesisConfig.standard with
      balances := [⟨granter, "ubridge", 1000⟩]
      grants := [⟨.send, granter, grantee, "ubridge", 100, none⟩] } }

/-- The contract of the denomination that is granted. -/
def granted : TokenContract :=
  ⟨TokenPair.ofDenom "ubridge" none, ⟨"ubridge", "Bridge", "BRIDGE", 6⟩, "abridge", 0⟩

theorem exists_granting :
    ∃ s, granting.initialStore = .ok s ∧
      s.contents.liveGrant? 1700000000 granter grantee Message.sendType =
        some ⟨.send [⟨"ubridge", 100⟩], none⟩ ∧
      s.contents.balance granter "ubridge" = 1000 := by
  have known : (granting.initialStore.toOption.any fun s =>
      s.contents.liveGrant? 1700000000 granter grantee Message.sendType ==
          some ⟨.send [⟨"ubridge", 100⟩], none⟩ &&
        s.contents.balance granter "ubridge" == 1000) = true := by decide +kernel
  obtain ⟨s, started, holds⟩ := exists_of_any_toOption known
  simp only [Bool.and_eq_true, beq_iff_eq] at holds
  exact ⟨s, started, holds⟩

end Config

namespace Request

/-- The grantee takes thirty. -/
def ofGrantee : Request where
  precompile := .token ⟨TokenPair.ofDenom "ubridge" none, ⟨"ubridge", "Bridge", "BRIDGE", 6⟩,
    "abridge", 0⟩
  time := 1700000000
  frame := ⟨Config.grantee, [0x23, 0xB8, 0x72, 0xDD] ++ Abi.addressTopic Config.granter ++
    Abi.addressTopic Config.grantee ++ List.replicate 31 0 ++ [30], 3000000⟩
  origin := Config.grantee
  readOnly := false

/-- What the grantee calls. -/
theorem decode_ofGrantee :
    Precompile.decode TokenContract.table ofGrantee.frame false =
      .ok (⟨.transferFrom, "transferFrom(address,address,uint256)", [.address, .address, .uint256],
        .transaction, 3000000⟩, [.address Config.granter, .address Config.grantee, .uint 30]) := by
  have called : ofGrantee.frame.input = TokenContract.Operation.selector .transferFrom ++
      (Abi.addressTopic Config.granter ++ (Abi.addressTopic Config.grantee ++
        (List.replicate 31 0 ++ [30]))) := by
    simp only [ofGrantee, TokenContract.Operation.selector, List.append_assoc]
  refine Precompile.decode_eq_ok.mpr ⟨?_, by simp, Nat.le_refl _, by decide +kernel⟩
  rw [called]
  exact TokenContract.find?_selector_append (m := ⟨.transferFrom, _, _, _, _⟩) (by decide) _

theorem call_ofGrantee (s : Store) : ofGrantee.call s = Precompile.execute
    (Config.granted.operate .transferFrom ⟨Config.grantee, Config.grantee, .ofToken "ubridge",
      1700000000, [.address Config.granter, .address Config.grantee, .uint 30]⟩) s ofGrantee.frame :=
  Precompile.run_token decode_ofGrantee ofGrantee.time s ofGrantee.origin

end Request

/-- Three times the grantee is given thirty, and then there is not enough left. -/
theorem Running.allowance_accounted_of_grantee :
    ∃ s, Config.granting.initialStore = .ok s ∧ Config.granter ≠ Config.grantee ∧
      Request.ofGrantee.bearing s Config.granter Config.grantee "ubridge" = .spend 30 ∧
      (∃ before after : Amount,
        ((Ledger.allowance 1700000000 Config.granter Config.grantee "ubridge").perform s).1 =
          .ok (.limited before) ∧
        ((Ledger.allowance 1700000000 Config.granter Config.grantee "ubridge").perform
          (Request.ofGrantee.call s).store).1 = .ok (.limited after) ∧
        after.toNat + 30 = before.toNat) ∧
      Request.spentAll Config.granter Config.grantee "ubridge" s
        (List.replicate 4 Request.ofGrantee) = 90 ∧
      ∃ limit : Amount,
        ((Ledger.allowance 1700000000 Config.granter Config.grantee "ubridge").perform s).1 =
          .ok (.limited limit) ∧ 90 ≤ limit.toNat := by
  have others : Config.granter ≠ Config.grantee := by decide
  have known : (Config.granting.initialStore.toOption.any fun s =>
        Request.ofGrantee.bearing s Config.granter Config.grantee "ubridge" == .spend 30 &&
          !(Request.ofGrantee.use Config.granter Config.grantee "ubridge").isChange &&
          Request.spentAll Config.granter Config.grantee "ubridge" s
            (List.replicate 4 Request.ofGrantee) == 90) = true := by decide +kernel
  obtain ⟨s, started, known⟩ := exists_of_any_toOption known
  simp only [Bool.and_eq_true, beq_iff_eq, Bool.not_eq_true'] at known
  obtain ⟨⟨spends, unchanged⟩, total⟩ := known
  obtain ⟨each, whole⟩ := allowance_accounted (.genesis started) others "ubridge"
  have once := each Request.ofGrantee
  rw [spends] at once
  obtain ⟨before, after, start, ends, leads, -⟩ := once
  obtain ⟨limit, covers, enough⟩ := whole 1700000000 (List.replicate 4 Request.ofGrantee)
    (fun q member => by rw [List.eq_of_mem_replicate member]; exact UInt64.le_rfl)
    (fun q member => by rw [List.eq_of_mem_replicate member]; exact unchanged)
  rw [total] at enough
  exact ⟨s, started, others, spends, ⟨before, after, start, ends, leads⟩, total, limit, covers, enough⟩

end LedgerBridge
