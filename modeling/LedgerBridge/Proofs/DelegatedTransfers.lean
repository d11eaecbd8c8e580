import LedgerBridge.Proofs.BulkSends
import LedgerBridge.Proofs.Departures
import LedgerBridge.Proofs.PaidCalls
import LedgerBridge.Proofs.Scopes
import LedgerBridge.Proofs.StoredRecords

/-! Transfers of what is another's. A spender may move what a send grant in force lets it move and the
owner has. Such a call takes the amount from the owner and from the limit of its own token in the grant;
it tells of both, and whoever asks for the allowance then is told the same. -/
namespace LedgerBridge

theorem SendMessage.check_eq_ok {sender recipient : Address} {coin : Coin} :
    (SendMessage.mk sender recipient [coin]).check = .ok () ↔
      sender ≠ .zero ∧ recipient ≠ .zero ∧ Denom.check coin.denom = .ok () ∧
        0 < coin.amount.toNat := by
  simp only [SendMessage.check]
  rw [← Coin.checkPositive_eq_ok]
  by_cases fromZero : sender = .zero
  · simp [fromZero]
  · by_cases toZero : recipient = .zero
    · simp [fromZero, toZero]
    · simp [fromZero, toZero]

/-- A send grant lets a coin be moved that its limit covers. -/
theorem Authorization.accept_single_eq_ok {limits : Limits} {sender recipient : Address}
    {coin : Coin} {left : Option Authorization} :
    (Authorization.send limits).accept (.send ⟨sender, recipient, [coin]⟩) = .ok left ↔
      coin.amount ≤ limits.limit coin.denom ∧
        (if limits.set coin.denom ((limits.limit coin.denom).minus coin.amount) = [] then none
          else some (.send (limits.set coin.denom ((limits.limit coin.denom).minus coin.amount)))) =
            left := by
  simp only [accept_send_eq_ok, send.injEq, exists_and_left, exists_eq_left', Limits.spendAll,
    List.foldlM_cons, List.foldlM_nil, bind_pure, Limits.spend_eq_ok, and_assoc]

open Metered Contents

namespace Contents

/-- A send grant in force lets the spender move the amount. -/
def Allows (v : Contents) (time : UInt64) (owner spender : Address) (denom : String)
    (amount : Nat) : Prop :=
  ∃ limits expiration,
    v.liveGrant? time owner spender Message.sendType = some ⟨.send limits, expiration⟩ ∧
      amount ≤ (limits.limit denom).toNat

/-- The limit of a denomination was set in a send grant in force, which has its other limits and its
expiration as before. When no limit is left, the record of the grant is gone. -/
structure Amended (v : Contents) (time : UInt64) (owner spender : Address) (limits : Limits)
    (expiration : Option UInt64) (denom : String) (next : Amount) (w : Contents) : Prop where
  live : v.liveGrant? time owner spender Message.sendType = some ⟨.send limits, expiration⟩
  kept : limits.set denom next ≠ [] → w.grant? owner spender Message.sendType =
    some ⟨.send (limits.set denom next), expiration⟩
  removed : limits.set denom next = [] →
    w.get? (Key.grant owner spender Message.sendType).bytes = none
  last : limits.set denom next = [] ↔ next = 0 ∧ ∀ coin ∈ limits, coin.denom = denom
  limit : (limits.set denom next).limit denom = next
  others : ∀ other, denom ≠ other → (limits.set denom next).limit? other = limits.limit? other

variable {v w : Contents} {time : UInt64} {owner spender : Address} {limits : Limits}
  {expiration : Option UInt64} {denom : String} {next : Amount}

theorem amended_of_put
    (live : v.liveGrant? time owner spender Message.sendType = some ⟨.send limits, expiration⟩)
    (fits : limits.set denom next ≠ [] → (limits.set denom next).Fits)
    (record : w.get? (Key.grant owner spender Message.sendType).bytes =
      if limits.set denom next = [] then none
      else some (Grant.codec.encode ⟨.send (limits.set denom next), expiration⟩)) :
    v.Amended time owner spender limits expiration denom next w where
  live := live
  kept left := by
    rw [if_neg left] at record
    rw [grant?, record?, record]
    simp [Grant.lawful_codec.decodeAll_encode (a := ⟨.send (limits.set denom next), expiration⟩)
      (fits left)]
  removed empty := by rw [record, if_pos empty]
  last := Limits.set_eq_nil
  limit := Limits.limit_set_same limits denom next
  others _ apart := Limits.limit?_set_other limits apart next

theorem Amended.allowance (h : v.Amended time owner spender limits expiration denom next w) :
    w.allowance time owner spender denom = next := by
  have relimited : v.Relimited time owner spender limits denom next w := by
    refine ⟨expiration, h.live, ?_⟩
    split
    · rename_i empty
      rw [grant?, record?, h.removed empty]
      rfl
    · rename_i left
      exact h.kept left
  rw [Contents.allowance, (relimited.sendLimits UInt64.le_rfl).2, Limits.limit_set_same]

end Contents

namespace Ledger

variable {v : Contents} {time : UInt64} {caller owner recipient : Address} {coin : Coin}

/-- Who may move the coin is found to. -/
theorem exists_authorize (stored : v.WellStored) (another : caller ≠ owner)
    (allows : v.Allows time owner caller coin.denom coin.amount.toNat) (recipient : Address) :
    ∃ limits expiration left,
      v.liveGrant? time owner caller Message.sendType = some ⟨.send limits, expiration⟩ ∧
      (Authorization.send limits).accept (.send ⟨owner, recipient, [coin]⟩) = .ok left ∧
      (authorize time caller owner (.send ⟨owner, recipient, [coin]⟩)).Gives v
        (.delegated ⟨owner, caller, ⟨.send limits, expiration⟩, left⟩) v := by
  obtain ⟨limits, expiration, live, enough⟩ := allows
  have accepted : (Authorization.send limits).accept (.send ⟨owner, recipient, [coin]⟩) = .ok _ :=
    Authorization.accept_single_eq_ok.mpr ⟨BitVec.le_def.mpr enough, rfl⟩
  exact ⟨limits, expiration, _, live, accepted,
    gives_authorize (m := .send _) (stored.readable_grant _ _ _) another live accepted⟩

/-- A caller that is not the owner is turned away, if no grant lets it move the coin. -/
theorem evaluate_authorize_of_lacking (stored : v.WellStored) (another : caller ≠ owner)
    (lacking : ¬ v.Allows time owner caller coin.denom coin.amount.toNat) (recipient : Address) :
    ∃ e, (authorize time caller owner (.send ⟨owner, recipient, [coin]⟩)).evaluate v =
        (.error e, v) ∧ Refusal.ofTokenLedger e = .insufficientAllowance := by
  have looked : (grant? time owner caller Message.sendType).Gives v
      (v.liveGrant? time owner caller Message.sendType) v :=
    gives_grant?.mpr ⟨stored.readable_grant _ _ _, rfl, rfl⟩
  simp only [authorize, if_neg another, Message.type]
  rw [evaluate_bind_of_gives looked]
  cases live : v.liveGrant? time owner caller Message.sendType with
  | none => exact ⟨.noAuthorization, rfl, rfl⟩
  | some grant =>
    obtain ⟨limits, expiration, rfl⟩ := stored.exists_limits live
    have short : limits.limit coin.denom < coin.amount := by
      refine BitVec.not_le.mp fun enough => lacking ?_
      exact ⟨limits, expiration, live, BitVec.le_def.mp enough⟩
    have refused : (Authorization.send limits).accept (.send ⟨owner, recipient, [coin]⟩) =
        .error (.limitExceeded coin.amount (limits.limit coin.denom)) := by
      simp [Authorization.accept, Limits.spendAll, Limits.spend, short]
    refine ⟨.limitExceeded coin.amount (limits.limit coin.denom), ?_, rfl⟩
    simp only [refused]
    exact evaluate_bind_of_error (evaluate_liftM _ _) _

/-- A coin that the sender does not have is not sent. -/
theorem evaluate_send_of_short {sender : Address}
    (readable : v.Readable .amount (.balance sender coin.denom))
    (checked : Denom.check coin.denom = .ok ())
    (short : v.balance sender coin.denom < coin.amount) :
    (send sender recipient [coin]).evaluate v =
      (.error (.insufficientFunds (v.balance sender coin.denom) coin.amount coin.denom), v) := by
  have coins : checkCoins [coin] = .ok () :=
    checkCoins_eq_ok.mpr (List.forall_mem_singleton.mpr checked)
  rw [send, evaluate_bind_of_gives (gives_liftM.mpr ⟨coins, rfl⟩)]
  apply evaluate_bind_of_error
  rw [List.forM_eq_forM, List.forM_cons]
  apply evaluate_bind_of_error
  exact evaluate_bind_of_error (evaluate_funds readable short) _

end Ledger

namespace TokenContract

open LedgerBridge.Action

/-- Whoever asks the contract for the allowance with enough gas is told the amount. -/
def TellsAllowance (t : TokenContract) (time : UInt64) (s : Store) (owner spender : Address)
    (amount : Amount) : Prop :=
  ∀ asker origin, ∃ enough ≤ Meter.cap, ∀ gas, enough ≤ gas → ∃ out,
    ((Precompile.token t).run time s ⟨asker, Abi.encodeCall "allowance(address,address)"
      [.address owner, .address spender], gas⟩ origin false).result = .ok out ∧
    out.data = Abi.encode [.ofAmount amount]

theorem tellsAllowance {t : TokenContract} {s : Store} (enabled : t.pair.enabled = true)
    (stored : s.contents.WellStored) (time : UInt64) {owner spender : Address}
    (another : owner ≠ spender) :
    t.TellsAllowance time s owner spender (s.contents.allowance time owner spender t.denom) := by
  intro asker origin
  have conform : Abi.Conform [.address, .address] [.address owner, .address spender] := by
    simp [Abi.Kind.admits]
  obtain ⟨enough, capped, mirrors⟩ := Precompile.exists_enough_token
    (m := ⟨.allowance, "allowance(address,address)", [.address, .address], .query, 3246⟩) (by decide)
    conform (by simp [Abi.encode, Abi.tail, Abi.wordSize, UInt64.size]) t time s asker origin
  refine ⟨enough, capped, fun gas paid => ?_⟩
  have asked : (Ledger.allowance time owner spender t.denom).Gives s.contents
      (.limited (s.contents.allowance time owner spender t.denom)) s.contents :=
    Ledger.gives_allowance (stored.readable_grant _ _ _) another time t.denom
  have answered : (t.allowance ⟨asker, origin, t.pair.address, time,
      [.address owner, .address spender]⟩).Gives s.contents
      (.answer (.ofAmount (s.contents.allowance time owner spender t.denom))) s.contents := by
    simp only [allowance, gives_bind, gives_liftM, gives_ofLedger, gives_pure]
    exact ⟨_, _, ⟨rfl, rfl⟩, _, _, ⟨rfl, rfl⟩, _, _, ⟨rfl, rfl⟩, _, _, asked, rfl, rfl⟩
  have run := mirrors gas paid
  obtain ⟨out, succeeded⟩ := run.exists_ok (gives_operate.mpr ⟨enabled, answered⟩)
  have same := (run.gives succeeded).unique (gives_operate.mpr ⟨enabled, answered⟩)
  exact ⟨out, succeeded, by rw [same]; rfl⟩

/-- The accounts and the amount of a transfer are such that it could be made. -/
structure WellStated (owner recipient : Address) (amount : Nat) : Prop where
  positive : 0 < amount
  bounded : amount < 2 ^ 128
  owner : owner ≠ .zero
  recipient : recipient ≠ .zero

/-- The amount was moved from the owner to the recipient and drawn from what the spender may move. The
logs tell of both. -/
structure TransferredFrom (t : TokenContract) (v : Contents) (time : UInt64)
    (spender owner recipient : Address) (amount left : Amount) (logs : List Log) (w : Contents) :
    Prop where
  moved : v.Moved ⟨t.denom, amount⟩ (some owner) (some recipient) w
  supply : ∀ denom, w.supply denom = v.supply denom
  drawn : ∃ limits expiration, left.toNat + amount.toNat = (limits.limit t.denom).toNat ∧
    v.Amended time owner spender limits expiration t.denom left w
  logs : logs = [transferLog t.pair.address owner recipient amount,
    approvalLog t.pair.address owner spender (.ofAmount left)]
  /-- No other grant and no record of another kind is touched. -/
  others : v.UnchangedBut ⟨t.denom, fun granter grantee type => granter = owner ∧
    grantee = spender ∧ type = Message.sendType, fun _ _ => False⟩ w

variable {t : TokenContract} {c : Call} {v w : Contents} {done : Completed}
  {sender recipient owner : Address} {amount : Amount}

theorem parts_of_move {authority : Authority}
    (h : (t.move c sender recipient amount).Gives v authority w) :
    ∃ u, (SendMessage.mk sender recipient [⟨t.denom, amount⟩]).check = .ok () ∧
      (Ledger.authorize c.time c.caller sender
        (.send ⟨sender, recipient, [⟨t.denom, amount⟩]⟩)).Gives v authority v ∧
      (Ledger.send sender recipient [⟨t.denom, amount⟩]).Gives v () u ∧
      (Ledger.settle c.time authority).Gives u () w := by
  simp only [move, gives_bind, gives_liftM, and_assoc, exists_and_left, exists_eq_left',
    gives_ofTokenLedger, gives_ofLedger, gives_pure, mapError_eq_ok] at h
  obtain ⟨_, checked, authority, _, allowed, _, u, sent, _, _, settled, rfl, rfl⟩ := h
  obtain ⟨rfl, -⟩ := Ledger.authority_of_authorize allowed
  exact ⟨u, checked, allowed, sent, settled⟩

/-- What is left is what the contract tells next. -/
theorem TransferredFrom.tells {time : UInt64} {spender : Address} {left : Amount} {logs : List Log}
    {s : Store} (h : t.TransferredFrom v time spender owner recipient amount left logs s.contents)
    (enabled : t.pair.enabled = true) (stored : s.contents.WellStored) (another : owner ≠ spender) :
    t.TellsAllowance time s owner spender left := by
  obtain ⟨limits, expiration, -, amended⟩ := h.drawn
  rw [← amended.allowance]
  exact tellsAllowance enabled stored time another

/-- With arguments that are well-formed, the transfer is a move that is told of. -/
theorem transferFrom_eq
    (stated : c.arguments = [.address owner, .address recipient, .ofAmount amount]) :
    t.transferFrom c = (do
      let authority ← t.move c owner recipient amount
      return t.moved owner recipient amount [
        transferLog c.address owner recipient amount,
        approvalLog c.address owner c.caller (authority.allowance t.denom).word]) := by
  have third : c.arguments.amount 2 "amount" = .ok amount := by
    rw [stated]
    exact Arguments.amount_eq_ok.mpr rfl
  simp only [transferFrom, third]
  rw [stated]
  rfl

theorem operate_transferFrom (enabled : t.pair.enabled = true) :
    t.operate .transferFrom c = t.transferFrom c := by
  rw [operate, if_pos enabled]
  rfl

theorem wellStated_iff (valid : Denom.check t.denom = .ok ()) :
    (SendMessage.mk owner recipient [⟨t.denom, amount⟩]).check = .ok () ↔
      WellStated owner recipient amount.toNat := by
  rw [SendMessage.check_eq_ok]
  constructor
  · rintro ⟨fromOwner, toRecipient, -, positive⟩
    exact ⟨positive, amount.isLt, fromOwner, toRecipient⟩
  · rintro ⟨positive, -, fromOwner, toRecipient⟩
    exact ⟨fromOwner, toRecipient, valid, positive⟩

/-- A word that is well stated as an amount is one. -/
theorem WellStated.exists_amount {amount : Word} (well : WellStated owner recipient amount.toNat) :
    ∃ m : Amount, m.toNat = amount.toNat ∧ amount = .ofAmount m := by
  have same := BitVec.toNat_ofNatLT amount.toNat well.bounded
  exact ⟨.ofNatLT amount.toNat well.bounded, same, Word.toNat_eq_iff.mp same⟩

/-- What is well stated, allowed and held can be transferred. -/
theorem exists_transferFrom (conserved : v.Conserved) (stored : v.WellStored)
    (valid : Denom.check t.denom = .ok ()) (another : c.caller ≠ owner)
    (stated : c.arguments = [.address owner, .address recipient, .ofAmount amount])
    (well : WellStated owner recipient amount.toNat)
    (allows : v.Allows c.time owner c.caller t.denom amount.toNat)
    (held : amount.toNat ≤ (v.balance owner t.denom).toNat) :
    ∃ done w, (t.transferFrom c).Gives v done w := by
  obtain ⟨limits, expiration, left, live, accepted, allowed⟩ := Ledger.exists_authorize stored another
    (show v.Allows c.time owner c.caller (Coin.mk t.denom amount).denom amount.toNat from allows)
    recipient
  have coins : Ledger.checkCoins [⟨t.denom, amount⟩] = .ok () :=
    Ledger.checkCoins_eq_ok.mpr (List.forall_mem_singleton.mpr valid)
  obtain ⟨u, sent⟩ := Ledger.exists_send conserved coins (BitVec.le_def.mpr held) recipient
  have within : ChangesWithin (·.kind = .balance) (Ledger.send owner recipient [⟨t.denom, amount⟩]) :=
    Ledger.changesWithin_send fun _ _ => ⟨rfl, rfl⟩
  have kept : u.get? (Key.grant owner c.caller Message.sendType).bytes =
      v.get? (Key.grant owner c.caller Message.sendType).bytes :=
    (within.of_gives sent).get?_eq fun other inside => Key.bytes_ne_of_kind_ne (by simp [inside])
  have settled := Ledger.gives_settle (m := .send _) live accepted kept
  have moves : ∃ authority w, (t.move c owner recipient amount).Gives v authority w := by
    simp only [move, gives_bind, gives_liftM, gives_ofTokenLedger, gives_ofLedger, gives_pure,
      mapError_eq_ok]
    exact ⟨_, _, (), v, ⟨(wellStated_iff valid).mpr well, rfl⟩, _, v, allowed, (), u, sent, (), _,
      settled, rfl, rfl⟩
  obtain ⟨authority, w, moves⟩ := moves
  rw [transferFrom_eq stated]
  exact ⟨_, w, gives_bind.mpr ⟨authority, w, moves, gives_pure.mpr ⟨rfl, rfl⟩⟩⟩

/-- The grant that a transfer is made under lets less be spent afterwards, by what was moved. -/
theorem amended_of_settle {time : UInt64} {spender : Address} {u : Contents} {limits : Limits}
    {expiration : Option UInt64} {left : Option Authorization} {settled : Unit}
    (live : v.liveGrant? time owner spender Message.sendType = some ⟨.send limits, expiration⟩)
    (accepted : (Authorization.send limits).accept
      (.send ⟨owner, recipient, [⟨t.denom, amount⟩]⟩) = .ok left)
    (h : (Ledger.settle time (.delegated ⟨owner, spender, ⟨.send limits, expiration⟩, left⟩)).Gives
      u settled w) :
    v.Amended time owner spender limits expiration t.denom
      ((limits.limit t.denom).minus amount) w := by
  have fits := fits_of_record? Grant.lawful_codec (grant?_of_liveGrant? live).1
  have record := Ledger.get?_of_settle (m := .send _) accepted h
  obtain ⟨enough, rfl⟩ := Authorization.accept_single_eq_ok.mp accepted
  have spent : limits.spend ⟨t.denom, amount⟩ = .ok _ := Limits.spend_eq_ok.mpr ⟨enough, rfl⟩
  refine amended_of_put live (fun _ => Limits.fits_of_spend fits spent) (record.trans ?_)
  split <;> rfl

/-- What is left of the grant is what the contract tells of it. -/
theorem remainingLimit_of_accept {spender : Address} {limits : Limits} {expiration : Option UInt64}
    {left : Option Authorization}
    (accepted : (Authorization.send limits).accept
      (.send ⟨owner, recipient, [⟨t.denom, amount⟩]⟩) = .ok left) :
    Delegation.remainingLimit ⟨owner, spender, ⟨.send limits, expiration⟩, left⟩ t.denom =
      (limits.limit t.denom).minus amount := by
  obtain ⟨-, rfl⟩ := Authorization.accept_single_eq_ok.mp accepted
  split
  · rename_i empty
    exact (Limits.set_eq_nil.mp empty).1.symm
  · exact Limits.limit_set_same limits t.denom _

/-- The owner's send grant to the caller is all that a transfer may change of what is granted. -/
theorem scope_transferFrom
    (stated : c.arguments = [.address owner, .address recipient, .ofAmount amount]) :
    t.scope .transferFrom c.caller c.arguments = ⟨t.denom, fun granter grantee type =>
      granter = owner ∧ grantee = c.caller ∧ type = Message.sendType, fun _ _ => False⟩ := by
  simp only [scope, Operation.concerns, stated, Scope.mk.injEq, true_and, and_true,
    List.getElem?_cons_zero, Option.some.injEq, Abi.Value.address.injEq, decide_eq_true_eq]
  funext granter grantee type
  apply propext
  constructor
  · rintro ⟨sends, spends, owns⟩
    exact ⟨owns.symm, spends, sends⟩
  · rintro ⟨owns, spends, sends⟩
    exact ⟨sends, spends, owns.symm⟩

/-- A transfer that was made could be made, and has done what it is to do. -/
theorem transferredFrom_of_gives (before : v.Conserved) (stored : v.WellStored)
    (valid : Denom.check t.denom = .ok ()) (another : c.caller ≠ owner)
    (contract : c.address = t.pair.address)
    (stated : c.arguments = [.address owner, .address recipient, .ofAmount amount])
    (h : (t.operate .transferFrom c).Gives v done w) :
    WellStated owner recipient amount.toNat ∧
      v.Allows c.time owner c.caller t.denom amount.toNat ∧
      amount.toNat ≤ (v.balance owner t.denom).toNat ∧
      ∃ left, t.TransferredFrom v c.time c.caller owner recipient amount left done.logs w := by
  have after : w.Conserved := (Contents.kept_conserved.operate t c .transferFrom).of_gives h before
  have run : (t.transferFrom c).Gives v done w := (gives_operate.mp h).2
  rw [transferFrom_eq stated] at run
  obtain ⟨authority, _, moves, told⟩ := gives_bind.mp run
  obtain ⟨rfl, rfl⟩ := gives_pure.mp told
  obtain ⟨moved, -⟩ := moved_of_move moves
  obtain ⟨u, checked, allowed, sent, settled⟩ := parts_of_move moves
  obtain ⟨-, ⟨own, -⟩ | ⟨-, grant, left, live, accepted, rfl⟩⟩ := Ledger.authority_of_authorize allowed
  · exact absurd own another
  · obtain ⟨limits, expiration, rfl⟩ := stored.exists_limits live
    have amended := amended_of_settle live accepted settled
    obtain ⟨enough, remaining⟩ := Authorization.accept_single_eq_ok.mp accepted
    have covered : amount.toNat ≤ (limits.limit t.denom).toNat := BitVec.le_def.mp enough
    refine ⟨(wellStated_iff valid).mp checked, ⟨limits, expiration, live, covered⟩,
      moved.covered owner rfl, (limits.limit t.denom).minus amount, moved,
      fun _ => before.supply_eq_of_within after moved, ⟨limits, expiration, ?_, amended⟩, ?_, ?_⟩
    · rw [Amount.toNat_minus]
      omega
    · rw [← remainingLimit_of_accept accepted, ← contract]
      rfl
    · rw [← scope_transferFrom stated]
      exact unchangedBut_operate h

/-- Without a grant that covers it, a transfer is refused for that, whatever the owner has. -/
theorem evaluate_transferFrom_of_lacking (stored : v.WellStored)
    (valid : Denom.check t.denom = .ok ()) (another : c.caller ≠ owner)
    (stated : c.arguments = [.address owner, .address recipient, .ofAmount amount])
    (well : WellStated owner recipient amount.toNat)
    (lacking : ¬ v.Allows c.time owner c.caller t.denom amount.toNat) :
    (t.transferFrom c).evaluate v = (.error .insufficientAllowance, v) := by
  have checked := (wellStated_iff valid).mpr well
  obtain ⟨e, refused, reason⟩ := Ledger.evaluate_authorize_of_lacking stored another
    (show ¬ v.Allows c.time owner c.caller (Coin.mk t.denom amount).denom amount.toNat from lacking)
    recipient
  rw [transferFrom_eq stated]
  apply evaluate_bind_of_error
  rw [move, evaluate_bind_of_gives (gives_liftM.mpr ⟨mapError_eq_ok.mpr checked, rfl⟩)]
  apply evaluate_bind_of_error
  rw [ofTokenLedger, evaluate_mapError, refused]
  simp [reason]

/-- With such a grant it is refused if the owner does not have the amount. -/
theorem evaluate_transferFrom_of_short (conserved : v.Conserved) (stored : v.WellStored)
    (valid : Denom.check t.denom = .ok ()) (another : c.caller ≠ owner)
    (stated : c.arguments = [.address owner, .address recipient, .ofAmount amount])
    (well : WellStated owner recipient amount.toNat)
    (allows : v.Allows c.time owner c.caller t.denom amount.toNat)
    (short : (v.balance owner t.denom).toNat < amount.toNat) :
    (t.transferFrom c).evaluate v = (.error .insufficientBalance, v) := by
  have checked := (wellStated_iff valid).mpr well
  obtain ⟨_, _, _, -, -, allowed⟩ := Ledger.exists_authorize stored another
    (show v.Allows c.time owner c.caller (Coin.mk t.denom amount).denom amount.toNat from allows)
    recipient
  have refused : (Ledger.send owner recipient [⟨t.denom, amount⟩]).evaluate v = _ :=
    Ledger.evaluate_send_of_short (conserved.balance owner t.denom) valid (BitVec.lt_def.mpr short)
  rw [transferFrom_eq stated]
  apply evaluate_bind_of_error
  rw [move, evaluate_bind_of_gives (gives_liftM.mpr ⟨mapError_eq_ok.mpr checked, rfl⟩),
    evaluate_bind_of_gives (gives_ofTokenLedger.mpr allowed)]
  apply evaluate_bind_of_error
  rw [ofTokenLedger, evaluate_mapError, refused]
  rfl

/-- In every ledger that can be reached, a spender that is given enough gas succeeds in moving an amount of
the owner's if and only if the transfer is well stated, a send grant in force allows it and the owner has
the amount. Then the amount is moved and drawn from the limit, all else stays as it is, and the allowance
that was logged is what the contract tells whoever asks next. Else nothing is done; what the spender may
not move is refused for lack of allowance, whatever the owner has. -/
theorem transferFrom_exactly {s : Store} (reached : Reached s) {t : TokenContract}
    (valid : t.pair.check = .ok ()) (enabled : t.pair.enabled = true) (time : UInt64)
    {owner spender : Address} (another : owner ≠ spender) (recipient origin : Address)
    (amount : Word) :
    ∃ enough ≤ Meter.cap, ∀ gas, enough ≤ gas →
      let r := (Precompile.token t).run time s
        ⟨spender, Abi.encodeCall "transferFrom(address,address,uint256)"
          [.address owner, .address recipient, .uint amount], gas⟩ origin false
      ((∃ out, r.result = .ok out) ↔ WellStated owner recipient amount.toNat ∧
        s.contents.Allows time owner spender t.denom amount.toNat ∧
        amount.toNat ≤ (s.contents.balance owner t.denom).toNat) ∧
      (∀ out, r.result = .ok out → ∃ m left : Amount, amount = .ofAmount m ∧
        t.TransferredFrom s.contents time spender owner recipient m left out.logs r.store.contents ∧
        t.TellsAllowance time r.store owner spender left) ∧
      (∀ e, r.result = .error e → r.store.contents = s.contents) ∧
      (WellStated owner recipient amount.toNat →
        ¬ s.contents.Allows time owner spender t.denom amount.toNat →
        r.result = .error (.refused .insufficientAllowance)) ∧
      (WellStated owner recipient amount.toNat →
        s.contents.Allows time owner spender t.denom amount.toNat →
        (s.contents.balance owner t.denom).toNat < amount.toNat →
        r.result = .error (.refused .insufficientBalance)) := by
  have conserved := reached.conserved
  have stored := reached.wellStored
  have conform : Abi.Conform [.address, .address, .uint256]
      [.address owner, .address recipient, .uint amount] := by simp [Abi.Kind.admits]
  obtain ⟨enough, capped, mirrors⟩ := Precompile.exists_enough_token
    (m := ⟨.transferFrom, "transferFrom(address,address,uint256)", [.address, .address, .uint256],
      .transaction, 3000000⟩) (by decide) conform
    (by simp [Abi.encode, Abi.tail, Abi.wordSize, UInt64.size]) t time s spender origin
  refine ⟨enough, capped, fun gas paid => ?_⟩
  intro r
  have result : r = (Precompile.token t).run time s
    ⟨spender, Abi.encodeCall "transferFrom(address,address,uint256)"
      [.address owner, .address recipient, .uint amount], gas⟩ origin false := rfl
  let c (amount : Word) : Call :=
    ⟨spender, origin, t.pair.address, time, [.address owner, .address recipient, .uint amount]⟩
  have run : Precompile.Mirrors r (t.transferFrom (c amount)) s.contents := by
    rw [← operate_transferFrom enabled]
    exact mirrors gas paid
  -- From here on the result is one that mirrors the transfer; to look for it in the run is slow.
  clear_value r
  have after : Reached r.store := by
    rw [result]
    exact reached.call _ _ _ _ _
  have unchanged : ∀ e, r.result = .error e → r.store.contents = s.contents := by
    rw [result]
    exact fun _ failed => congrArg Store.contents (Precompile.store_of_run_error failed)
  have succeeds : ∀ out, r.result = .ok out → ∃ m : Amount, amount = .ofAmount m ∧
      WellStated owner recipient m.toNat ∧
      s.contents.Allows time owner spender t.denom m.toNat ∧
      m.toNat ≤ (s.contents.balance owner t.denom).toNat ∧
      ∃ left, t.TransferredFrom s.contents time spender owner recipient m left out.logs
        r.store.contents := by
    intro out succeeded
    have gives := run.gives succeeded
    obtain ⟨_, _, m, -, third, -⟩ := explains_transferFrom gives
    obtain rfl : amount = .ofAmount m := by simpa [c, Abi.Value.ofAmount] using third
    exact ⟨m, rfl, transferredFrom_of_gives (c := c (.ofAmount m)) conserved stored valid
      another.symm rfl rfl (gives_operate.mpr ⟨enabled, gives⟩)⟩
  refine ⟨⟨?_, ?_⟩, ?_, unchanged, ?_, ?_⟩
  · rintro ⟨out, succeeded⟩
    obtain ⟨m, rfl, well, allows, held, -⟩ := succeeds out succeeded
    rw [← Word.toNat_eq_iff.mpr rfl]
    exact ⟨well, allows, held⟩
  · rintro ⟨well, allows, held⟩
    obtain ⟨m, same, rfl⟩ := well.exists_amount
    rw [← same] at well allows held
    obtain ⟨_, _, gives⟩ := exists_transferFrom (c := c (.ofAmount m)) conserved stored valid
      another.symm rfl well allows held
    exact run.exists_ok gives
  · intro out succeeded
    obtain ⟨m, rfl, -, -, -, left, transferred⟩ := succeeds out succeeded
    exact ⟨m, left, rfl, transferred, transferred.tells enabled after.wellStored another⟩
  · intro well lacking
    obtain ⟨m, same, rfl⟩ := well.exists_amount
    rw [← same] at well lacking
    have failed := evaluate_transferFrom_of_lacking (c := c (.ofAmount m)) stored valid another.symm
      rfl well lacking
    exact run.refused (congrArg Prod.fst failed)
  · intro well allows short
    obtain ⟨m, same, rfl⟩ := well.exists_amount
    rw [← same] at well allows short
    have failed := evaluate_transferFrom_of_short (c := c (.ofAmount m)) conserved stored valid
      another.symm rfl well allows short
    exact run.refused (congrArg Prod.fst failed)

/-- The grantee, who may move a hundred, moves thirty and is told that seventy are left. -/
theorem transferFrom_exactly_of_grantee :
    ∃ s, Config.granting.initialStore = .ok s ∧ Config.granted.pair.check = .ok () ∧
      Config.granted.pair.enabled = true ∧ Config.granter ≠ Config.grantee ∧
      ∃ gas ≤ Meter.cap,
        let r := (Precompile.token Config.granted).run 1700000000 s
          ⟨Config.grantee, Abi.encodeCall "transferFrom(address,address,uint256)"
            [.address Config.granter, .address Config.grantee, .uint 30], gas⟩ Config.grantee false
        (∃ out, r.result = .ok out) ∧
          Config.granted.TellsAllowance 1700000000 r.store Config.granter Config.grantee 70 := by
  have valid : Config.granted.pair.check = .ok () := by decide +kernel
  have another : Config.granter ≠ Config.grantee := by decide
  obtain ⟨s, started, live, held⟩ := Config.exists_granting
  obtain ⟨enough, capped, exactly⟩ := transferFrom_exactly (.initialStore started) valid rfl
    1700000000 another Config.grantee Config.grantee 30
  obtain ⟨succeeds, transferred, -⟩ := exactly enough (Nat.le_refl _)
  have ends := succeeds.mpr ⟨⟨by decide, by decide, by decide, by decide⟩,
    ⟨_, _, live, by decide⟩, by rw [show Config.granted.denom = "ubridge" from rfl, held]; decide⟩
  refine ⟨s, started, valid, rfl, another, enough, capped, ends, ?_⟩
  obtain ⟨out, ended⟩ := ends
  obtain ⟨m, left, same, done, tells⟩ := transferred out ended
  obtain ⟨limits, expiration, remains, amended⟩ := done.drawn
  have thirty : m.toNat = 30 := Word.toNat_eq_iff.mpr same
  cases amended.live.symm.trans live
  have seventy : left = 70 := by
    apply BitVec.eq_of_toNat_eq
    have hundred : (Limits.limit [⟨"ubridge", 100⟩] Config.granted.denom).toNat = 100 := by decide
    rw [hundred, thirty] at remains
    have value : (70 : Amount).toNat = 70 := rfl
    omega
  rw [seventy] at tells
  exact tells

end TokenContract

end LedgerBridge
