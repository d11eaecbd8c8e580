import LedgerBridge.Proofs.Departures
import LedgerBridge.Proofs.Memos
import LedgerBridge.Proofs.PaidCalls
import LedgerBridge.Proofs.QueryAnswers
import LedgerBridge.Proofs.Scopes
import LedgerBridge.Proofs.StoredRecords

/-! Swaps from end to end. Whether a swap can be made is decided in many places: the registry of tokens,
the terms of the outpost, the message, the grant and the balance of the origin. When all of them agree, the
funds, the packet, the grant and what is reported agree as well. -/
namespace LedgerBridge

namespace Allocation

/-- What is left of an allocation that a coin is taken from; none if no limit is left. -/
def drawn (a : Allocation) (token : Coin) : Option Allocation :=
  let limits := a.limits.set token.denom ((a.limits.limit token.denom).minus token.amount)
  if limits = [] then none else some { a with limits }

variable {a : Allocation} {token : Coin} {receiver : String} {taken : Option Allocation}

theorem spend_eq_ok_drawn : a.spend token receiver = .ok taken ↔
    a.allows receiver ∧ token.amount ≤ a.limits.limit token.denom ∧ a.drawn token = taken := by
  simp only [spend_eq_ok, Limits.spend_eq_ok, and_assoc, exists_and_left, exists_eq_left', drawn]

end Allocation

/-- A transfer grant lets a coin go over a channel if the first of its allocations for the channel does. -/
theorem Authorization.accept_first_eq_ok {allocations : List Allocation} {m : TransferMessage}
    {left : Option Authorization} :
    (Authorization.transfer allocations).accept (.transfer m) = .ok left ↔
      ∃ before a after, allocations = before ++ a :: after ∧
        (∀ b ∈ before, ¬ (b.port = m.port ∧ b.channel = m.channel)) ∧
        (a.port = m.port ∧ a.channel = m.channel) ∧ a.allows m.receiver ∧
        m.token.amount ≤ a.limits.limit m.token.denom ∧
        (if before ++ (a.drawn m.token).toList ++ after = [] then none
          else some (.transfer (before ++ (a.drawn m.token).toList ++ after))) = left := by
  rw [accept_transfer_eq_ok]
  constructor
  · rintro ⟨_, rest, ⟨⟩, spent, rfl⟩
    obtain ⟨before, a, after, taken, rfl, apart, here, used, rfl⟩ :=
      Allocation.exists_of_spendFirst spent
    obtain ⟨allowed, enough, rfl⟩ := Allocation.spend_eq_ok_drawn.mp used
    exact ⟨before, a, after, rfl, apart, here, allowed, enough, rfl⟩
  · rintro ⟨before, a, after, rfl, apart, here, allowed, enough, rfl⟩
    have used := Allocation.spend_eq_ok_drawn.mpr ⟨allowed, enough, rfl⟩
    exact ⟨_, _, rfl, Allocation.spendFirst_append apart here used, rfl⟩

/-- What is asked for is something that can be swapped, on the terms of the outpost. -/
theorem SwapRequest.check_eq_ok {r : SwapRequest} {supported : List String} :
    r.check supported = .ok () ↔ r.inputDenom ≠ r.outputDenom ∧ r.inputDenom ∈ supported ∧
      r.slippagePercent.toNat ≤ 20 ∧ r.windowSeconds.toNat ≤ 60 := by
  simp only [check, SwapMemo.maxSlippage, SwapMemo.maxWindow, ← Nat.not_lt]
  by_cases same : r.inputDenom = r.outputDenom
  · simp [same]
  · by_cases listed : r.inputDenom ∈ supported
    · by_cases far : 20 < r.slippagePercent.toNat
      · simp [same, listed, far]
      · by_cases long : 60 < r.windowSeconds.toNat <;> simp [same, listed, far, long]
    · simp [same, listed]

open Metered Contents

namespace Contents

/-- The denomination that is staked. -/
def bondDenom (v : Contents) : String :=
  (v.record? .string .stakingParams).getD Ledger.defaultBondDenom

/-- Of the allocations in a transfer grant in force, the first for the message's channel allows its receiver
and covers its coin. -/
structure Allocates (v : Contents) (time : UInt64) (granter grantee : Address) (m : TransferMessage)
    (before : List Allocation) (a : Allocation) (after : List Allocation)
    (expiration : Option UInt64) : Prop where
  live : v.liveGrant? time granter grantee Message.transferType =
    some ⟨.transfer (before ++ a :: after), expiration⟩
  first : ∀ b ∈ before, ¬ (b.port = m.port ∧ b.channel = m.channel)
  here : a.port = m.port ∧ a.channel = m.channel
  allows : a.allows m.receiver
  covers : m.token.amount ≤ a.limits.limit m.token.denom

/-- A transfer grant in force lets the coin of the message go. -/
def AllowsTransfer (v : Contents) (time : UInt64) (granter grantee : Address) (m : TransferMessage) :
    Prop :=
  ∃ before a after expiration, v.Allocates time granter grantee m before a after expiration

/-- The coin of the message was taken from the allocation for it, which is gone if nothing is left of it.
When no allocation is left, so is the record of the grant. -/
def DrawnFirst (v : Contents) (time : UInt64) (granter grantee : Address) (m : TransferMessage)
    (w : Contents) : Prop :=
  ∃ before a after expiration left, v.Allocates time granter grantee m before a after expiration ∧
    left = before ++ (a.drawn m.token).toList ++ after ∧
    w.get? (Key.grant granter grantee Message.transferType).bytes =
      if left = [] then none else some (Grant.codec.encode ⟨.transfer left, expiration⟩)

/-- A packet was queued under the number that came next, and now the number after it does. -/
structure Queued (v : Contents) (m : TransferMessage) (n : UInt64) (w : Contents) : Prop where
  next : (Ledger.nextSequence m.port m.channel).Gives v n v
  counted : w.get? (Key.sequence m.port m.channel).bytes = some (Codec.u64.encode (n + 1))
  recorded : v.Recorded (m.packet n) w

variable {v : Contents} {token : Address} {denom : String}

theorem WellStored.gives_denomAt (h : v.WellStored) (registered : v.denomAt? token = some denom) :
    (Outpost.denomAt token).Gives v denom v := by
  obtain ⟨name, found, recorded⟩ := Option.bind_eq_some_iff.mp registered
  obtain ⟨p, there, rfl⟩ := Option.map_eq_some_iff.mp recorded
  have readable : v.Readable TokenPair.codec (.pair (Utf8.readLossy name)) :=
    fun bs stored => h (.pair _) bs stored
  have listed : (Ledger.pairAt? token).Gives v (some p) v := by
    rw [Ledger.pairAt?, gives_bind]
    refine ⟨_, v, gives_get.mpr ⟨found, rfl⟩, ?_⟩
    exact Ledger.gives_read?.mpr ⟨readable, there, rfl⟩
  rw [Outpost.denomAt, gives_bind]
  exact ⟨_, v, Action.gives_ofLedger.mpr listed, gives_pure.mpr ⟨rfl, rfl⟩⟩

theorem WellStored.gives_bondDenom (h : v.WellStored) : Ledger.bondDenom.Gives v v.bondDenom v := by
  have readable : v.Readable .string .stakingParams := fun bs stored => h .stakingParams bs stored
  rw [Ledger.bondDenom, gives_bind]
  exact ⟨_, v, Ledger.gives_read?.mpr ⟨readable, rfl, rfl⟩, gives_pure.mpr ⟨rfl, rfl⟩⟩

theorem DrawnFirst.allows {w : Contents} {time : UInt64} {granter grantee : Address}
    {m : TransferMessage} (h : v.DrawnFirst time granter grantee m w) :
    v.AllowsTransfer time granter grantee m := by
  obtain ⟨before, a, after, expiration, -, allocates, -⟩ := h
  exact ⟨before, a, after, expiration, allocates⟩

end Contents

namespace Ledger

variable {v u w : Contents} {m : TransferMessage} {n : UInt64} {time : UInt64}
  {caller owner : Address}

theorem exists_channel_of_transfer (h : (transfer m).Gives v n w) :
    ∃ far, v.record? ChannelEnd.codec (.channel m.port m.channel) = some far := by
  simp only [transfer, gives_bind, gives_liftM, and_assoc, exists_and_left, exists_eq_left',
    channel?, gives_read?] at h
  obtain ⟨_, -, -, rest⟩ := h
  split at rest
  · simp at rest
  · rename_i opened
    exact Option.ne_none_iff_exists'.mp (by simpa using opened)

/-- A transfer touches no grant. -/
theorem grant_of_transfer (h : (transfer m).Gives v n w) (granter grantee : Address) (type : String) :
    v.SameAt w (.grant granter grantee type) := by
  have aside : ChangesWithin (fun key => key.kind ≠ .grant) (transfer m) :=
    changesWithin_transfer (fun _ => nofun) nofun (fun _ => nofun) nofun
  exact (aside.of_gives h).get?_eq fun _ other => Key.bytes_ne_of_kind_ne other

/-- A packet is queued by a transfer, and still is when no more than grants have changed. -/
theorem queued_of_transfer_grants (h : (transfer m).Gives v n u)
    (after : u.ChangedWithin (fun key => key.kind = .grant) w) : v.Queued m n w := by
  obtain ⟨between, -, aside, next, -, rfl⟩ := queued_of_transfer h
  have apart (key : Key) (other : key.kind ≠ .grant) :
      w.get? key.bytes = (between.queue m n).get? key.bytes :=
    after.get?_eq fun grant kind => Key.bytes_ne_of_kind_ne (kind ▸ other.symm)
  have same : v.SameAt between (.sequence m.port m.channel) :=
    aside.get?_eq fun _ isLocal => Key.bytes_ne_of_kind_ne isLocal.1
  constructor
  · simp only [nextSequence, gives_bind, gives_read?, gives_pure, Readable, record?] at next ⊢
    rw [same] at next
    obtain ⟨found, _, ⟨readable, read, -⟩, counted, -⟩ := next
    exact ⟨found, v, ⟨readable, read, rfl⟩, counted, rfl⟩
  · rw [apart _ (by simp), queue, Changes.get?_put, if_pos rfl]
  · exact (recorded_queue aside).of_changedWithin (after.mono fun _ grant => by simp [grant])

/-- What a message was let through by is drawn from when it is settled. -/
theorem drawnFirst_of_settle (stored : v.WellStored) {grant : Grant} {left : Option Authorization}
    (live : v.liveGrant? time owner caller Message.transferType = some grant)
    (accepted : grant.authorization.accept (.transfer m) = .ok left)
    (h : (settle time (.delegated ⟨owner, caller, grant, left⟩)).Gives u () w) :
    v.DrawnFirst time owner caller m w := by
  obtain ⟨allocations, expiration, rfl⟩ := stored.exists_allocations live
  have record := get?_of_settle (m := .transfer m) accepted h
  obtain ⟨before, a, after, rfl, apart, here, allows, enough, rfl⟩ :=
    Authorization.accept_first_eq_ok.mp accepted
  refine ⟨before, a, after, expiration, _, ⟨live, apart, here, allows, enough⟩, rfl,
    record.trans ?_⟩
  split <;> rfl

/-- Who may send the coin of the message is found to, and can settle that once it is sent. -/
theorem exists_authority (stored : v.WellStored)
    (allowed : caller = owner ∨ v.AllowsTransfer time owner caller m)
    (kept : v.SameAt u (.grant owner caller Message.transferType)) :
    ∃ authority w, (authorize time caller owner (.transfer m)).Gives v authority v ∧
      (settle time authority).Gives u () w := by
  by_cases own : caller = owner
  · refine ⟨.own, u, ?_, gives_pure.mpr ⟨rfl, rfl⟩⟩
    simp only [authorize, if_pos own]
    exact gives_pure.mpr ⟨rfl, rfl⟩
  · obtain ⟨before, a, after, expiration, live, first, here, allows, covers⟩ :=
      allowed.resolve_left own
    have accepted : (Authorization.transfer (before ++ a :: after)).accept (.transfer m) = .ok _ :=
      Authorization.accept_first_eq_ok.mpr ⟨before, a, after, rfl, first, here, allows, covers, rfl⟩
    exact ⟨_, _, gives_authorize (m := .transfer m) (stored.readable_grant _ _ _) own live accepted,
      gives_settle (m := .transfer m) live accepted kept⟩

end Ledger

namespace Outpost

/-- What a call asks for, in the denominations that its tokens have and on the terms of the outpost. -/
structure Asked (o : Outpost) (v : Contents) (input output : Address) (amount : Word)
    (receiver : String) (q : SwapRequest) : Prop where
  input : v.denomAt? input = some q.inputDenom
  output : v.denomAt? output = some q.outputDenom
  amount : amount = .ofAmount q.amount
  receiver : receiver = q.receiver
  slippage : o.config.slippagePercent = q.slippagePercent
  window : o.config.windowSeconds = q.windowSeconds

theorem Asked.unique {o : Outpost} {v : Contents} {input output : Address} {amount : Word}
    {receiver : String} {q q' : SwapRequest} (h : o.Asked v input output amount receiver q)
    (h' : o.Asked v input output amount receiver q') : q = q' := by
  cases q
  cases q'
  simp only [SwapRequest.mk.injEq]
  exact ⟨Option.some.inj (h.input.symm.trans h'.input),
    Option.some.inj (h.output.symm.trans h'.output),
    Word.ofAmount_injective (h.amount.symm.trans h'.amount), h.receiver.symm.trans h'.receiver,
    h.slippage.symm.trans h'.slippage, h.window.symm.trans h'.window⟩

/-- What is asked for can be done. -/
structure CanSwap (o : Outpost) (v : Contents) (time : UInt64) (caller origin sender : Address)
    (q : SwapRequest) : Prop where
  different : q.inputDenom ≠ q.outputDenom
  supported : q.inputDenom = v.bondDenom ∨
    q.inputDenom = Denom.voucher o.config.port o.config.channel o.config.counterDenom
  slippage : q.slippagePercent.toNat ≤ 20
  window : q.windowSeconds.toNat ≤ 60
  entitled : caller = sender ∨ sender = origin
  positive : 0 < q.amount.toNat
  port : Identifier.check "port" o.config.port = .ok ()
  channel : Identifier.check "channel" o.config.channel = .ok ()
  opened : ∃ far, v.record? ChannelEnd.codec (.channel o.config.port o.config.channel) = some far
  denom : Denom.check q.inputDenom = .ok ()
  funded : origin ≠ .zero
  contract : Text.isBlank o.config.swapContract = false
  memo : (o.memo q).write.utf8ByteSize ≤ 32768
  allowed : caller = origin ∨ v.AllowsTransfer time origin caller (o.message q origin)
  held : q.amount.toNat ≤ (v.balance origin q.inputDenom).toNat

variable {o : Outpost} {c : Call} {v w : Contents} {done : Completed} {q : SwapRequest}
  {sender input output : Address} {amount : Amount} {receiver : String}

/-- With arguments that are well-formed, a swap is a request that is checked, then a transfer that is
made and settled. -/
theorem gives_swap (stored : v.WellStored) (stated : c.arguments =
      [.address sender, .address input, .address output, .ofAmount amount, .text receiver]) :
    (o.swap c).Gives v done w ↔ ∃ q authority n u,
      o.Asked v input output (.ofAmount amount) receiver q ∧
      q.check (supportedInputs v.bondDenom o.config.port o.config.channel o.config.counterDenom) =
        .ok () ∧
      (c.caller = sender ∨ sender = c.origin) ∧ (o.message q c.origin).check = .ok () ∧
      (Ledger.authorize c.time c.caller c.origin (.transfer (o.message q c.origin))).Gives
        v authority v ∧
      (Ledger.transfer (o.message q c.origin)).Gives v n u ∧
      (Ledger.settle c.time authority).Gives u () w ∧
      done = ⟨Completed.success, [transferLog c.address (o.message q c.origin),
        swapLog c.address c.origin input output q], (o.journal (o.message q c.origin)).changes⟩ := by
  have first : c.arguments.address 0 "sender address" = .ok sender :=
    Arguments.address_eq_ok.mpr (by rw [stated]; rfl)
  have second : c.arguments.address 1 "input denom" = .ok input :=
    Arguments.address_eq_ok.mpr (by rw [stated]; rfl)
  have third : c.arguments.address 2 "output denom" = .ok output :=
    Arguments.address_eq_ok.mpr (by rw [stated]; rfl)
  have fourth : c.arguments.amount 3 "amount" = .ok amount :=
    Arguments.amount_eq_ok.mpr (by rw [stated]; rfl)
  have fifth : c.arguments.text 4 "receiver address" = .ok receiver :=
    Arguments.text_eq_ok.mpr (by rw [stated]; rfl)
  have count : c.arguments.expectCount 5 = .ok () := by rw [stated]; rfl
  simp only [swap, first, second, third, fourth, fifth, count, gives_bind, gives_liftM,
    Except.ok.injEq, and_assoc, exists_and_left, exists_eq_left', Action.gives_ofLedger, gives_pure,
    gives_discard, gives_mapError, mapError_eq_ok]
  constructor
  · rintro ⟨-, _, inputDenom, _, inputAt, outputDenom, _, outputAt, bond, _, bonded, _, checked, effective,
      substituted, _, sendable, authority, _, allowed, _, u, ⟨n, left⟩, _, _, settles, rfl, rfl⟩
    obtain ⟨registered, rfl⟩ := denomAt?_of_denomAt inputAt
    obtain ⟨registered', rfl⟩ := denomAt?_of_denomAt outputAt
    obtain rfl := bonded.unique stored.gives_bondDenom
    obtain rfl := Ledger.reads_bondDenom.eq_of_gives bonded
    obtain ⟨entitled, rfl⟩ := effectiveSender_eq_ok.mp substituted
    obtain ⟨rfl, -⟩ := Ledger.authority_of_authorize allowed
    exact ⟨_, ⟨registered, registered', rfl, rfl, rfl, rfl⟩, checked, entitled, sendable, authority,
      allowed, n, u, left, settles, rfl⟩
  · rintro ⟨q, asked, checked, entitled, sendable, authority, allowed, n, u, left, settles, rfl⟩
    obtain ⟨inputDenom, outputDenom, amount', receiver', slippage, window⟩ := q
    obtain ⟨registered, registered', same, rfl, rfl, rfl⟩ := asked
    obtain rfl := Word.ofAmount_injective same
    exact ⟨trivial, (), inputDenom, v, stored.gives_denomAt registered, outputDenom, v,
      stored.gives_denomAt registered', v.bondDenom, v, stored.gives_bondDenom, (), checked, c.origin,
      effectiveSender_eq_ok.mpr ⟨entitled, rfl⟩, (), sendable, authority, v, allowed, (), u,
      ⟨n, left⟩, (), w, settles, rfl, rfl⟩

/-- The swap was made. -/
structure Swapped (o : Outpost) (v : Contents) (time : UInt64)
    (caller origin input output : Address) (q : SwapRequest) (n : UInt64) (done : Completed)
    (w : Contents) : Prop where
  moved : v.Moved ⟨q.inputDenom, q.amount⟩ (some origin)
    (Denom.exit? o.config.port o.config.channel q.inputDenom) w
  native : Denom.isVoucher q.inputDenom = false → ∀ denom, w.supply denom = v.supply denom
  voucher : Denom.isVoucher q.inputDenom = true →
    (w.supply q.inputDenom).toNat + q.amount.toNat = (v.supply q.inputDenom).toNat
  queued : v.Queued (o.message q origin) n w
  own : caller = origin → ∀ granter grantee type, v.SameAt w (.grant granter grantee type)
  drawn : caller ≠ origin → v.DrawnFirst time origin caller (o.message q origin) w
  /-- Nothing else is touched. -/
  others : v.UnchangedBut (o.scope q.inputDenom origin caller) w
  /-- The memo of the packet is read as what was asked for. -/
  memo : SwapMemo.parse (o.message q origin).memo = some (.new q.outputDenom q.receiver
    o.config.swapContract (toString q.slippagePercent.toNat) q.windowSeconds)
  data : done.data = Completed.success
  logs : done.logs = [transferLog address (o.message q origin), swapLog address origin input output q]
  /-- What is reported of balances is what was moved. -/
  changes : done.changes = (Movement.journal ⟨⟨q.inputDenom, q.amount⟩, some origin,
    Denom.exit? o.config.port o.config.channel q.inputDenom⟩ o.evmDenom).changes

theorem check_message : (o.message q c.origin).check = .ok () ↔
    (Identifier.check "port" o.config.port = .ok () ∧
      Identifier.check "channel" o.config.channel = .ok ()) ∧
      (Denom.check q.inputDenom = .ok () ∧ 0 < q.amount.toNat) ∧ c.origin ≠ .zero ∧
      Text.isBlank o.config.swapContract = false ∧ (o.memo q).write.utf8ByteSize ≤ 32768 := by
  rw [TransferMessage.check_eq_ok]
  have timed : ((o.message q c.origin).timeoutHeight.isZero &&
      decide ((o.message q c.origin).timeoutTime = 0)) = false := rfl
  simp only [timed, and_true]
  rfl

/-- A memo that is sent is long enough to hold the name of the contract, so that fits as well. -/
theorem fits_swapContract (short : (o.memo q).write.utf8ByteSize ≤ 32768) :
    Text.Fits o.config.swapContract :=
  Text.fits_of_utf8ByteSize_le 32768 (Nat.le_trans (o.memo q).utf8ByteSize_contract_le short)
    (by decide)

/-- What can be done is done. -/
theorem exists_swap (conserved : v.Conserved) (stored : v.WellStored)
    (counted : v.Readable .u64 (.sequence o.config.port o.config.channel))
    (stated : c.arguments =
      [.address sender, .address input, .address output, .ofAmount amount, .text receiver])
    (asked : o.Asked v input output (.ofAmount amount) receiver q)
    (can : o.CanSwap v c.time c.caller c.origin sender q) :
    ∃ done w, (o.swap c).Gives v done w := by
  have checked : q.check
      (supportedInputs v.bondDenom o.config.port o.config.channel o.config.counterDenom) = .ok () := by
    refine SwapRequest.check_eq_ok.mpr ⟨can.different, ?_, can.slippage, can.window⟩
    simpa [supportedInputs] using can.supported
  have sendable : (o.message q c.origin).check = .ok () :=
    check_message.mpr ⟨⟨can.port, can.channel⟩, ⟨can.denom, can.positive⟩, can.funded, can.contract,
      can.memo⟩
  obtain ⟨far, found⟩ := can.opened
  have opened : (Ledger.channel? o.config.port o.config.channel).Gives v (some far) v :=
    Ledger.gives_read?.mpr ⟨fun bs => stored (.channel _ _) bs, found, rfl⟩
  obtain ⟨n, u, left⟩ := Ledger.exists_transfer (m := o.message q c.origin) conserved counted sendable
    (fits_swapContract can.memo) opened (BitVec.le_def.mpr can.held)
  obtain ⟨authority, w, allowed, settles⟩ := Ledger.exists_authority stored can.allowed
    (Ledger.grant_of_transfer left _ _ _)
  exact ⟨_, w, (gives_swap stored stated).mpr ⟨q, authority, n, u, asked, checked, can.entitled,
    sendable, allowed, left, settles, rfl⟩⟩

/-- A swap that was made could be made, and has done what it is to do. -/
theorem swapped_of_gives (before : v.Conserved) (stored : v.WellStored)
    (contract : c.address = address) (stated : c.arguments =
      [.address sender, .address input, .address output, .ofAmount amount, .text receiver])
    (h : (o.swap c).Gives v done w) :
    ∃ q, (o.Asked v input output (.ofAmount amount) receiver q ∧
      o.CanSwap v c.time c.caller c.origin sender q) ∧
      ∃ n, o.Swapped v c.time c.caller c.origin input output q n done w := by
  have after : w.Conserved := (Contents.kept_conserved.swap o c).of_gives h before
  obtain ⟨token, denom, named, registered, others⟩ := unchangedBut_swap h
  obtain ⟨q, authority, n, u, asked, checked, entitled, sendable, allowed, left, settles, rfl⟩ :=
    (gives_swap stored stated).mp h
  obtain rfl : input = token := by simpa [stated] using named
  obtain rfl : q.inputDenom = denom := Option.some.inj (asked.input.symm.trans registered)
  obtain ⟨different, supported, slippage, window⟩ := SwapRequest.check_eq_ok.mp checked
  obtain ⟨⟨port, channel⟩, ⟨denom, positive⟩, funded, swapContract, memo⟩ := check_message.mp sendable
  have moved : v.Moved ⟨q.inputDenom, q.amount⟩ (some c.origin)
      (Denom.exit? o.config.port o.config.channel q.inputDenom) w :=
    (Ledger.moved_of_transfer left).of_balance_eq (Ledger.balance_settle settles)
  have settling : ChangesWithin (fun key => key.kind = .grant) (Ledger.settle c.time authority) :=
    Ledger.changesWithin_settle_of_authorize allowed fun _ => rfl
  have opened := Ledger.exists_channel_of_transfer left
  have drawn : c.caller ≠ c.origin →
      v.DrawnFirst c.time c.origin c.caller (o.message q c.origin) w := by
    intro another
    obtain ⟨-, ⟨own, -⟩ | ⟨-, grant, rest, live, accepted, rfl⟩⟩ := Ledger.authority_of_authorize allowed
    · exact absurd own another
    · exact Ledger.drawnFirst_of_settle stored live accepted settles
  have own : c.caller = c.origin → ∀ granter grantee type, v.SameAt w (.grant granter grantee type) := by
    intro own granter grantee type
    obtain ⟨-, ⟨-, rfl⟩ | ⟨another, -⟩⟩ := Ledger.authority_of_authorize allowed
    · obtain ⟨-, rfl⟩ := gives_pure.mp settles
      exact Ledger.grant_of_transfer left _ _ _
    · exact absurd own another
  have can : o.CanSwap v c.time c.caller c.origin sender q := {
    different := different
    supported := by simpa [supportedInputs] using supported
    slippage := slippage
    window := window
    entitled := entitled
    positive := positive
    port := port
    channel := channel
    opened := opened
    denom := denom
    funded := funded
    contract := swapContract
    memo := memo
    allowed := or_iff_not_imp_left.mpr fun another => (drawn another).allows
    held := moved.covered c.origin rfl }
  obtain ⟨native, voucher⟩ := before.supply_left after moved
  refine ⟨q, ⟨asked, can⟩, n, {
    moved := moved
    native := native
    voucher := voucher
    queued := Ledger.queued_of_transfer_grants left (settling.of_gives settles)
    own := own
    drawn := drawn
    others := others
    memo := SwapMemo.parse_write _
    data := rfl
    logs := by rw [contract]
    changes := changes_journal _ }⟩

/-- The input calls for a swap, and this is what is read of its arguments. -/
def Asks (input : Bytes) (args : Arguments) : Prop :=
  ∃ m, table.find? input = some m ∧ Abi.decode m.inputs (input.drop 4) = .ok args

/-- Arguments are read as they were written. -/
theorem asks_encodeCall {args : Arguments}
    (conform : Abi.Conform [.address, .address, .address, .uint256, .text] args)
    (bound : (Abi.encode args).length < UInt64.size) :
    Asks (Abi.encodeCall "swap(address,address,address,uint256,string)" args) args := by
  have long : ¬ (Abi.encodeCall "swap(address,address,address,uint256,string)" args).length < 4 := by
    simp [Abi.encodeCall]
  have values := Abi.decode_encode_append conform [] (by simpa using bound)
  rw [List.append_nil] at values
  refine ⟨⟨.swap, "swap(address,address,address,uint256,string)",
    [.address, .address, .address, .uint256, .text], .transaction, 1500000⟩, ?_, ?_⟩
  · rw [MethodTable.find?, if_neg long, Abi.encodeCall, List.take_left' (Abi.length_selector _)]
    exact (ByteMap.get?_insert _ _ _ _).trans (if_pos rfl)
  · rw [Abi.encodeCall, List.drop_left' (Abi.length_selector _)]
    exact values

/-- In every ledger that can be reached, a caller that gives enough gas succeeds in swapping if and only
if what it asks for can be done. Then the funds of the origin, and of no one else, have left for the
account of the channel, or for good if they were vouchers; one packet that tells of them is queued under
the next number, the grant of the origin is drawn from if the caller is another, all else stays as it is,
and logs and journal say what was done. Else nothing is done. -/
theorem swap_exactly {s : Store} (reached : Reached s) (o : Outpost) (time : UInt64)
    (caller origin : Address) {data : Bytes} {sender input output : Address} {amount : Word}
    {receiver : String} (asks : Asks data
      [.address sender, .address input, .address output, .uint amount, .text receiver]) :
    ∃ enough ≤ Meter.cap, ∀ gas, enough ≤ gas →
      let r := (Precompile.outpost o).run time s ⟨caller, data, gas⟩ origin false
      ((∃ out, r.result = .ok out) ↔ ∃ q, o.Asked s.contents input output amount receiver q ∧
        o.CanSwap s.contents time caller origin sender q) ∧
      (∀ out, r.result = .ok out → ∃ q n, o.Asked s.contents input output amount receiver q ∧
        o.Swapped s.contents time caller origin input output q n out.toCompleted r.store.contents ∧
        ∀ sent, Dispatched s sent →
          (sent.filter (·.isOn o.config.port o.config.channel)).length < UInt64.size - 1 →
          s.contents.get? (Key.packet o.config.port o.config.channel n).bytes = none) ∧
      (∀ e, r.result = .error e → r.store.contents = s.contents) := by
  have conserved := reached.conserved
  have stored := reached.wellStored
  obtain ⟨sent, dispatched⟩ := Dispatched.exists_of_reached reached
  have counted := dispatched.readable_sequence o.config.port o.config.channel
  obtain ⟨⟨op, signature, inputs, kind, required⟩, found, values⟩ := asks
  have small : ∀ m ∈ methods, m.gas ≤ Meter.cap := by decide
  obtain ⟨enough, capped, mirrors⟩ := Precompile.exists_enough_runWith
    (small _ (MethodTable.mem_of_find? found)) found values o.operate address time s caller origin
  refine ⟨enough, capped, fun gas paid => ?_⟩
  intro r
  cases op
  let c : Call := ⟨caller, origin, address, time,
    [.address sender, .address input, .address output, .uint amount, .text receiver]⟩
  have run : Precompile.Mirrors r (o.swap c) s.contents := mirrors gas paid
  have done : ∀ out, r.result = .ok out → ∃ q,
      (o.Asked s.contents input output amount receiver q ∧
        o.CanSwap s.contents time caller origin sender q) ∧
      ∃ n, o.Swapped s.contents time caller origin input output q n out.toCompleted
        r.store.contents := by
    intro out succeeded
    have gives := run.gives succeeded
    obtain ⟨_, _, _, _, _, asked, -⟩ := parts_of_swap gives
    obtain ⟨_, _, -, -, fourth, -⟩ := exists_of_request? asked
    obtain rfl : amount = .ofAmount _ := by simpa [c, Abi.Value.ofAmount] using fourth
    exact swapped_of_gives conserved stored rfl rfl gives
  refine ⟨⟨?_, ?_⟩, fun out succeeded => ?_,
    fun _ failed => congrArg Store.contents (Precompile.store_of_run_error failed)⟩
  · rintro ⟨out, succeeded⟩
    obtain ⟨q, ⟨asked, can⟩, -⟩ := done out succeeded
    exact ⟨q, asked, can⟩
  · rintro ⟨q, asked, can⟩
    obtain rfl := asked.amount
    obtain ⟨_, _, gives⟩ := exists_swap (c := c) conserved stored counted rfl asked can
    exact run.exists_ok gives
  · obtain ⟨q, ⟨asked, -⟩, n, swapped⟩ := done out succeeded
    refine ⟨q, n, asked, swapped, fun sent dispatched few => ?_⟩
    exact (dispatched.tells _ _).get?_packet few .same swapped.queued.next

/-- The developer swaps five of its own. -/
theorem swap_exactly_of_developer :
    ∃ s, Config.development.initialStore = .ok s ∧
      let o : Outpost := ⟨Config.development.outpost, Config.development.chain.evmDenom⟩
      let args : Arguments := [.address Config.developer, .address (.ofToken "abridge"),
        .address (.ofToken (Denom.voucher "transfer" "channel-0" "uosmo")), .uint 5,
        .text "osmo1receiver"]
      let data := Abi.encodeCall "swap(address,address,address,uint256,string)" args
      Asks data args ∧ ∃ gas ≤ Meter.cap, ∃ out n,
        let r := (Precompile.outpost o).run 1700000000 s ⟨Config.developer, data, gas⟩
          Config.developer false
        r.result = .ok out ∧ s.contents.Queued Config.developerSwapMessage n r.store.contents := by
  have known : (Config.development.initialStore.toOption.any fun s =>
      s.contents.denomAt? (.ofToken "abridge") == some "abridge" &&
      s.contents.denomAt? (.ofToken (Denom.voucher "transfer" "channel-0" "uosmo")) ==
        some (Denom.voucher "transfer" "channel-0" "uosmo") &&
      s.contents.bondDenom == "abridge" &&
      s.contents.record? ChannelEnd.codec (.channel "transfer" "channel-0") ==
        some ⟨"transfer", "channel-0"⟩ &&
      decide (5 ≤ (s.contents.balance Config.developer "abridge").toNat)) = true := by decide +kernel
  obtain ⟨s, started, holds⟩ := exists_of_any_toOption known
  simp only [Bool.and_eq_true, beq_iff_eq, decide_eq_true_eq] at holds
  obtain ⟨⟨⟨⟨registered, registered'⟩, bonded⟩, opened⟩, held⟩ := holds
  refine ⟨s, started, ?_⟩
  intro o args data
  have asks : Asks data args :=
    asks_encodeCall (by simp [args, Abi.Kind.admits]) (by decide +kernel)
  obtain ⟨enough, capped, exactly⟩ := swap_exactly (.initialStore started) o 1700000000
    Config.developer Config.developer asks
  obtain ⟨succeeds, swaps, -⟩ := exactly enough (Nat.le_refl _)
  let q : SwapRequest := ⟨"abridge", Denom.voucher "transfer" "channel-0" "uosmo", 5,
    "osmo1receiver", 5, 10⟩
  have asked : o.Asked s.contents (.ofToken "abridge")
      (.ofToken (Denom.voucher "transfer" "channel-0" "uosmo")) 5 "osmo1receiver" q :=
    ⟨registered, registered', by decide, rfl, by decide, by decide⟩
  have can : o.CanSwap s.contents 1700000000 Config.developer Config.developer Config.developer q := {
    different := by decide +kernel
    supported := .inl bonded.symm
    slippage := by decide
    window := by decide
    entitled := .inl rfl
    positive := by decide
    port := by decide +kernel
    channel := by decide +kernel
    opened := ⟨_, opened⟩
    denom := by decide +kernel
    funded := by decide
    contract := by decide +kernel
    memo := by decide +kernel
    allowed := .inl rfl
    held := held }
  obtain ⟨out, ended⟩ := succeeds.mpr ⟨q, asked, can⟩
  obtain ⟨q', n, asked', swapped, -⟩ := swaps out ended
  obtain rfl := asked.unique asked'
  exact ⟨asks, enough, capped, out, n, ended, swapped.queued⟩

end Outpost

end LedgerBridge
