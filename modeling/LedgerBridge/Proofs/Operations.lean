import LedgerBridge.Precompile.Run
import LedgerBridge.Proofs.Delegation
import LedgerBridge.Proofs.Queries

/-! What the operations of contracts do to balances. Each that succeeds leaves them as they are and
reports nothing, or moves one coin and reports just that. -/
namespace LedgerBridge

/-- A coin and the accounts that it leaves and reaches. Without an account it comes from outside of the
ledger, or goes there. -/
structure Movement where
  coin : Coin
  source : Option Address
  target : Option Address
  deriving DecidableEq, Repr

namespace Movement

/-- How a movement is reported: first what the source lost, then what the target gained. -/
def journal (m : Movement) (evmDenom : String) : Journal :=
  let start := Journal.new evmDenom
  let debited := match m.source with
    | some owner => start.debit m.coin.denom owner m.coin.amount
    | none => start
  match m.target with
  | some owner => debited.credit m.coin.denom owner m.coin.amount
  | none => debited

/-- The movement took place, and is all that is reported. -/
structure Explains (m : Movement) (evmDenom : String) (v : Contents) (done : Completed)
    (w : Contents) : Prop where
  moved : v.Moved m.coin m.source m.target w
  changes : done.changes = (m.journal evmDenom).changes

end Movement

/-- No balance is changed, and none is reported to be. -/
structure Contents.AtRest (v : Contents) (done : Completed) (w : Contents) : Prop where
  balance : ∀ owner denom, w.balance owner denom = v.balance owner denom
  changes : done.changes = []

theorem Arguments.address_eq_ok {args : Arguments} {index : Nat} {name : String} {a : Address} :
    args.address index name = .ok a ↔ args[index]? = some (.address a) := by
  simp only [Arguments.address, Arguments.get]
  cases args[index]? with
  | none => simp
  | some value => cases value <;> simp

theorem Word.toNat_eq_iff {n : Word} {a : Amount} : a.toNat = n.toNat ↔ n = .ofAmount a := by
  have fits : a.toNat < 2 ^ 256 := Nat.lt_trans a.isLt (by decide)
  have width : (Word.ofAmount a).toNat = a.toNat := by
    rw [Word.ofAmount, BitVec.toNat_setWidth, Nat.mod_eq_of_lt fits]
  constructor
  · intro same
    exact BitVec.eq_of_toNat_eq (same.symm.trans width.symm)
  · rintro rfl
    exact width.symm

theorem Word.ofAmount_injective {a b : Amount} (h : ofAmount a = ofAmount b) : a = b :=
  BitVec.eq_of_toNat_eq ((toNat_eq_iff.mpr rfl).trans (toNat_eq_iff.mpr h).symm)

theorem Arguments.amount_eq_ok {args : Arguments} {index : Nat} {name : String} {a : Amount} :
    args.amount index name = .ok a ↔ args[index]? = some (.ofAmount a) := by
  simp only [Arguments.amount, Arguments.uint, Arguments.get, Abi.Value.ofAmount]
  cases args[index]? with
  | none => simp
  | some value =>
    cases value with
    | uint n =>
      simp only [ok_bind, pure_bind, Option.some.injEq, Abi.Value.uint.injEq]
      rw [← Word.toNat_eq_iff, ← Amount.ofNat?_eq_some_iff]
      cases Amount.ofNat? n.toNat <;> simp
    | address | bool | text => simp

theorem Arguments.expectCount_eq_ok {args : Arguments} {count : Nat} {counted : Unit} :
    args.expectCount count = .ok counted ↔ args.length = count := by
  simp [Arguments.expectCount]

theorem Arguments.eq_of_getElem? {args : Arguments} {a b c d e : Abi.Value} (count : args.length = 5)
    (first : args[0]? = some a) (second : args[1]? = some b) (third : args[2]? = some c)
    (fourth : args[3]? = some d) (fifth : args[4]? = some e) : args = [a, b, c, d, e] := by
  match args, count with
  | [_, _, _, _, _], _ => simp_all

theorem Arguments.text_eq_ok {args : Arguments} {index : Nat} {name s : String} :
    args.text index name = .ok s ↔ args[index]? = some (.text s) := by
  simp only [Arguments.text, Arguments.get]
  cases args[index]? with
  | none => simp
  | some value => cases value <;> simp

open Metered LedgerBridge.Action

variable {v w : Contents} {c : Call} {done : Completed}

namespace TokenContract

variable {t : TokenContract}

theorem moved_of_move {sender recipient : Address} {amount : Amount} {authority : Authority}
    (h : (t.move c sender recipient amount).Gives v authority w) :
    v.Moved ⟨t.denom, amount⟩ (some sender) (some recipient) w ∧
      (sender = c.caller ∨ v.Drawn c.time sender c.caller t.denom amount.toNat w) := by
  simp only [move, gives_bind, gives_liftM, and_assoc, exists_and_left, exists_eq_left',
    gives_ofTokenLedger, gives_ofLedger, gives_pure] at h
  obtain ⟨_, -, authority, _, allowed, _, _, sent, _, _, settled, rfl, rfl⟩ := h
  obtain ⟨rfl, cases⟩ := Ledger.authority_of_authorize allowed
  have moved := Ledger.moved_of_send sent
  have same := Ledger.balance_settle settled
  refine ⟨moved.of_balance_eq same, ?_⟩
  rcases cases with ⟨own, -⟩ | ⟨-, grant, left, live, accepted, rfl⟩
  · exact .inl own.symm
  · exact .inr (Ledger.drawn_of_settle_send rfl live accepted settled)

theorem explains_transfer (h : (t.transfer c).Gives v done w) :
    ∃ recipient amount,
      Movement.Explains ⟨⟨t.denom, amount⟩, some c.caller, some recipient⟩ t.evmDenom v done w ∧
      done.logs = [transferLog c.address c.caller recipient amount] := by
  simp only [transfer, gives_bind, gives_liftM, and_assoc, exists_and_left, exists_eq_left',
    gives_discard, gives_pure] at h
  obtain ⟨_, -, recipient, -, amount, -, _, _, ⟨_, moves⟩, rfl, rfl⟩ := h
  exact ⟨recipient, amount, ⟨(moved_of_move moves).1, rfl⟩, rfl⟩

theorem explains_transferFrom (h : (t.transferFrom c).Gives v done w) :
    ∃ sender recipient amount, c.arguments[0]? = some (.address sender) ∧
      c.arguments[2]? = some (.ofAmount amount) ∧
      Movement.Explains ⟨⟨t.denom, amount⟩, some sender, some recipient⟩ t.evmDenom v done w ∧
      (sender = c.caller ∨ v.Drawn c.time sender c.caller t.denom amount.toNat w) ∧
      ∃ left, done.logs = [transferLog c.address sender recipient amount,
        approvalLog c.address sender c.caller left] := by
  simp only [transferFrom, gives_bind, gives_liftM, and_assoc, exists_and_left, exists_eq_left',
    gives_pure, Arguments.address_eq_ok, Arguments.amount_eq_ok] at h
  obtain ⟨_, -, sender, named, recipient, -, amount, stated, _, _, moves, rfl, rfl⟩ := h
  obtain ⟨moved, allowed⟩ := moved_of_move moves
  exact ⟨sender, recipient, amount, named, stated, ⟨moved, rfl⟩, allowed, _, rfl⟩

theorem requireOwner_eq_ok {caller : Address} {role : String} {checked : Unit} :
    t.requireOwner caller role = .ok checked ↔ t.pair.owner = some caller := by
  simp [requireOwner]

theorem explains_mint (h : (t.mint c).Gives v done w) :
    ∃ recipient amount, t.pair.owner = some c.caller ∧
      c.arguments[0]? = some (.address recipient) ∧ c.arguments[1]? = some (.ofAmount amount) ∧
      Movement.Explains ⟨⟨t.denom, amount⟩, none, some recipient⟩ t.evmDenom v done w ∧
      done.logs = [transferLog c.address (.ofModule moduleName) recipient amount] := by
  simp only [mint, gives_bind, gives_liftM, and_assoc, exists_and_left, exists_eq_left',
    gives_ofLedger, gives_pure, Arguments.address_eq_ok, Arguments.amount_eq_ok,
    requireOwner_eq_ok] at h
  obtain ⟨_, -, recipient, named, amount, stated, _, -, owner, _, _, _, minted, _, _, sent, rfl,
    rfl⟩ := h
  have moved := (Ledger.moved_of_mint minted).trans (Ledger.moved_of_send sent)
  exact ⟨recipient, amount, owner, named, stated, ⟨moved, rfl⟩, rfl⟩

theorem explains_burn (h : (t.burn c).Gives v done w) :
    ∃ amount, t.pair.owner = some c.caller ∧ c.arguments[0]? = some (.ofAmount amount) ∧
      Movement.Explains ⟨⟨t.denom, amount⟩, some c.caller, none⟩ t.evmDenom v done w ∧
      done.logs = [transferLog c.address c.caller (.ofModule moduleName) amount] := by
  simp only [burn, gives_bind, gives_liftM, and_assoc, exists_and_left, exists_eq_left',
    gives_ofTokenLedger, gives_ofLedger, gives_pure, Arguments.amount_eq_ok,
    requireOwner_eq_ok] at h
  obtain ⟨_, -, amount, stated, _, -, owner, _, _, _, sent, _, _, burned, rfl, rfl⟩ := h
  have moved := (Ledger.moved_of_send sent).trans (Ledger.moved_of_burn burned)
  exact ⟨amount, owner, stated, ⟨moved, rfl⟩, rfl⟩

/-- Changing an allowance changes a grant at most. -/
theorem balance_storeAllowance {time : UInt64} {owner spender : Address} {existing : Option Grant}
    {amount : Amount} {stored : Unit}
    (h : (t.storeAllowance time owner spender existing amount).Gives v stored w)
    (holder : Address) (denom : String) : w.balance holder denom = v.balance holder denom := by
  simp only [storeAllowance] at h
  split at h
  · split at h
    · obtain ⟨-, rfl⟩ := Ledger.gives_removeGrant.mp (gives_ofLedger.mp h)
      simp
    · obtain ⟨-, -, rfl⟩ := Ledger.gives_saveGrant.mp (gives_ofLedger.mp h)
      simp
  · exact absurd h gives_fail
  · obtain ⟨-, -, rfl⟩ := Ledger.gives_saveGrant.mp (gives_ofLedger.mp h)
    simp

theorem atRest_approve {change : AllowanceChange} (h : (t.approve change c).Gives v done w) :
    v.AtRest done w ∧
      ∃ spender value, done.logs = [approvalLog c.address c.caller spender value] := by
  simp only [approve, gives_bind, gives_liftM, and_assoc, exists_and_left, exists_eq_left'] at h
  obtain ⟨_, -, spender, -, amount, -, h⟩ := h
  split at h
  · simp at h
  · simp only [gives_bind, gives_liftM, and_assoc, exists_and_left, exists_eq_left', gives_ofLedger,
      Ledger.gives_grant?, gives_pure] at h
    obtain ⟨-, _, -, _, _, stored, rfl, rfl⟩ := h
    exact ⟨⟨balance_storeAllowance stored, rfl⟩, _, _, rfl⟩

theorem atRest_describe {part : Metadata → Abi.Value} (h : (t.describe part c).Gives v done w) :
    v.AtRest done w ∧ done.logs = [] := by
  simp only [describe, Ledger.metadata?, gives_bind, gives_liftM, and_assoc, exists_and_left,
    exists_eq_left', gives_ofLedger, Ledger.gives_read?, gives_pure] at h
  obtain ⟨_, -, -, rfl, rfl⟩ := h
  exact ⟨⟨fun _ _ => rfl, rfl⟩, rfl⟩

theorem atRest_totalSupply (h : (t.totalSupply c).Gives v done w) :
    v.AtRest done w ∧ done.logs = [] := by
  simp only [totalSupply, gives_bind, gives_liftM, and_assoc, exists_and_left, exists_eq_left',
    gives_ofLedger, Ledger.gives_supply, gives_pure] at h
  obtain ⟨_, -, -, rfl, rfl⟩ := h
  exact ⟨⟨fun _ _ => rfl, rfl⟩, rfl⟩

theorem atRest_balanceOf (h : (t.balanceOf c).Gives v done w) :
    v.AtRest done w ∧ done.logs = [] := by
  simp only [balanceOf, gives_bind, gives_liftM, and_assoc, exists_and_left, exists_eq_left',
    gives_ofLedger, Ledger.gives_balance, gives_pure] at h
  obtain ⟨_, -, owner, -, -, rfl, rfl⟩ := h
  exact ⟨⟨fun _ _ => rfl, rfl⟩, rfl⟩

theorem atRest_allowance (h : (t.allowance c).Gives v done w) :
    v.AtRest done w ∧ done.logs = [] := by
  simp only [allowance, gives_bind, gives_liftM, and_assoc, exists_and_left, exists_eq_left',
    gives_ofLedger, gives_pure] at h
  obtain ⟨_, -, owner, -, spender, -, found, _, looked, rfl, rfl⟩ := h
  rw [(Ledger.reads_allowance _ _ _ _).eq_of_gives looked]
  exact ⟨⟨fun _ _ => rfl, rfl⟩, rfl⟩

@[simp] theorem gives_operate {op : Operation} :
    (t.operate op c).Gives v done w ↔
      t.pair.enabled = true ∧ (t.enabledOperation op c).Gives v done w := by
  simp only [operate]
  split <;> simp [*]

/-- What an operation that succeeds has done to balances, and on what grounds. -/
inductive Effect (t : TokenContract) (c : Call) (v : Contents) (done : Completed) (w : Contents) :
    Operation → Prop
  | rest (same : v.AtRest done w) : Effect t c v done w op
  | transfer (recipient : Address) (amount : Amount)
      (explains : Movement.Explains ⟨⟨t.denom, amount⟩, some c.caller, some recipient⟩ t.evmDenom
        v done w) : Effect t c v done w .transfer
  | transferFrom (sender recipient : Address) (amount : Amount)
      (named : c.arguments[0]? = some (.address sender))
      (stated : c.arguments[2]? = some (.ofAmount amount))
      (explains : Movement.Explains ⟨⟨t.denom, amount⟩, some sender, some recipient⟩ t.evmDenom
        v done w)
      (allowed : sender = c.caller ∨ v.Drawn c.time sender c.caller t.denom amount.toNat w) :
      Effect t c v done w .transferFrom
  | mint (recipient : Address) (amount : Amount) (owner : t.pair.owner = some c.caller)
      (named : c.arguments[0]? = some (.address recipient))
      (stated : c.arguments[1]? = some (.ofAmount amount))
      (explains : Movement.Explains ⟨⟨t.denom, amount⟩, none, some recipient⟩ t.evmDenom v done w) :
      Effect t c v done w .mint
  | burn (amount : Amount) (owner : t.pair.owner = some c.caller)
      (stated : c.arguments[0]? = some (.ofAmount amount))
      (explains : Movement.Explains ⟨⟨t.denom, amount⟩, some c.caller, none⟩ t.evmDenom v done w) :
      Effect t c v done w .burn

theorem effect_of_operate {op : Operation} (h : (t.operate op c).Gives v done w) :
    t.Effect c v done w op := by
  obtain ⟨-, h⟩ := gives_operate.mp h
  cases op <;> simp only [enabledOperation] at h
  case transfer =>
    obtain ⟨recipient, amount, explains, -⟩ := explains_transfer h
    exact .transfer recipient amount explains
  case transferFrom =>
    obtain ⟨sender, recipient, amount, named, stated, explains, allowed, -⟩ :=
      explains_transferFrom h
    exact .transferFrom sender recipient amount named stated explains allowed
  case approve => exact .rest (atRest_approve h).1
  case increaseAllowance => exact .rest (atRest_approve h).1
  case decreaseAllowance => exact .rest (atRest_approve h).1
  case mint =>
    obtain ⟨recipient, amount, owner, named, stated, explains, -⟩ := explains_mint h
    exact .mint recipient amount owner named stated explains
  case burn =>
    obtain ⟨amount, owner, stated, explains, -⟩ := explains_burn h
    exact .burn amount owner stated explains
  case name => exact .rest (atRest_describe h).1
  case symbol => exact .rest (atRest_describe h).1
  case decimals => exact .rest (atRest_describe h).1
  case totalSupply => exact .rest (atRest_totalSupply h).1
  case balanceOf => exact .rest (atRest_balanceOf h).1
  case allowance => exact .rest (atRest_allowance h).1

/-- An operation of a token contract leaves balances alone or moves coins of its denomination. They are
nobody's before, or the caller's, or another's who gave the caller a grant. -/
theorem atRest_or_explains {op : Operation} (h : (t.operate op c).Gives v done w) :
    v.AtRest done w ∨ ∃ m : Movement, m.coin.denom = t.denom ∧ m.Explains t.evmDenom v done w ∧
      ∀ owner, m.source = some owner → owner = c.caller ∨
        op = .transferFrom ∧ c.arguments[0]? = some (.address owner) ∧
          v.SpentSend w c.time owner c.caller m.coin.denom m.coin.amount.toNat := by
  cases effect_of_operate h with
  | rest same => exact .inl same
  | transfer recipient amount explains =>
    refine .inr ⟨_, rfl, explains, ?_⟩
    rintro _ ⟨⟩
    exact .inl rfl
  | transferFrom sender recipient amount named _ explains allowed =>
    refine .inr ⟨_, rfl, explains, ?_⟩
    rintro _ ⟨⟩
    exact allowed.imp_right fun drawn => ⟨rfl, named, drawn.spentSend⟩
  | mint recipient amount _ _ _ explains =>
    refine .inr ⟨_, rfl, explains, ?_⟩
    rintro _ ⟨⟩
  | burn amount _ _ explains =>
    refine .inr ⟨_, rfl, explains, ?_⟩
    rintro _ ⟨⟩
    exact .inl rfl

end TokenContract

/-- The packet of a transfer is put under its number, and the number after it is next. -/
def Contents.queue (v : Contents) (m : TransferMessage) (n : UInt64) : Contents :=
  Changes.put
    (Changes.put v (Key.packet m.port m.channel n).bytes (some (Packet.codec.encode (m.packet n))))
    (Key.sequence m.port m.channel).bytes (some (Codec.u64.encode (n + 1)))

namespace Ledger

variable {m : TransferMessage}

theorem moved_of_release {released : Unit} (h : (release m).Gives v released w) :
    v.Moved m.token (some m.sender) (Denom.exit? m.port m.channel m.token.denom) w := by
  simp only [release] at h
  split at h
  · rename_i escrow exit
    rw [exit]
    exact moved_of_send h
  · rename_i exit
    rw [exit]
    obtain ⟨_, u, sent, burned⟩ := gives_bind.mp h
    exact (moved_of_send sent).trans (moved_of_burn burned)

/-- A transfer that succeeds takes the coin, queues a packet and counts it. -/
theorem parts_of_transfer {sequence : UInt64} (h : (Ledger.transfer m).Gives v sequence w) :
    ∃ u released, m.check = .ok () ∧ (release m).Gives v released u ∧
      (nextSequence m.port m.channel).Gives u sequence u ∧
      Packet.codec.writable (m.packet sequence) ∧ w = u.queue m sequence := by
  simp only [Ledger.transfer, gives_bind, gives_liftM, and_assoc, exists_and_left,
    exists_eq_left', channel?, gives_read?] at h
  obtain ⟨_, checked, -, h⟩ := h
  split at h
  · simp at h
  · simp only [gives_bind, gives_write, gives_pure, and_assoc, exists_and_left,
      exists_eq_left'] at h
    obtain ⟨released, u, took, n, u', next, writable, -, rfl, _, _, rfl⟩ := h
    cases (reads_nextSequence _ _).eq_of_gives next
    exact ⟨u, released, checked, took, next, writable, rfl⟩

theorem moved_of_transfer {sequence : UInt64} (h : (Ledger.transfer m).Gives v sequence w) :
    v.Moved m.token (some m.sender) (Denom.exit? m.port m.channel m.token.denom) w := by
  obtain ⟨u, released, -, took, -, -, rfl⟩ := parts_of_transfer h
  exact (moved_of_release took).of_balance_eq fun _ _ => by simp [Contents.queue]

end Ledger

/-- The denomination of the token that is registered at an address. -/
def Contents.denomAt? (v : Contents) (token : Address) : Option String :=
  (v.get? (Key.pairAddress token).bytes).bind fun denom =>
    (v.record? TokenPair.codec (.pair (Utf8.readLossy denom))).map TokenPair.denom

namespace Outpost

variable {o : Outpost}

theorem denomAt?_of_denomAt {token : Address} {denom : String}
    (h : (denomAt token).Gives v denom w) : v.denomAt? token = some denom ∧ v = w := by
  simp only [denomAt, Ledger.pairAt?, gives_bind, gives_ofLedger, gives_get, and_assoc,
    exists_and_left, exists_eq_left'] at h
  obtain ⟨pair, u, found, h⟩ := h
  simp only [Contents.denomAt?]
  cases pair with
  | none => exact absurd h gives_fail
  | some pair =>
    obtain ⟨rfl, rfl⟩ := gives_pure.mp h
    cases registered : v.get? (Key.pairAddress token).bytes with
    | none => simp [registered] at found
    | some denom =>
      simp only [registered, Ledger.pairOf?, Ledger.gives_read?] at found
      obtain ⟨-, recorded, rfl⟩ := found
      simp [recorded]

theorem effectiveSender_eq_ok {caller origin sender effective : Address} :
    effectiveSender caller origin sender = .ok effective ↔
      (caller = sender ∨ sender = origin) ∧ effective = origin := by
  simp only [effectiveSender]
  by_cases own : caller = sender
  · simp [own, eq_comm]
  · by_cases named : origin = sender
    · simp [own, named, eq_comm]
    · simp [own, named, Ne.symm named]

/-- The outpost finds the same exit for the funds as the ledger does. -/
theorem changes_journal (m : TransferMessage) :
    (o.journal m).changes =
      (Movement.journal ⟨m.token, some m.sender, Denom.exit? m.port m.channel m.token.denom⟩
        o.evmDenom).changes := by
  simp only [journal, Movement.journal]
  cases Denom.exit? m.port m.channel m.token.denom <;> rfl

/-- What a swap asks for, in the denominations that its tokens have. -/
def request? (o : Outpost) (v : Contents) : Arguments → Option SwapRequest
  | [_, .address input, .address output, .uint amount, .text receiver] => do
    return ⟨← v.denomAt? input, ← v.denomAt? output, ← Amount.ofNat? amount.toNat, receiver,
      o.config.slippagePercent, o.config.windowSeconds⟩
  | _ => none

theorem exists_of_request? {args : Arguments} {r : SwapRequest} (h : o.request? v args = some r) :
    ∃ input output, args[1]? = some (.address input) ∧ args[2]? = some (.address output) ∧
      args[3]? = some (.ofAmount r.amount) ∧ args[4]? = some (.text r.receiver) ∧
      v.denomAt? input = some r.inputDenom ∧ v.denomAt? output = some r.outputDenom := by
  simp only [request?] at h
  split at h
  · rename_i sender input output amount receiver
    simp only [Option.bind_eq_bind, Option.bind_eq_some_iff, Option.pure_def,
      Option.some.injEq, Amount.ofNat?_eq_some_iff, Word.toNat_eq_iff] at h
    obtain ⟨inputDenom, inputAt, outputDenom, outputAt, amount, rfl, rfl⟩ := h
    exact ⟨input, output, rfl, rfl, rfl, rfl, inputAt, outputAt⟩
  · cases h

/-- A swap that succeeds finds its authority, makes one transfer, and settles what that used. -/
theorem parts_of_swap (h : (o.swap c).Gives v done w) :
    ∃ r authority sequence u settled, o.request? v c.arguments = some r ∧
      (Ledger.authorize c.time c.caller c.origin (.transfer (o.message r c.origin))).Gives
        v authority v ∧
      (Ledger.transfer (o.message r c.origin)).Gives v sequence u ∧
      (Ledger.settle c.time authority).Gives u settled w ∧
      done.changes = (o.journal (o.message r c.origin)).changes := by
  simp only [swap, gives_bind, gives_liftM, and_assoc, exists_and_left, exists_eq_left',
    gives_ofLedger, gives_pure, gives_discard, Arguments.expectCount_eq_ok,
    Arguments.address_eq_ok, Arguments.amount_eq_ok, Arguments.text_eq_ok, Ledger.bondDenom,
    Ledger.gives_read?, gives_mapError] at h
  obtain ⟨count, _, sender, first, input, named, output, named', amount, stated, receiver, worded,
    inputDenom, _, inputAt, outputDenom, _, outputAt, -, _, -, effective, substituted, _, -,
    authority, _, allowed, _, _, ⟨sequence, left⟩, settled, _, settles, rfl, rfl⟩ := h
  obtain ⟨registered, rfl⟩ := denomAt?_of_denomAt inputAt
  obtain ⟨registered', rfl⟩ := denomAt?_of_denomAt outputAt
  obtain ⟨rfl, -⟩ := Ledger.authority_of_authorize allowed
  obtain ⟨-, rfl⟩ := effectiveSender_eq_ok.mp substituted
  have whole := Arguments.eq_of_getElem? count first named named' stated worded
  have asked : o.request? v c.arguments = some ⟨inputDenom, outputDenom, amount, receiver,
      o.config.slippagePercent, o.config.windowSeconds⟩ := by
    have fits := Amount.ofNat?_eq_some_iff.mpr (Word.toNat_eq_iff.mpr (rfl : Word.ofAmount amount = _))
    rw [whole]
    simp [request?, Abi.Value.ofAmount, registered, registered', fits]
  exact ⟨_, authority, sequence, _, settled, asked, allowed, left, settles, rfl⟩

theorem explains_swap (h : (o.swap c).Gives v done w) :
    ∃ token inputDenom amount, c.arguments[1]? = some (.address token) ∧
      c.arguments[3]? = some (.ofAmount amount) ∧ v.denomAt? token = some inputDenom ∧
      Movement.Explains ⟨⟨inputDenom, amount⟩, some c.origin,
        Denom.exit? o.config.port o.config.channel inputDenom⟩ o.evmDenom v done w ∧
      (c.origin = c.caller ∨
        v.SpentTransfer w c.time c.origin c.caller o.config.port o.config.channel
          o.config.swapContract inputDenom amount.toNat) := by
  obtain ⟨r, authority, sequence, u, settled, asked, allowed, left, settles, changes⟩ :=
    parts_of_swap h
  obtain ⟨input, output, named, -, stated, -, registered, -⟩ := exists_of_request? asked
  obtain ⟨-, cases⟩ := Ledger.authority_of_authorize allowed
  have moved := (Ledger.moved_of_transfer left).of_balance_eq (Ledger.balance_settle settles)
  refine ⟨input, r.inputDenom, r.amount, named, stated, registered, ⟨moved, ?_⟩, ?_⟩
  · exact changes.trans (changes_journal _)
  · rcases cases with ⟨own, -⟩ | ⟨-, grant, left, live, accepted, rfl⟩
    · exact .inl own.symm
    · exact .inr (Ledger.spent_of_settle_transfer live accepted settles)

end Outpost

end LedgerBridge
