import LedgerBridge.Proofs.Delegation
import LedgerBridge.Proofs.Keys
import LedgerBridge.Proofs.Operations
import LedgerBridge.Proofs.Spending
import LedgerBridge.Proofs.Traces

/-! Calls that have no account in common. Moving tokens and allowing others to move them looks at
nothing but the balances of the accounts that the call names, its caller included, and the grants
between them. So two such calls may be made in either order. -/
namespace LedgerBridge

/-- The balances of some accounts, and the grants among them. -/
def Area.among (accounts : List Address) : Area := fun bytes =>
  (∃ owner ∈ accounts, ∃ denom, (Key.balance owner denom).bytes = bytes) ∨
    ∃ granter ∈ accounts, ∃ grantee ∈ accounts, ∃ type,
      (Key.grant granter grantee type).bytes = bytes

theorem Area.ne_of_among {accounts others : List Address} (apart : ∀ a ∈ accounts, a ∉ others)
    {key other : Bytes} (inside : among accounts key) (outside : among others other) :
    key ≠ other := by
  rintro rfl
  rcases inside with ⟨owner, member, denom, rfl⟩ | ⟨granter, member, grantee, -, type, rfl⟩ <;>
    rcases outside with ⟨owner', member', denom', same⟩ | ⟨granter', member', _, -, type', same⟩
  · obtain ⟨rfl, -⟩ := Key.bytes_balance_inj.mp same
    exact apart _ member member'
  · exact absurd same (Key.bytes_ne_of_kind_ne nofun)
  · exact absurd same (Key.bytes_ne_of_kind_ne nofun)
  · obtain ⟨rfl, -⟩ := Key.bytes_grant_inj.mp same
    exact apart _ member member'

namespace Metered

/-- No run looks at or changes anything outside the area. -/
def StaysIn (area : Area) (x : Metered ε α) : Prop := ∀ v, ∀ a ∈ x.trace v, a.Within area

variable {area : Area} {x : Metered ε α}

theorem trace_bind (x : Metered ε α) (f : α → Metered ε β) (v : Contents) :
    (x >>= f).trace v =
      x.trace v ++ match x.evaluate v with
        | (.ok a, w) => (f a).trace w
        | (.error _, _) => [] := by
  induction x generalizing v with
  | done | fail => rfl
  | access a next ih => exact congrArg (a :: ·) (ih (a.answerIn v) (a.effectIn v))

theorem trace_mapError (f : ε → ε') (x : Metered ε α) (v : Contents) :
    (x.mapError f).trace v = x.trace v := by
  induction x generalizing v with
  | done | fail => rfl
  | access a next ih => exact congrArg (a :: ·) (ih (a.answerIn v) (a.effectIn v))

theorem staysIn_pure (a : α) : StaysIn area (pure a : Metered ε α) := fun _ => nofun

theorem staysIn_fail (e : ε) : StaysIn area (fail e : Metered ε α) := fun _ => nofun

theorem staysIn_liftM (e : Except ε α) : StaysIn area (liftM e : Metered ε α) := by
  cases e with
  | error e => exact staysIn_fail e
  | ok a => exact staysIn_pure a

/-- A single access. -/
theorem staysIn_access {a : Access} (within : a.Within area) :
    StaysIn area (access a done : Metered ε a.Answer) := by
  intro v b member
  cases List.mem_singleton.mp member
  exact within

/-- What comes second may build on what the first has found. -/
theorem StaysIn.bind_gives {f : α → Metered ε β} (first : StaysIn area x)
    (rest : ∀ v a w, x.Gives v a w → StaysIn area (f a)) : StaysIn area (x >>= f) := by
  intro v b member
  rw [trace_bind] at member
  rcases List.mem_append.mp member with early | late
  · exact first v b early
  · split at late
    · rename_i a w run
      exact rest v a w run w b late
    · cases late

theorem composes_staysIn : Composes fun {_} (x : Metered ε _) => StaysIn area x :=
  ⟨staysIn_pure, StaysIn.bind_gives⟩

theorem StaysIn.bind {f : α → Metered ε β} (first : StaysIn area x)
    (rest : ∀ a, StaysIn area (f a)) : StaysIn area (x >>= f) := composes_staysIn.bind first rest

theorem StaysIn.mapError (h : StaysIn area x) (f : ε → ε') : StaysIn area (x.mapError f) := by
  intro v
  rw [trace_mapError]
  exact h v

theorem StaysIn.discard (h : StaysIn area x) : StaysIn area (discard x) :=
  composes_staysIn.discard h

end Metered

open Metered

namespace Ledger

variable {area : Area}

theorem staysIn_read? {c : Codec α} {key : Key} (inside : area key.bytes) :
    StaysIn area (read? c key) := by
  refine (staysIn_access (a := .get key.bytes) inside).bind fun stored => ?_
  cases stored with
  | none => exact staysIn_pure _
  | some bs => exact (staysIn_liftM _).bind fun _ => staysIn_pure _

theorem staysIn_write {c : Codec α} {key : Key} {a : α} (inside : area key.bytes) :
    StaysIn area (write c key a) := by
  simp only [write]
  split
  · exact staysIn_access (a := .set key.bytes (c.encode a)) inside
  · exact staysIn_fail _

theorem staysIn_erase {key : Key} (inside : area key.bytes) : StaysIn area (erase key) :=
  staysIn_access (a := .erase key.bytes) inside

theorem staysIn_balance {owner : Address} {denom : String}
    (inside : area (Key.balance owner denom).bytes) : StaysIn area (balance owner denom) :=
  (staysIn_read? inside).bind fun _ => staysIn_pure _

theorem staysIn_setBalance {owner : Address} {denom : String} {n : Amount}
    (inside : area (Key.balance owner denom).bytes) : StaysIn area (setBalance owner denom n) := by
  simp only [setBalance]
  split
  · exact staysIn_erase inside
  · exact staysIn_write inside

theorem staysIn_funds {owner : Address} {coin : Coin}
    (inside : area (Key.balance owner coin.denom).bytes) : StaysIn area (funds owner coin) := by
  refine (staysIn_balance inside).bind fun available => ?_
  split
  · exact staysIn_fail _
  · exact staysIn_pure _

theorem staysIn_debit {owner : Address} {coin : Coin}
    (inside : area (Key.balance owner coin.denom).bytes) : StaysIn area (debit owner coin) :=
  (staysIn_funds inside).bind fun _ => staysIn_setBalance inside

theorem staysIn_credit {owner : Address} {coin : Coin}
    (inside : area (Key.balance owner coin.denom).bytes) : StaysIn area (credit owner coin) :=
  (staysIn_balance inside).bind fun _ => (staysIn_liftM _).bind fun _ => staysIn_setBalance inside

theorem staysIn_send {sender recipient : Address} {coins : List Coin}
    (payer : ∀ denom, area (Key.balance sender denom).bytes)
    (payee : ∀ denom, area (Key.balance recipient denom).bytes) :
    StaysIn area (send sender recipient coins) := by
  refine (staysIn_liftM _).bind fun _ => StaysIn.bind ?_ fun _ => ?_
  · exact composes_staysIn.forM fun coin _ => (staysIn_funds (payer coin.denom)).discard
  · apply composes_staysIn.forM
    intro coin _
    exact (staysIn_debit (payer coin.denom)).bind fun _ => staysIn_credit (payee coin.denom)

variable {time : UInt64} {granter grantee : Address}

theorem staysIn_grant? {type : String} (inside : area (Key.grant granter grantee type).bytes) :
    StaysIn area (grant? time granter grantee type) :=
  (staysIn_read? inside).bind fun _ => staysIn_pure _

theorem staysIn_saveGrant {g : Grant} (inside : ∀ type, area (Key.grant granter grantee type).bytes) :
    StaysIn area (saveGrant time granter grantee g) := by
  simp only [saveGrant]
  split
  · exact staysIn_fail _
  · exact staysIn_write (inside _)

theorem staysIn_removeGrant {type : String} (inside : area (Key.grant granter grantee type).bytes) :
    StaysIn area (removeGrant granter grantee type) := by
  refine (staysIn_access (a := .has (Key.grant granter grantee type).bytes) inside).bind
    fun present => ?_
  split
  · exact staysIn_erase inside
  · exact staysIn_fail _

theorem staysIn_authorize {m : Message} (inside : area (Key.grant granter grantee m.type).bytes) :
    StaysIn area (authorize time grantee granter m) := by
  simp only [authorize]
  split
  · exact staysIn_pure _
  · refine (staysIn_grant? inside).bind fun grant => ?_
    cases grant with
    | none => exact staysIn_fail _
    | some grant => exact (staysIn_liftM _).bind fun _ => staysIn_pure _

/-- Settling looks at the grant that the authority was found in, and at no other. -/
theorem staysIn_settle_of_authorize {m : Message} {authority : Authority} {v w : Contents}
    (allowed : (authorize time grantee granter m).Gives v authority w)
    (inside : ∀ type, area (Key.grant granter grantee type).bytes) :
    StaysIn area (settle time authority) := by
  obtain ⟨-, ⟨-, rfl⟩ | ⟨-, grant, left, -, -, rfl⟩⟩ := authority_of_authorize allowed
  · exact staysIn_pure _
  · cases left with
    | none => exact staysIn_removeGrant (inside _)
    | some authorization => exact staysIn_saveGrant inside

end Ledger

/-- The accounts among the arguments. -/
def Arguments.accounts (args : Arguments) : List Address :=
  args.filterMap fun
    | .address a => some a
    | _ => none

theorem Arguments.mem_accounts {args : Arguments} {index : Nat} {a : Address}
    (named : args[index]? = some (.address a)) : a ∈ args.accounts :=
  List.mem_filterMap.mpr ⟨_, List.mem_of_getElem? named, rfl⟩

/-- The caller, and the accounts that it names. -/
def Call.accounts (c : Call) : List Address := c.caller :: c.arguments.accounts

namespace TokenContract

/-- What those who hold tokens do with them. -/
def Operation.isOfHolders : Operation → Bool
  | transfer | transferFrom | approve | increaseAllowance | decreaseAllowance => true
  | _ => false

variable {t : TokenContract} {c : Call}

theorem staysIn_move {sender recipient : Address} {amount : Amount} (payer : sender ∈ c.accounts)
    (payee : recipient ∈ c.accounts) :
    StaysIn (.among c.accounts) (t.move c sender recipient amount) := by
  have caller : c.caller ∈ c.accounts := List.mem_cons_self
  have grant (type : String) :
      Area.among c.accounts (Key.grant sender c.caller type).bytes :=
    .inr ⟨sender, payer, c.caller, caller, type, rfl⟩
  refine (staysIn_liftM _).bind fun _ =>
    ((Ledger.staysIn_authorize (grant _)).mapError _).bind_gives ?_
  intro v authority w allowed
  refine ((Ledger.staysIn_send ?_ ?_).mapError _).bind fun _ =>
    StaysIn.bind (.mapError ?_ _) fun _ => staysIn_pure _
  · exact fun denom => .inl ⟨sender, payer, denom, rfl⟩
  · exact fun denom => .inl ⟨recipient, payee, denom, rfl⟩
  · exact Ledger.staysIn_settle_of_authorize (gives_mapError.mp allowed) grant

theorem staysIn_transfer : StaysIn (.among c.accounts) (t.transfer c) := by
  refine (staysIn_liftM _).bind fun _ => (staysIn_liftM _).bind_gives fun _ recipient _ read =>
    (staysIn_liftM _).bind fun _ => ?_
  have named := Arguments.address_eq_ok.mp (gives_liftM.mp read).1
  have payee : recipient ∈ c.accounts := List.mem_cons_of_mem _ (Arguments.mem_accounts named)
  exact (staysIn_move List.mem_cons_self payee).discard.bind fun _ => staysIn_pure _

theorem staysIn_transferFrom : StaysIn (.among c.accounts) (t.transferFrom c) := by
  refine (staysIn_liftM _).bind fun _ => (staysIn_liftM _).bind_gives fun _ sender _ read =>
    (staysIn_liftM _).bind_gives fun _ recipient _ read' => (staysIn_liftM _).bind fun _ => ?_
  have named := Arguments.address_eq_ok.mp (gives_liftM.mp read).1
  have named' := Arguments.address_eq_ok.mp (gives_liftM.mp read').1
  have payer : sender ∈ c.accounts := List.mem_cons_of_mem _ (Arguments.mem_accounts named)
  have payee : recipient ∈ c.accounts := List.mem_cons_of_mem _ (Arguments.mem_accounts named')
  exact (staysIn_move payer payee).bind fun _ => staysIn_pure _

theorem staysIn_storeAllowance {area : Area} {time : UInt64} {owner spender : Address}
    {existing : Option Grant} {amount : Amount}
    (inside : ∀ type, area (Key.grant owner spender type).bytes) :
    StaysIn area (t.storeAllowance time owner spender existing amount) := by
  simp only [storeAllowance]
  split
  · split
    · exact (Ledger.staysIn_removeGrant (inside _)).mapError _
    · exact (Ledger.staysIn_saveGrant inside).mapError _
  · exact staysIn_fail _
  · exact (Ledger.staysIn_saveGrant inside).mapError _

theorem staysIn_approve (change : AllowanceChange) :
    StaysIn (.among c.accounts) (t.approve change c) := by
  refine (staysIn_liftM _).bind fun _ => (staysIn_liftM _).bind_gives fun _ spender _ read =>
    (staysIn_liftM _).bind fun _ => ?_
  have named := Arguments.address_eq_ok.mp (gives_liftM.mp read).1
  have grant (type : String) : Area.among c.accounts (Key.grant c.caller spender type).bytes :=
    .inr ⟨c.caller, List.mem_cons_self, spender,
      List.mem_cons_of_mem _ (Arguments.mem_accounts named), type, rfl⟩
  split
  · exact staysIn_fail _
  · exact ((Ledger.staysIn_grant? (grant _)).mapError _).bind fun _ => (staysIn_liftM _).bind
      fun _ => (staysIn_storeAllowance grant).bind fun _ => staysIn_pure _

theorem staysIn_operate {op : Operation} (ofHolders : op.isOfHolders = true) :
    StaysIn (.among c.accounts) (t.operate op c) := by
  simp only [operate]
  split
  · cases op <;> simp only [enabledOperation]
    case transfer => exact staysIn_transfer
    case transferFrom => exact staysIn_transferFrom
    case approve => exact staysIn_approve _
    case increaseAllowance => exact staysIn_approve _
    case decreaseAllowance => exact staysIn_approve _
    all_goals cases ofHolders
  · exact staysIn_fail _

end TokenContract

namespace Request

/-- The call is one of a token contract's operations that holders make, with these arguments. -/
structure IsOfHolder (q : Request) (args : Arguments) : Prop where
  token : ∃ t, q.precompile = .token t
  method : ∃ m, TokenContract.table.find? q.frame.input = some m ∧ m.op.isOfHolders = true ∧
    Abi.decode m.inputs (q.frame.input.drop 4) = .ok args

variable {q : Request} {args : Arguments}

theorem staysIn_operation (h : q.IsOfHolder args) {x : Action Completed}
    (read : q.precompile.operation q.time q.frame q.origin q.readOnly = .ok x) :
    StaysIn (.among (q.frame.caller :: args.accounts)) x := by
  obtain ⟨⟨t, token⟩, m, found, ofHolders, decoded⟩ := h
  rw [token] at read
  obtain ⟨⟨m', args'⟩, arguments, rfl⟩ := map_eq_ok.mp read
  obtain ⟨found', -, -, decoded'⟩ := Precompile.decode_eq_ok.mp arguments
  cases found.symm.trans found'
  cases decoded.symm.trans decoded'
  exact t.staysIn_operate ofHolders

/-- Of two calls without a common account, either may come first. They leave the same store, and each
ends in the same way, at the same price, as if the other had not been made. -/
theorem call_comm {a b : Request} {args args' : Arguments} (first : a.IsOfHolder args)
    (second : b.IsOfHolder args')
    (apart : ∀ account ∈ a.frame.caller :: args.accounts,
      account ∉ b.frame.caller :: args'.accounts) (s : Store) :
    (b.call (a.call s).store).store = (a.call (b.call s).store).store ∧
      (a.call (b.call s).store).result = (a.call s).result ∧
      (a.call (b.call s).store).frame = (a.call s).frame ∧
      (b.call (a.call s).store).result = (b.call s).result ∧
      (b.call (a.call s).store).frame = (b.call s).frame := by
  have staysA := fun x read => staysIn_operation first (x := x) read s.view
  have staysB := fun x read => staysIn_operation second (x := x) read s.view
  -- What the one changes lies outside of what the other looks at.
  obtain ⟨m, insideB, aloneB, -⟩ := b.call_of_alikeOn staysB (Store.alikeOn_of_view_eq (s := s) rfl)
  have apartB : ∀ p ∈ m, ¬ Area.among (a.frame.caller :: args.accounts) p.1 :=
    fun p member inside => Area.ne_of_among apart inside (insideB p member) rfl
  obtain ⟨l, insideA, aloneA, afterB⟩ := a.call_of_alikeOn staysA (Store.alikeOn_changeAll apartB)
  have apartA : ∀ p ∈ l, ¬ Area.among (b.frame.caller :: args'.accounts) p.1 :=
    fun p member inside => Area.ne_of_among apart (insideA p member) inside rfl
  obtain ⟨m', insideB', againB, afterA⟩ := b.call_of_alikeOn staysB (Store.alikeOn_changeAll apartA)
  have storeA : (a.call s).store = s.changeAll l := congrArg CallResult.store aloneA
  have storeB : (b.call s).store = s.changeAll m := congrArg CallResult.store aloneB
  have storeB' : (b.call s).store = s.changeAll m' := congrArg CallResult.store againB
  refine ⟨?_, ?_, ?_, ?_, ?_⟩
  · calc (b.call (a.call s).store).store
        = (s.changeAll l).changeAll m' := by rw [storeA, afterA]
      _ = (s.changeAll m').changeAll l := s.changeAll_comm fun p member q other =>
          Area.ne_of_among apart (insideA p member) (insideB' q other)
      _ = (a.call (b.call s).store).store := by rw [← storeB', storeB, afterB]
  · rw [storeB]
    exact (congrArg CallResult.result aloneA).symm
  · rw [storeB]
    exact (congrArg CallResult.frame aloneA).symm
  · rw [storeA]
    exact (congrArg CallResult.result againB).symm
  · rw [storeA]
    exact (congrArg CallResult.frame againB).symm

/-- Another account lets a fourth one spend seven of another token. -/
def ofStranger : Request where
  precompile := .token ⟨TokenPair.ofDenom "uother" none, ⟨"uother", "Other", "OTHER", 6⟩,
    "abridge", TokenContract.defaultApprovalLifetime⟩
  time := 1700000000
  frame := ⟨⟨List.replicate 20 3, rfl⟩, [0x09, 0x5E, 0xA7, 0xB3] ++
    Abi.addressTopic ⟨List.replicate 20 4, rfl⟩ ++ List.replicate 31 0 ++ [7], 100000⟩
  origin := ⟨List.replicate 20 3, rfl⟩
  readOnly := false

/-- A grantee that takes its thirty, and a stranger that approves. -/
theorem call_comm_of_strangers :
    ∃ s, Config.granting.initialStore = .ok s ∧
      (∃ args args', ofGrantee.IsOfHolder args ∧ ofStranger.IsOfHolder args' ∧
        ∀ account ∈ ofGrantee.frame.caller :: args.accounts,
          account ∉ ofStranger.frame.caller :: args'.accounts) ∧
      (ofGrantee.call s).result.toOption.isSome ∧ (ofStranger.call s).result.toOption.isSome ∧
      (ofStranger.call (ofGrantee.call s).store).store =
        (ofGrantee.call (ofStranger.call s).store).store ∧
      (ofGrantee.call (ofStranger.call s).store).result = (ofGrantee.call s).result ∧
      (ofStranger.call (ofGrantee.call s).store).result = (ofStranger.call s).result := by
  let args : Arguments := [.address Config.granter, .address Config.grantee, .uint 30]
  let args' : Arguments := [.address ⟨List.replicate 20 4, rfl⟩, .uint 7]
  let m : Method TokenContract.Operation := ⟨.transferFrom, "transferFrom(address,address,uint256)",
    [.address, .address, .uint256], .transaction, 3000000⟩
  let m' : Method TokenContract.Operation := ⟨.approve, "approve(address,uint256)",
    [.address, .uint256], .transaction, 30956⟩
  have known : (Config.granting.initialStore.toOption.any fun s =>
        (ofGrantee.call s).result.toOption.isSome && (ofStranger.call s).result.toOption.isSome &&
          TokenContract.table.find? ofGrantee.frame.input == some m &&
          TokenContract.table.find? ofStranger.frame.input == some m') = true := by decide +kernel
  have apart : ∀ account ∈ ofGrantee.frame.caller :: args.accounts,
      account ∉ ofStranger.frame.caller :: args'.accounts := by
    intro account member
    have one : account = Config.grantee ∨ account = Config.granter := by
      simpa [args, Arguments.accounts, ofGrantee, or_comm] using member
    rcases one with rfl | rfl <;> decide +kernel
  obtain ⟨s, started, known⟩ := exists_of_any_toOption known
  simp only [Bool.and_eq_true, beq_iff_eq] at known
  obtain ⟨⟨⟨succeeds, succeeds'⟩, found⟩, found'⟩ := known
  have first : ofGrantee.IsOfHolder args := ⟨⟨_, rfl⟩, m, found, rfl, by decide +kernel⟩
  have second : ofStranger.IsOfHolder args' := ⟨⟨_, rfl⟩, m', found', rfl, by decide +kernel⟩
  obtain ⟨store, result, -, result', -⟩ := call_comm first second apart s
  exact ⟨s, started, ⟨args, args', first, second, apart⟩, succeeds, succeeds', store, result, result'⟩

end Request

end LedgerBridge
