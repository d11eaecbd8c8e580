import LedgerBridge.Proofs.Frames
import LedgerBridge.Proofs.Operations
import LedgerBridge.Proofs.Settlement

/-! Which records the operations of contracts may change. A token contract keeps to balances and the
supply of its denomination and to one grant, which is between the caller and an account that the call
names; an outpost leaves the grants of tokens alone. -/
namespace LedgerBridge

open Metered

namespace TokenContract

/-- A call is about what the spender may move of the owner's. -/
def Operation.concerns (op : Operation) (caller : Address) (args : Arguments)
    (owner spender : Address) : Bool :=
  match op with
  | .transferFrom => spender = caller ∧ args[0]? = some (.address owner)
  | .approve | .increaseAllowance | .decreaseAllowance =>
    owner = caller ∧ args[0]? = some (.address spender)
  | _ => false

/-- The records that an operation may change. -/
def mayChange (t : TokenContract) (op : Operation) (c : Call) : Key → Prop
  | .balance _ denom => denom = t.denom
  | .supply denom => denom = t.denom
  | .grant owner spender type =>
    type = Message.sendType ∧ op.concerns c.caller c.arguments owner spender
  | _ => False

variable {area : Key → Prop} {t : TokenContract} {c : Call}

theorem changesWithin_move {sender recipient : Address} {amount : Amount}
    (balance : ∀ owner, area (.balance owner t.denom))
    (grant : area (.grant sender c.caller Message.sendType) ∨ sender = c.caller) :
    ChangesWithin area (t.move c sender recipient amount) := by
  refine (changesWithin_liftM _).bind fun _ =>
    ((Ledger.reads_authorize _ _ _ _).mapError _).changesWithin.bind_gives ?_
  intro v authority w allowed
  refine ((Ledger.changesWithin_send ?_).mapError _).bind fun _ =>
    ChangesWithin.bind (.mapError ?_ _) fun _ => changesWithin_pure _
  · exact List.forall_mem_singleton.mpr ⟨balance sender, balance recipient⟩
  · exact Ledger.changesWithin_settle_of_authorize (gives_mapError.mp allowed)
      fun another => grant.resolve_right (Ne.symm another)

theorem changesWithin_transfer (balance : ∀ owner, area (.balance owner t.denom)) :
    ChangesWithin area (t.transfer c) :=
  (changesWithin_liftM _).bind fun _ => (changesWithin_liftM _).bind fun _ =>
    (changesWithin_liftM _).bind fun _ =>
      (changesWithin_move balance (.inr rfl)).discard.bind fun _ => changesWithin_pure _

theorem changesWithin_transferFrom (balance : ∀ owner, area (.balance owner t.denom))
    (grant : ∀ sender, c.arguments[0]? = some (.address sender) →
      area (.grant sender c.caller Message.sendType)) :
    ChangesWithin area (t.transferFrom c) := by
  refine (changesWithin_liftM _).bind fun _ => (changesWithin_liftM _).bind_gives ?_
  intro v sender w read
  have named := Arguments.address_eq_ok.mp (gives_liftM.mp read).1
  exact (changesWithin_liftM _).bind fun _ => (changesWithin_liftM _).bind fun _ =>
    (changesWithin_move balance (.inl (grant sender named))).bind fun _ => changesWithin_pure _

theorem changesWithin_storeAllowance {time : UInt64} {owner spender : Address}
    {existing : Option Grant} {amount : Amount}
    (grant : area (.grant owner spender Message.sendType)) :
    ChangesWithin area (t.storeAllowance time owner spender existing amount) := by
  simp only [storeAllowance]
  split
  · split
    · exact (Ledger.changesWithin_removeGrant grant).mapError _
    · exact (Ledger.changesWithin_saveGrant grant).mapError _
  · exact changesWithin_fail _
  · exact (Ledger.changesWithin_saveGrant grant).mapError _

theorem changesWithin_approve {change : AllowanceChange}
    (grant : ∀ spender, c.arguments[0]? = some (.address spender) →
      area (.grant c.caller spender Message.sendType)) :
    ChangesWithin area (t.approve change c) := by
  refine (changesWithin_liftM _).bind fun _ => (changesWithin_liftM _).bind_gives ?_
  intro v spender w read
  have named := Arguments.address_eq_ok.mp (gives_liftM.mp read).1
  refine (changesWithin_liftM _).bind fun _ => ?_
  split
  · exact changesWithin_fail _
  · exact ((Ledger.reads_grant? _ _ _ _).mapError _).changesWithin.bind fun _ =>
      (changesWithin_liftM _).bind fun _ =>
        (changesWithin_storeAllowance (grant spender named)).bind fun _ => changesWithin_pure _

theorem changesWithin_mint (balance : ∀ owner, area (.balance owner t.denom))
    (supply : area (.supply t.denom)) : ChangesWithin area (t.mint c) := by
  refine (changesWithin_liftM _).bind fun _ => (changesWithin_liftM _).bind fun recipient =>
    (changesWithin_liftM _).bind fun amount => (changesWithin_liftM _).bind fun _ =>
      (changesWithin_liftM _).bind fun _ => ChangesWithin.bind (.mapError ?_ _) fun _ =>
        ChangesWithin.bind (.mapError ?_ _) fun _ => changesWithin_pure _
  · exact Ledger.changesWithin_mint (List.forall_mem_singleton.mpr ⟨balance _, supply⟩)
  · exact Ledger.changesWithin_send (List.forall_mem_singleton.mpr ⟨balance _, balance _⟩)

theorem changesWithin_burn (balance : ∀ owner, area (.balance owner t.denom))
    (supply : area (.supply t.denom)) : ChangesWithin area (t.burn c) := by
  refine (changesWithin_liftM _).bind fun _ => (changesWithin_liftM _).bind fun amount =>
    (changesWithin_liftM _).bind fun _ => (changesWithin_liftM _).bind fun _ =>
      ChangesWithin.bind (.mapError ?_ _) fun _ => ChangesWithin.bind (.mapError ?_ _) fun _ =>
        changesWithin_pure _
  · exact Ledger.changesWithin_send (List.forall_mem_singleton.mpr ⟨balance _, balance _⟩)
  · exact Ledger.changesWithin_burn (List.forall_mem_singleton.mpr ⟨balance _, supply⟩)

theorem reads_describe (part : Metadata → Abi.Value) : Reads (t.describe part c) :=
  (reads_liftM _).bind fun _ => ((Ledger.reads_read? _ _).mapError _).bind fun _ => reads_pure _

theorem reads_totalSupply : Reads (t.totalSupply c) :=
  (reads_liftM _).bind fun _ => ((Ledger.reads_supply _).mapError _).bind fun _ => reads_pure _

theorem reads_balanceOf : Reads (t.balanceOf c) :=
  (reads_liftM _).bind fun _ => (reads_liftM _).bind fun _ =>
    ((Ledger.reads_balance _ _).mapError _).bind fun _ => reads_pure _

theorem reads_allowance : Reads (t.allowance c) :=
  (reads_liftM _).bind fun _ => (reads_liftM _).bind fun _ => (reads_liftM _).bind fun _ =>
    ((Ledger.reads_allowance _ _ _ _).mapError _).bind fun _ => reads_pure _

theorem changesWithin_operate (t : TokenContract) (op : Operation) (c : Call) :
    ChangesWithin (t.mayChange op c) (t.operate op c) := by
  simp only [operate]
  split
  · have balance (owner : Address) : t.mayChange op c (.balance owner t.denom) := rfl
    have supply : t.mayChange op c (.supply t.denom) := rfl
    cases op <;> simp only [enabledOperation]
    case transfer => exact changesWithin_transfer balance
    case transferFrom =>
      exact changesWithin_transferFrom balance fun sender named =>
        ⟨rfl, by simp [Operation.concerns, named]⟩
    case approve =>
      exact changesWithin_approve fun spender named => ⟨rfl, by simp [Operation.concerns, named]⟩
    case increaseAllowance =>
      exact changesWithin_approve fun spender named => ⟨rfl, by simp [Operation.concerns, named]⟩
    case decreaseAllowance =>
      exact changesWithin_approve fun spender named => ⟨rfl, by simp [Operation.concerns, named]⟩
    case mint => exact changesWithin_mint balance supply
    case burn => exact changesWithin_burn balance supply
    case name => exact (reads_describe _).changesWithin
    case symbol => exact (reads_describe _).changesWithin
    case decimals => exact (reads_describe _).changesWithin
    case totalSupply => exact reads_totalSupply.changesWithin
    case balanceOf => exact reads_balanceOf.changesWithin
    case allowance => exact reads_allowance.changesWithin
  · exact changesWithin_fail _

end TokenContract

namespace Outpost

/-- The records that a swap may change. -/
def mayChange (o : Outpost) (c : Call) : Key → Prop
  | .balance _ _ => True
  | .supply _ => True
  | .grant granter grantee type =>
    granter = c.origin ∧ grantee = c.caller ∧ type = Message.transferType
  | .sequence port channel => port = o.config.port ∧ channel = o.config.channel
  | .packet port channel _ => port = o.config.port ∧ channel = o.config.channel
  | _ => False

theorem changesWithin_swap (o : Outpost) (c : Call) : ChangesWithin (o.mayChange c) (o.swap c) := by
  refine (changesWithin_liftM _).bind fun _ => (changesWithin_liftM _).bind fun sender =>
    (changesWithin_liftM _).bind fun input => (changesWithin_liftM _).bind fun output =>
      (changesWithin_liftM _).bind fun amount => (changesWithin_liftM _).bind fun receiver =>
        (reads_denomAt input).changesWithin.bind fun inputDenom =>
          (reads_denomAt output).changesWithin.bind fun outputDenom =>
            (Ledger.reads_bondDenom.mapError _).changesWithin.bind fun bondDenom =>
              (changesWithin_liftM _).bind fun _ => (changesWithin_liftM _).bind_gives ?_
  intro _ effective _ substituted
  obtain ⟨-, rfl⟩ := effectiveSender_eq_ok.mp (gives_liftM.mp substituted).1
  refine (changesWithin_liftM _).bind fun _ =>
    ((Ledger.reads_authorize _ _ _ _).mapError _).changesWithin.bind_gives ?_
  intro v authority w allowed
  refine (((Ledger.changesWithin_transfer ?_ ?_ ?_ ?_).mapError _).discard).bind fun _ =>
    ChangesWithin.bind (.mapError ?_ _) fun _ => changesWithin_pure _
  · exact fun _ => trivial
  · trivial
  · exact fun _ => ⟨rfl, rfl⟩
  · exact ⟨rfl, rfl⟩
  · exact Ledger.changesWithin_settle_of_authorize (gives_mapError.mp allowed)
      fun _ => ⟨rfl, rfl, rfl⟩

end Outpost

/-- Whatever a call may change, it leaves no grant that is none. -/
theorem Precompile.changedWithin_run (p : Precompile) (time : UInt64) (s : Store) (f : Frame)
    (origin : Address) (readOnly : Bool) :
    s.contents.ChangedWithin (fun _ => True) (p.run time s f origin readOnly).store.contents := by
  cases ended : (p.run time s f origin readOnly).result with
  | error e =>
    rw [store_of_run_error ended]
    exact .same
  | ok out =>
    obtain ⟨x, operation, gives⟩ := gives_of_run ended
    cases p with
    | token t =>
      obtain ⟨⟨m, args⟩, -, rfl⟩ := map_eq_ok.mp operation
      exact ((t.changesWithin_operate _ _).of_gives gives).mono fun _ _ => trivial
    | outpost o =>
      obtain ⟨⟨⟨op, signature, inputs, kind, gas⟩, args⟩, -, rfl⟩ := map_eq_ok.mp operation
      cases op
      exact ((o.changesWithin_swap _).of_gives gives).mono fun _ _ => trivial

end LedgerBridge
