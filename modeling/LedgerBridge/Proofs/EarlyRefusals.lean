import LedgerBridge.Proofs.Failures
import LedgerBridge.Proofs.Spending

/-! Refusals that are decided before the ledger is looked at. What is wrong with the input of a call,
and that only the owner of a pair may mint and burn, is found by checks that come before the first
access; from there on nothing refuses in such a way. -/
namespace LedgerBridge

namespace Refusal

/-- Something is wrong with the input, or the caller is not the owner of the pair. -/
def IsEarly (why : Refusal) : Prop :=
  why.errorClass = .argument ∨ why.errorClass = .dispatch ∨
    why = .unauthorized "minter is not the owner" ∨ why = .unauthorized "burner is not the owner"

theorem not_isEarly_invalid (reason : String) : ¬ (invalid reason).IsEarly := by
  rintro (h | h | h | h) <;> cases h

theorem Starts.not_isEarly {starts : List String} {why : Refusal} (h : why.Starts starts) :
    ¬ why.IsEarly := by
  obtain ⟨_, -, reason, rfl, -⟩ := h
  exact not_isEarly_invalid reason

theorem not_isEarly_ledger (reason : String) : ¬ (ledger reason).IsEarly := by
  rintro (h | h | h | h) <;> cases h

/-- The early reasons are told from others by how they begin. -/
theorem not_isEarly_unauthorized {start reason : String} (begins : Begins start reason)
    (apart : ¬ Begins start "minter is not the owner" ∧ ¬ Begins start "burner is not the owner") :
    ¬ (unauthorized reason).IsEarly := by
  rintro (h | h | h | h)
  · cases h
  · cases h
  · cases h
    exact apart.1 begins
  · cases h
    exact apart.2 begins

theorem not_isEarly_ofLedger (e : LedgerError) : ¬ (ofLedger e).IsEarly := by
  cases e with
  | noAuthorization => exact not_isEarly_unauthorized (.refl _) (by decide)
  | limitExceeded requested limit =>
    have begins := Begins.refl "requested amount is more than spend limit: "
    exact not_isEarly_unauthorized (((begins.append _).append _).append _) (by decide)
  | unauthorized reason =>
    exact not_isEarly_unauthorized ((Begins.refl "unauthorized: ").append _) (by decide)
  | invalidCoins | invalidAddress | invalidMessage => exact not_isEarly_invalid _
  | insufficientFunds | channelNotFound | balanceOverflow | storage => exact not_isEarly_ledger _

theorem not_isEarly_ofTokenLedger (e : LedgerError) : ¬ (ofTokenLedger e).IsEarly := by
  unfold ofTokenLedger
  split
  · exact not_isEarly_ledger _
  · exact not_isEarly_unauthorized (.refl _) (by decide)
  · exact not_isEarly_unauthorized (.refl _) (by decide)
  · exact not_isEarly_ofLedger _

end Refusal

open Metered

theorem Outpost.not_isEarly_missingGrant (caller origin : Address) (e : LedgerError) :
    ¬ (missingGrant caller origin e).IsEarly := by
  unfold missingGrant
  split
  · have begins := Begins.refl "authorization to "
    exact Refusal.not_isEarly_unauthorized ((((begins.append _).append _).append _).append _)
      (by decide)
  · exact Refusal.not_isEarly_ofLedger _

namespace Action

variable {x : Action α}

/-- No run refuses early. -/
abbrev RefusesLate (x : Action α) : Prop := Excludes Refusal.IsEarly x

theorem refusesLate_check {f : ε → Refusal} (h : ∀ e, ¬ (f e).IsEarly) (e : Except ε α) :
    RefusesLate (liftM (e.mapError f)) := by
  cases e with
  | ok a => exact excludes_pure a
  | error e => exact excludes_fail (h e)

theorem refusesLate_mapError {f : ε → Refusal} (h : ∀ e, ¬ (f e).IsEarly) (x : Metered ε α) :
    RefusesLate (x.mapError f) :=
  excludes_mapError fun e early => absurd early (h e)

theorem refusesLate_ofLedger (x : Ledger α) : RefusesLate (ofLedger x) :=
  refusesLate_mapError Refusal.not_isEarly_ofLedger x

theorem refusesLate_ofTokenLedger (x : Ledger α) : RefusesLate (ofTokenLedger x) :=
  refusesLate_mapError Refusal.not_isEarly_ofTokenLedger x

/-- What is done at some time either fails at once and for a reason that does not depend on the time, or
does not refuse early. -/
def DecidesEarly (x : UInt64 → Action α) : Prop :=
  (∃ why, ∀ time, x time = fail why) ∨ ∀ time, RefusesLate (x time)

theorem DecidesEarly.check {x : UInt64 → β → Action α} (e : Except Refusal β)
    (rest : ∀ b, DecidesEarly fun time => x time b) :
    DecidesEarly fun time => liftM e >>= x time := by
  cases e with
  | error why => exact .inl ⟨why, fun _ => rfl⟩
  | ok b => exact rest b

end Action

namespace TokenContract

open LedgerBridge.Action

variable {t : TokenContract} {c : Call}

theorem refusesLate_move (sender recipient : Address) (amount : Amount) :
    RefusesLate (t.move c sender recipient amount) := by
  apply (refusesLate_check Refusal.not_isEarly_ofLedger _).bind
  intro _
  apply (refusesLate_ofTokenLedger _).bind
  intro authority
  apply (refusesLate_ofTokenLedger _).bind
  intro _
  exact (refusesLate_ofLedger _).bind fun _ => excludes_pure authority

theorem decidesEarly_transfer : DecidesEarly fun time => t.transfer { c with time } := by
  simp only [transfer]
  refine .check _ fun _ => .check _ fun recipient => .check _ fun amount => .inr fun time => ?_
  exact (refusesLate_move _ _ _).discard.bind fun _ => excludes_pure _

theorem decidesEarly_transferFrom : DecidesEarly fun time => t.transferFrom { c with time } := by
  simp only [transferFrom]
  refine .check _ fun _ => .check _ fun sender => .check _ fun recipient => .check _ fun amount =>
    .inr fun time => ?_
  exact (refusesLate_move _ _ _).bind fun _ => excludes_pure _

theorem refusesLate_storeAllowance (time : UInt64) (owner spender : Address)
    (existing : Option Grant) (amount : Amount) :
    RefusesLate (t.storeAllowance time owner spender existing amount) := by
  unfold storeAllowance
  split
  · split <;> exact refusesLate_ofLedger _
  · exact excludes_fail (Refusal.not_isEarly_invalid _)
  · exact refusesLate_ofLedger _

theorem decidesEarly_approve (change : AllowanceChange) :
    DecidesEarly fun time => t.approve change { c with time } := by
  simp only [approve]
  refine .check _ fun _ => .check _ fun spender => .check _ fun amount => .inr fun time => ?_
  split
  · exact excludes_fail (Refusal.not_isEarly_invalid _)
  · apply (refusesLate_ofLedger _).bind
    intro existing
    apply (excludes_liftM ((change.failsOnly_next _ _ _).mono fun _ => Refusal.Starts.not_isEarly)).bind
    intro next
    exact (refusesLate_storeAllowance _ _ _ _ _).bind fun _ => excludes_pure _

theorem decidesEarly_mint : DecidesEarly fun time => t.mint { c with time } := by
  simp only [mint]
  refine .check _ fun _ => .check _ fun recipient => .check _ fun amount => .check _ fun _ =>
    .check _ fun _ => .inr fun time => ?_
  apply (refusesLate_ofLedger _).bind
  intro _
  exact (refusesLate_ofLedger _).bind fun _ => excludes_pure _

theorem decidesEarly_burn : DecidesEarly fun time => t.burn { c with time } := by
  simp only [burn]
  refine .check _ fun _ => .check _ fun amount => .check _ fun _ => .check _ fun _ =>
    .inr fun time => ?_
  apply (refusesLate_ofTokenLedger _).bind
  intro _
  exact (refusesLate_ofLedger _).bind fun _ => excludes_pure _

theorem decidesEarly_describe (part : Metadata → Abi.Value) :
    DecidesEarly fun time => t.describe part { c with time } := by
  simp only [describe]
  exact .check _ fun _ => .inr fun _ => (refusesLate_ofLedger _).bind fun _ => excludes_pure _

theorem decidesEarly_totalSupply : DecidesEarly fun time => t.totalSupply { c with time } := by
  simp only [totalSupply]
  exact .check _ fun _ => .inr fun _ => (refusesLate_ofLedger _).bind fun _ => excludes_pure _

theorem decidesEarly_balanceOf : DecidesEarly fun time => t.balanceOf { c with time } := by
  simp only [balanceOf]
  exact .check _ fun _ => .check _ fun owner => .inr fun _ =>
    (refusesLate_ofLedger _).bind fun _ => excludes_pure _

theorem decidesEarly_allowance : DecidesEarly fun time => t.allowance { c with time } := by
  simp only [allowance]
  exact .check _ fun _ => .check _ fun owner => .check _ fun spender => .inr fun _ =>
    (refusesLate_ofLedger _).bind fun _ => excludes_pure _

theorem decidesEarly_operate (op : Operation) :
    DecidesEarly fun time => t.operate op { c with time } := by
  simp only [operate]
  split
  · cases op <;> simp only [enabledOperation]
    case transfer => exact decidesEarly_transfer
    case transferFrom => exact decidesEarly_transferFrom
    case approve | increaseAllowance | decreaseAllowance => exact decidesEarly_approve _
    case mint => exact decidesEarly_mint
    case burn => exact decidesEarly_burn
    case name | symbol | decimals => exact decidesEarly_describe _
    case totalSupply => exact decidesEarly_totalSupply
    case balanceOf => exact decidesEarly_balanceOf
    case allowance => exact decidesEarly_allowance
  · exact .inl ⟨_, fun _ => rfl⟩

end TokenContract

namespace Outpost

open LedgerBridge.Action

variable {o : Outpost} {c : Call}

theorem refusesLate_denomAt (token : Address) : RefusesLate (denomAt token) := by
  apply (refusesLate_ofLedger _).bind
  intro pair
  cases pair with
  | none => exact excludes_fail (Refusal.not_isEarly_invalid _)
  | some pair => exact excludes_pure _

theorem decidesEarly_swap : DecidesEarly fun time => o.swap { c with time } := by
  simp only [swap]
  refine .check _ fun _ => .check _ fun sender => .check _ fun input => .check _ fun output =>
    .check _ fun amount => .check _ fun receiver => .inr fun time => ?_
  apply (refusesLate_denomAt _).bind
  intro inputDenom
  apply (refusesLate_denomAt _).bind
  intro outputDenom
  apply (refusesLate_ofLedger _).bind
  intro bondDenom
  apply (excludes_liftM ((failsOnly_check _ _).mono fun _ => Refusal.Starts.not_isEarly)).bind
  intro _
  apply (excludes_liftM
    ((failsOnly_effectiveSender _ _ _).mono fun _ => Refusal.Starts.not_isEarly)).bind
  intro sender
  apply (refusesLate_check Refusal.not_isEarly_ofLedger _).bind
  intro _
  apply (refusesLate_mapError (not_isEarly_missingGrant _ _) _).bind
  intro authority
  apply (refusesLate_ofLedger _).discard.bind
  intro _
  exact (refusesLate_ofLedger _).bind fun _ => excludes_pure _

end Outpost

namespace Precompile

open LedgerBridge.Action

variable {p : Precompile} {time : UInt64} {s : Store} {f : Frame} {origin : Address}
  {readOnly : Bool}

/-- Whatever the time, a call has no operation, or one that decides early. -/
theorem operation_decides (p : Precompile) (f : Frame) (origin : Address) (readOnly : Bool) :
    (∃ e, ∀ time, p.operation time f origin readOnly = .error e) ∨
      ∃ x : UInt64 → Action Completed, DecidesEarly x ∧
        ∀ time, p.operation time f origin readOnly = .ok (x time) := by
  cases p with
  | token t =>
    cases read : decode TokenContract.table f readOnly with
    | error e => exact .inl ⟨e, fun _ => by simp [operation, read]⟩
    | ok call =>
      obtain ⟨m, args⟩ := call
      exact .inr ⟨_, t.decidesEarly_operate (c := ⟨f.caller, origin, t.pair.address, 0, args⟩) m.op,
        fun time => by simp [operation, read, address]⟩
  | outpost o =>
    cases read : decode Outpost.table f readOnly with
    | error e => exact .inl ⟨e, fun _ => by simp [operation, read]⟩
    | ok call =>
      obtain ⟨m, args⟩ := call
      exact .inr ⟨_, o.decidesEarly_swap (c := ⟨f.caller, origin, Outpost.address, 0, args⟩),
        fun time => by simp [operation, read, address, Outpost.operate]⟩

theorem run_of_fail {why : Refusal} (h : p.operation time f origin readOnly = .ok (.fail why)) :
    p.run time s f origin readOnly = ⟨.error (.refused why), s, f⟩ := by
  rw [run_eq, h]
  exact execute_of_failed (Nat.zero_le _) rfl

theorem result_ne_of_refusesLate {x : Action Completed} {why : Refusal}
    (h : p.operation time f origin readOnly = .ok x) (late : RefusesLate x) (early : why.IsEarly) :
    (p.run time s f origin readOnly).result ≠ .error (.refused why) := by
  intro refused
  rcases operation_of_refused refused with unread | ⟨y, read, failed⟩
  · cases h.symm.trans unread
  · cases h.symm.trans read
    exact late why early _ trivial failed

/-- Whether a call is refused early is the same in all ledgers and at all times, and so is the reason.
A call that is refused so has no operation, or one that fails without any access, and it leaves the
store and the frame as they were. -/
theorem run_refuses_early (p : Precompile) (f : Frame) (origin : Address) (readOnly : Bool)
    {why : Refusal} (early : why.IsEarly) (time time' : UInt64) (s s' : Store) :
    ((p.run time s f origin readOnly).result = .error (.refused why) ↔
      (p.run time' s' f origin readOnly).result = .error (.refused why)) ∧
    ((p.run time s f origin readOnly).result = .error (.refused why) →
      p.run time s f origin readOnly = ⟨.error (.refused why), s, f⟩ ∧
      ∀ x, p.operation time f origin readOnly = .ok x →
        x = .fail why ∧ (x.run s.branch f.meter).meter = f.meter) := by
  rcases operation_decides p f origin readOnly with ⟨e, unread⟩ | ⟨x, decides, read⟩
  · simp only [run_eq, unread]
    refine ⟨trivial, fun refused => ⟨?_, fun x read => ?_⟩⟩
    · cases refused
      rfl
    · cases read
  · rcases decides with ⟨reason, fails⟩ | late
    · have run (time : UInt64) (s : Store) :
          p.run time s f origin readOnly = ⟨.error (.refused reason), s, f⟩ :=
        run_of_fail (by rw [read, fails])
      rw [run, run]
      refine ⟨Iff.rfl, fun refused => ?_⟩
      cases refused
      refine ⟨rfl, fun y made => ?_⟩
      cases made.symm.trans (read time)
      exact ⟨fails time, by rw [fails]; rfl⟩
    · have never (time : UInt64) (s : Store) := result_ne_of_refusesLate (s := s) (read time) (late time) early
      exact ⟨iff_of_false (never time s) (never time' s'), fun refused => absurd refused (never time s)⟩

end Precompile

namespace Request

/-- Someone who does not own the pair mints thirty. -/
def byStranger : Request where
  precompile := .token Config.granted
  time := 1700000000
  frame := ⟨Config.grantee, TokenContract.Operation.selector .mint ++
    (Abi.addressTopic Config.grantee ++ (List.replicate 31 0 ++ [30])), 3000000⟩
  origin := Config.grantee
  readOnly := false

theorem decode_byStranger :
    Precompile.decode TokenContract.table byStranger.frame false =
      .ok (⟨.mint, "mint(address,uint256)", [.address, .uint256], .transaction, 3000000⟩,
        [.address Config.grantee, .uint 30]) :=
  Precompile.decode_eq_ok.mpr
    ⟨TokenContract.find?_selector_append (m := ⟨.mint, _, _, _, _⟩) (by decide) _, by simp,
      Nat.le_refl _, by decide +kernel⟩

theorem call_byStranger (time : UInt64) (s : Store) : { byStranger with time }.call s =
    Precompile.execute (Config.granted.operate .mint ⟨Config.grantee, Config.grantee,
      .ofToken "ubridge", time, [.address Config.grantee, .uint 30]⟩) s byStranger.frame :=
  Precompile.run_token decode_byStranger time s byStranger.origin

/-- What the stranger is told in an empty ledger at the beginning of time, it is told in a ledger with
grants long after. -/
theorem run_refuses_early_of_stranger :
    ∃ s why, why = Refusal.unauthorized "minter is not the owner" ∧ why.IsEarly ∧
      Config.granting.initialStore = .ok s ∧
      ({ byStranger with time := 0 }.call ∅).result = .error (.refused why) ∧
      byStranger.call s = ⟨.error (.refused why), s, byStranger.frame⟩ := by
  have early : (Refusal.unauthorized "minter is not the owner").IsEarly := .inr (.inr (.inl rfl))
  have told : ({ byStranger with time := 0 }.call ∅).result =
      .error (.refused (.unauthorized "minter is not the owner")) := by
    rw [call_byStranger]
    decide +kernel
  have known : Config.granting.initialStore.toOption.isSome = true := by decide +kernel
  obtain ⟨s, ended⟩ := Option.isSome_iff_exists.mp known
  have decided := Precompile.run_refuses_early byStranger.precompile byStranger.frame
    byStranger.origin false early
  have refused := (decided 0 byStranger.time ∅ s).1.mp told
  exact ⟨s, _, rfl, early, toOption_eq_some.mp ended, told,
    ((decided byStranger.time 0 s ∅).2 refused).1⟩

end Request

end LedgerBridge
