import LedgerBridge.Proofs.Genesis
import LedgerBridge.Proofs.GrantForms
import LedgerBridge.Proofs.Spending

/-! The grants that a chain stores. Whatever is called, they stay formed and stay grants for the type of
message that they are stored for; so no call ever comes across a grant of another type. -/
namespace LedgerBridge

namespace Contents

/-- Under the key of a grant stands a grant for messages of that type, and its limits are formed. -/
def GrantsFormed (v : Contents) : Prop :=
  ∀ granter grantee type bs, v.get? (Key.grant granter grantee type).bytes = some bs →
    ∃ g, Grant.codec.decodeAll bs = .ok g ∧ g.authorization.messageType = type ∧
      g.authorization.Formed

variable {v : Contents} {granter grantee : Address} {type : String} {g : Grant}

theorem grantsFormed_empty : GrantsFormed ∅ := fun _ _ _ _ => nofun

theorem GrantsFormed.of_grant? (h : v.GrantsFormed)
    (found : v.grant? granter grantee type = some g) :
    g.authorization.messageType = type ∧ g.authorization.Formed := by
  obtain ⟨bs, stored, decoded⟩ := Option.bind_eq_some_iff.mp found
  obtain ⟨g', read, formed⟩ := h granter grantee type bs stored
  cases (toOption_eq_some.mp decoded).symm.trans read
  exact formed

theorem GrantsFormed.put_aside (h : v.GrantsFormed) {key : Key} (aside : key.kind ≠ .grant)
    (change : Option Bytes) : GrantsFormed (Changes.put v key.bytes change) := by
  intro granter grantee type bs found
  rw [Changes.get?_put, if_neg (Key.bytes_ne_of_kind_ne aside)] at found
  exact h granter grantee type bs found

theorem GrantsFormed.put_none (h : v.GrantsFormed) (key : Bytes) :
    GrantsFormed (Changes.put v key none) := by
  intro granter grantee type bs found
  rw [Changes.get?_put] at found
  split at found
  · cases found
  · exact h granter grantee type bs found

theorem GrantsFormed.put_grant (h : v.GrantsFormed) (fits : g.authorization.Fits)
    (formed : g.authorization.Formed) :
    GrantsFormed (Changes.put v (Key.grant granter grantee g.authorization.messageType).bytes
      (some (Grant.codec.encode g))) := by
  intro owner spender type bs found
  rw [Changes.get?_put] at found
  split at found
  · rename_i same
    obtain ⟨rfl, rfl, rfl⟩ := Key.bytes_grant_inj.mp same
    cases found
    exact ⟨g, Grant.lawful_codec.decodeAll_encode fits, rfl, formed⟩
  · exact h owner spender type bs found

end Contents

namespace Metered

/-- Grants that are formed stay so, and no run that starts with such grants fails in one of these ways. -/
structure Upholds (bad : ε → Prop) (x : Metered ε α) : Prop where
  keeps : Keeps Contents.GrantsFormed x
  avoids : ∀ e, bad e → Avoids Contents.GrantsFormed e x

variable {bad : ε → Prop} {x : Metered ε α}

theorem Reads.upholds (reads : Reads x) (excludes : Excludes bad x) : Upholds bad x where
  keeps := reads.keeps
  avoids e wrong := (excludes e wrong).mono fun _ _ => trivial

theorem Succeeds.upholds (succeeds : Succeeds x) (keeps : Keeps Contents.GrantsFormed x) :
    Upholds bad x := ⟨keeps, fun _ _ => succeeds.avoids⟩

theorem upholds_pure (a : α) : Upholds bad (pure a : Metered ε α) :=
  (reads_pure a).upholds (excludes_pure a)

theorem upholds_fail {e : ε} (h : ¬ bad e) : Upholds bad (fail e : Metered ε α) :=
  (reads_fail e).upholds (excludes_fail h)

theorem upholds_liftM {y : Except ε α} (h : FailsOnly (¬ bad ·) y) :
    Upholds bad (liftM y : Metered ε α) :=
  (reads_liftM y).upholds (excludes_liftM h)

/-- What comes second may build on what the first has found among formed grants. -/
theorem Upholds.bind_gives {f : α → Metered ε β} (first : Upholds bad x)
    (rest : ∀ v a w, v.GrantsFormed → x.Gives v a w → Upholds bad (f a)) :
    Upholds bad (x >>= f) where
  keeps := first.keeps.bind_gives fun v a w start run => (rest v a w start run).keeps
  avoids e wrong := (first.avoids e wrong).bind_gives first.keeps
    fun v a w start run => (rest v a w start run).avoids e wrong

theorem composes_upholds : Composes (Upholds bad) where
  of_pure := upholds_pure
  bind_gives first rest := first.bind_gives fun v a w _ run => rest v a w run

theorem Upholds.bind {f : α → Metered ε β} (first : Upholds bad x)
    (rest : ∀ a, Upholds bad (f a)) : Upholds bad (x >>= f) := composes_upholds.bind first rest

theorem Upholds.discard (h : Upholds bad x) : Upholds bad (discard x) := composes_upholds.discard h

theorem Upholds.mapError {worse : ε' → Prop} {f : ε → ε'} (h : Upholds bad x)
    (back : ∀ e, worse (f e) → bad e) : Upholds worse (x.mapError f) where
  keeps := h.keeps.mapError f
  avoids := by
    intro e wrong
    apply avoids_mapError
    rintro why rfl
    exact h.avoids why (back why wrong)

end Metered

open Metered

/-- What is left to settle of an authorization is formed. -/
def Authority.Formed : Authority → Prop
  | own => True
  | delegated d => ∀ authorization, d.remaining = some authorization → authorization.Formed

namespace Ledger

abbrev UpholdsGrants (x : Ledger α) : Prop := Upholds LedgerError.IsMismatch x

theorem upholds_read? (c : Codec α) (key : Key) : UpholdsGrants (read? c key) := by
  apply (reads_read? c key).upholds
  intro e wrong _ _
  rw [evaluate_read?]
  split
  · nofun
  · rename_i bs _
    obtain ⟨reason, rfl, -⟩ := wrong
    cases read : c.decodeAll bs <;> simp [decode, read]

theorem upholds_write {c : Codec α} {key : Key} (aside : key.kind ≠ .grant) (a : α) :
    UpholdsGrants (write c key a) := by
  simp only [write]
  split
  · exact (succeeds_set _ _).upholds fun _ formed => formed.put_aside aside _
  · apply upholds_fail
    rintro ⟨_, ⟨⟩, -⟩

theorem upholds_erase {key : Key} (aside : key.kind ≠ .grant) : UpholdsGrants (erase key) :=
  (succeeds_erase _).upholds fun _ formed => formed.put_aside aside _

theorem upholds_sum (a b : Amount) : UpholdsGrants (liftM (sum a b)) := by
  unfold sum
  split
  · exact upholds_pure _
  · apply upholds_fail
    rintro ⟨_, ⟨⟩, -⟩

theorem upholds_balance (owner : Address) (denom : String) : UpholdsGrants (balance owner denom) :=
  (upholds_read? _ _).bind fun _ => upholds_pure _

theorem upholds_supply (denom : String) : UpholdsGrants (supply denom) :=
  (upholds_read? _ _).bind fun _ => upholds_pure _

theorem upholds_setBalance (owner : Address) (denom : String) (amount : Amount) :
    UpholdsGrants (setBalance owner denom amount) := by
  simp only [setBalance]
  split
  · exact upholds_erase (by simp)
  · exact upholds_write (by simp) _

theorem upholds_setSupply (denom : String) (amount : Amount) :
    UpholdsGrants (setSupply denom amount) := upholds_write (by simp) _

theorem upholds_funds (owner : Address) (coin : Coin) : UpholdsGrants (funds owner coin) := by
  apply (upholds_balance _ _).bind
  intro available
  split
  · apply upholds_fail
    rintro ⟨_, ⟨⟩, -⟩
  · exact upholds_pure _

theorem upholds_debit (owner : Address) (coin : Coin) : UpholdsGrants (debit owner coin) :=
  (upholds_funds _ _).bind fun _ => upholds_setBalance _ _ _

theorem upholds_credit (owner : Address) (coin : Coin) : UpholdsGrants (credit owner coin) :=
  (upholds_balance _ _).bind fun _ => (upholds_sum _ _).bind fun _ => upholds_setBalance _ _ _

theorem upholds_checkCoins (coins : List Coin) : UpholdsGrants (liftM (checkCoins coins)) :=
  upholds_liftM (failsOnly_forM fun coin => failsOnly_require coin.check)

theorem upholds_send (sender recipient : Address) (coins : List Coin) :
    UpholdsGrants (send sender recipient coins) :=
  (upholds_checkCoins coins).bind fun _ =>
    (composes_upholds.forM fun _ _ => (upholds_funds _ _).discard).bind fun _ =>
      composes_upholds.forM fun _ _ => (upholds_debit _ _).bind fun _ => upholds_credit _ _

theorem upholds_mint (module : String) (coins : List Coin) : UpholdsGrants (mint module coins) :=
  (upholds_checkCoins coins).bind fun _ => composes_upholds.forM fun _ _ =>
    (upholds_supply _).bind fun _ => (upholds_sum _ _).bind fun _ =>
      (upholds_credit _ _).bind fun _ => upholds_setSupply _ _

theorem upholds_burn (module : String) (coins : List Coin) : UpholdsGrants (burn module coins) :=
  (upholds_checkCoins coins).bind fun _ => composes_upholds.forM fun _ _ =>
    (upholds_debit _ _).bind fun _ => (upholds_supply _).bind fun _ => upholds_setSupply _ _

theorem upholds_release (m : TransferMessage) : UpholdsGrants (release m) := by
  simp only [release]
  split
  · exact upholds_send _ _ _
  · exact (upholds_send _ _ _).bind fun _ => upholds_burn _ _

theorem upholds_transfer (m : TransferMessage) : UpholdsGrants (transfer m) := by
  refine (upholds_liftM m.failsOnly_check).bind fun _ => (upholds_read? _ _).bind fun _ => ?_
  split
  · apply upholds_fail
    rintro ⟨_, ⟨⟩, -⟩
  · exact (upholds_release m).bind fun _ => ((upholds_read? _ _).bind fun _ => upholds_pure _).bind
      fun _ => (upholds_write (by simp) _).bind fun _ => (upholds_write (by simp) _).bind fun _ =>
        upholds_pure _

theorem upholds_grant? (time : UInt64) (granter grantee : Address) (type : String) :
    UpholdsGrants (grant? time granter grantee type) :=
  (upholds_read? _ _).bind fun _ => upholds_pure _

theorem upholds_saveGrant {g : Grant} (formed : g.authorization.Formed) (time : UInt64)
    (granter grantee : Address) : UpholdsGrants (saveGrant time granter grantee g) := by
  simp only [saveGrant]
  split
  · apply upholds_fail
    exact LedgerError.not_isMismatch_invalidMessage (.refl _) (by decide)
  · simp only [write]
    split
    · rename_i writable
      have fits := (Grant.lawful_codec.writable_iff g).mp writable
      exact (succeeds_set _ _).upholds fun _ start => start.put_grant fits formed
    · apply upholds_fail
      rintro ⟨_, ⟨⟩, -⟩

theorem upholds_removeGrant (granter grantee : Address) (type : String) :
    UpholdsGrants (removeGrant granter grantee type) := by
  refine ((succeeds_has _).upholds (reads_has _).keeps).bind fun _ => ?_
  split
  · exact (succeeds_erase _).upholds fun _ start => start.put_none _
  · apply upholds_fail
    rintro ⟨_, ⟨⟩, -⟩

theorem upholds_settle {authority : Authority} (formed : authority.Formed) (time : UInt64) :
    UpholdsGrants (settle time authority) := by
  cases authority with
  | own => exact upholds_pure _
  | delegated d =>
    simp only [settle]
    split
    · rename_i authorization left
      exact upholds_saveGrant (formed authorization left) _ _ _
    · exact upholds_removeGrant _ _ _

/-- What a message leaves of a formed grant is formed. -/
theorem formed_of_authorize {v w : Contents} {time : UInt64} {caller owner : Address} {m : Message}
    {authority : Authority} (start : v.GrantsFormed)
    (h : (authorize time caller owner m).Gives v authority w) : authority.Formed := by
  obtain ⟨-, ⟨-, rfl⟩ | ⟨-, grant, left, live, accepted, rfl⟩⟩ := authority_of_authorize h
  · trivial
  · rintro authorization rfl
    have stored := (Contents.grant?_of_liveGrant? live).1
    exact Authorization.formed_of_accept (start.of_grant? stored).2 accepted

/-- Grants are looked up by the type of the message, which is the type that they are for. -/
theorem upholds_authorize (time : UInt64) (caller owner : Address) (m : Message) :
    UpholdsGrants (authorize time caller owner m) := by
  simp only [authorize]
  split
  · exact upholds_pure _
  · apply (upholds_grant? _ _ _ _).bind_gives
    intro v grant w start found
    cases grant with
    | none =>
      apply upholds_fail
      rintro ⟨_, ⟨⟩, -⟩
    | some grant =>
      obtain ⟨-, live, -⟩ := gives_grant?.mp found
      obtain ⟨type, -⟩ := start.of_grant? (Contents.grant?_of_liveGrant? live).1
      refine (upholds_liftM fun e failed => ?_).bind fun _ => upholds_pure _
      exact Authorization.not_isMismatch_of_accept type failed

end Ledger

namespace Action

abbrev UpholdsGrants (x : Action α) : Prop := Upholds Refusal.IsMismatch x

theorem upholds_ofLedger {x : Ledger α} (h : Ledger.UpholdsGrants x) : UpholdsGrants (ofLedger x) :=
  h.mapError fun _ => Refusal.isMismatch_ofLedger.mp

theorem upholds_ofTokenLedger {x : Ledger α} (h : Ledger.UpholdsGrants x) :
    UpholdsGrants (ofTokenLedger x) :=
  h.mapError fun _ => Refusal.isMismatch_of_ofTokenLedger

theorem upholds_check {e : Except LedgerError α} (h : SparesTypes e) :
    UpholdsGrants (liftM (e.mapError Refusal.ofLedger)) := by
  cases e with
  | ok a => exact upholds_pure a
  | error e => exact upholds_fail fun mismatch => h e rfl (Refusal.isMismatch_ofLedger.mp mismatch)

end Action

theorem Action.upholds_argument {e : Except Refusal α} (h : SparesValidation e) :
    UpholdsGrants (liftM e) := by
  apply upholds_liftM
  rintro _ failed ⟨reason, rfl, -⟩
  exact h _ failed rfl

namespace TokenContract

open LedgerBridge.Action Arguments

variable (t : TokenContract) (c : Call)

theorem upholds_move (sender recipient : Address) (amount : Amount) :
    UpholdsGrants (t.move c sender recipient amount) := by
  apply (upholds_check (SendMessage.failsOnly_check _)).bind
  intro _
  apply (upholds_ofTokenLedger (Ledger.upholds_authorize _ _ _ _)).bind_gives
  intro v authority w start allowed
  have formed := Ledger.formed_of_authorize start (gives_ofTokenLedger.mp allowed)
  apply (upholds_ofTokenLedger (Ledger.upholds_send _ _ _)).bind
  intro _
  exact (upholds_ofLedger (Ledger.upholds_settle formed _)).bind fun _ => upholds_pure _

theorem upholds_transfer : UpholdsGrants (t.transfer c) :=
  (upholds_argument (failsOnly_expectCount _ _)).bind fun _ =>
    (upholds_argument (failsOnly_address _ _ _)).bind fun _ =>
      (upholds_argument (failsOnly_amount _ _ _)).bind fun _ =>
        (t.upholds_move c _ _ _).discard.bind fun _ => upholds_pure _

theorem upholds_transferFrom : UpholdsGrants (t.transferFrom c) :=
  (upholds_argument (failsOnly_expectCount _ _)).bind fun _ =>
    (upholds_argument (failsOnly_address _ _ _)).bind fun _ =>
      (upholds_argument (failsOnly_address _ _ _)).bind fun _ =>
        (upholds_argument (failsOnly_amount _ _ _)).bind fun _ =>
          (t.upholds_move c _ _ _).bind fun _ => upholds_pure _

/-- The first limit of a grant is not zero. -/
theorem AllowanceChange.pos_of_next {change : AllowanceChange} {denom : String}
    {amount next : Amount} (h : change.next denom none amount = .ok next) : 0 < next := by
  cases change with
  | decrease => cases h
  | set | increase =>
    simp only [AllowanceChange.next] at h
    split at h
    · cases h
    · rename_i positive
      cases h
      exact (BitVec.pos_iff_ne_zero _).mpr positive

/-- A limit is set in a formed send grant, or is the first of a new one. -/
theorem upholds_storeAllowance (existing : Option Grant) (amount : Amount)
    (formed : ∀ g, existing = some g →
      g.authorization.messageType = Message.sendType ∧ g.authorization.Formed)
    (positive : existing = none → 0 < amount) (time : UInt64) (owner spender : Address) :
    UpholdsGrants (t.storeAllowance time owner spender existing amount) := by
  unfold storeAllowance
  split
  · rename_i limits expiration
    have ordered : limits.Ordered := Limits.Formed.toOrdered (formed _ rfl).2
    split
    · exact upholds_ofLedger (Ledger.upholds_removeGrant _ _ _)
    · rename_i nonempty
      have kept : Limits.Formed (limits.set t.denom amount) := ⟨ordered.set _ _, nonempty⟩
      exact upholds_ofLedger (Ledger.upholds_saveGrant (g := ⟨.send _, expiration⟩) kept _ _ _)
  · have apart : Message.transferType ≠ Message.sendType := by decide
    exact absurd (formed _ rfl).1 apart
  · have first : Limits.Formed [⟨t.denom, amount⟩] := Limits.formed_singleton (positive rfl)
    exact upholds_ofLedger (Ledger.upholds_saveGrant (g := ⟨.send _, _⟩) first _ _ _)

theorem upholds_approve (change : AllowanceChange) : UpholdsGrants (t.approve change c) := by
  refine (upholds_argument (failsOnly_expectCount _ _)).bind fun _ =>
    (upholds_argument (failsOnly_address _ _ _)).bind fun spender =>
      (upholds_argument (failsOnly_amount _ _ _)).bind fun amount => ?_
  split
  · have begins := Begins.refl "spender cannot be the owner: "
    exact upholds_fail (Refusal.not_isMismatch_invalid (begins.append _) (by decide))
  · apply (upholds_ofLedger (Ledger.upholds_grant? _ _ _ _)).bind_gives
    intro v existing w start found
    obtain ⟨-, live, -⟩ := Ledger.gives_grant?.mp (gives_ofLedger.mp found)
    refine (upholds_liftM ((change.failsOnly_next _ _ _).mono fun _ starts =>
      starts.not_isMismatch (by decide))).bind_gives ?_
    intro v' next w' _ led
    obtain ⟨led, -⟩ := gives_liftM.mp led
    refine (t.upholds_storeAllowance existing next ?_ ?_ c.time c.caller spender).bind
      fun _ => upholds_pure _
    · rintro g rfl
      exact start.of_grant? (Contents.grant?_of_liveGrant? live).1
    · rintro rfl
      exact AllowanceChange.pos_of_next led

theorem upholds_mint : UpholdsGrants (t.mint c) :=
  (upholds_argument (failsOnly_expectCount _ _)).bind fun _ =>
    (upholds_argument (failsOnly_address _ _ _)).bind fun _ =>
      (upholds_argument (failsOnly_amount _ _ _)).bind fun _ =>
        (upholds_argument (failsOnly_requirePositive _)).bind fun _ =>
          (upholds_argument (t.failsOnly_requireOwner _ _)).bind fun _ =>
            (upholds_ofLedger (Ledger.upholds_mint _ _)).bind fun _ =>
              (upholds_ofLedger (Ledger.upholds_send _ _ _)).bind fun _ => upholds_pure _

theorem upholds_burn : UpholdsGrants (t.burn c) :=
  (upholds_argument (failsOnly_expectCount _ _)).bind fun _ =>
    (upholds_argument (failsOnly_amount _ _ _)).bind fun _ =>
      (upholds_argument (failsOnly_requirePositive _)).bind fun _ =>
        (upholds_argument (t.failsOnly_requireOwner _ _)).bind fun _ =>
          (upholds_ofTokenLedger (Ledger.upholds_send _ _ _)).bind fun _ =>
            (upholds_ofLedger (Ledger.upholds_burn _ _)).bind fun _ => upholds_pure _

theorem upholds_describe (part : Metadata → Abi.Value) : UpholdsGrants (t.describe part c) :=
  (upholds_argument (failsOnly_expectCount _ _)).bind fun _ =>
    (upholds_ofLedger (Ledger.upholds_read? _ _)).bind fun _ => upholds_pure _

theorem upholds_totalSupply : UpholdsGrants (t.totalSupply c) :=
  (upholds_argument (failsOnly_expectCount _ _)).bind fun _ =>
    (upholds_ofLedger (Ledger.upholds_supply _)).bind fun _ => upholds_pure _

theorem upholds_balanceOf : UpholdsGrants (t.balanceOf c) :=
  (upholds_argument (failsOnly_expectCount _ _)).bind fun _ =>
    (upholds_argument (failsOnly_address _ _ _)).bind fun _ =>
      (upholds_ofLedger (Ledger.upholds_balance _ _)).bind fun _ => upholds_pure _

theorem upholds_allowance : UpholdsGrants (t.allowance c) := by
  refine (upholds_argument (failsOnly_expectCount _ _)).bind fun _ =>
    (upholds_argument (failsOnly_address _ _ _)).bind fun owner =>
      (upholds_argument (failsOnly_address _ _ _)).bind fun spender =>
        (upholds_ofLedger ?_).bind fun _ => upholds_pure _
  simp only [Ledger.allowance]
  split
  · exact upholds_pure _
  · refine (Ledger.upholds_grant? _ _ _ _).bind fun grant => ?_
    split <;> exact upholds_pure _

theorem upholds_operate (op : Operation) : UpholdsGrants (t.operate op c) := by
  simp only [operate]
  split
  · cases op <;> simp only [enabledOperation]
    case transfer => exact t.upholds_transfer c
    case transferFrom => exact t.upholds_transferFrom c
    case approve | increaseAllowance | decreaseAllowance => exact t.upholds_approve c _
    case mint => exact t.upholds_mint c
    case burn => exact t.upholds_burn c
    case name | symbol | decimals => exact t.upholds_describe c _
    case totalSupply => exact t.upholds_totalSupply c
    case balanceOf => exact t.upholds_balanceOf c
    case allowance => exact t.upholds_allowance c
  · have begins := Begins.refl "token pair for denom "
    exact upholds_fail
      (Refusal.not_isMismatch_invalid ((begins.append _).append _) (by decide))

end TokenContract

namespace Outpost

open LedgerBridge.Action Arguments

variable (o : Outpost) (c : Call)

theorem upholds_denomAt (token : Address) : UpholdsGrants (denomAt token) := by
  have looked : Ledger.UpholdsGrants (Ledger.pairAt? token) := by
    refine ((succeeds_get _).upholds (reads_get _).keeps).bind fun denom => ?_
    cases denom with
    | none => exact upholds_pure _
    | some denom => exact Ledger.upholds_read? _ _
  apply (upholds_ofLedger looked).bind
  intro pair
  cases pair with
  | none =>
    have begins := Begins.refl "token pair for address "
    exact upholds_fail
      (Refusal.not_isMismatch_invalid ((begins.append _).append _) (by decide))
  | some pair => exact upholds_pure _

theorem upholds_swap : UpholdsGrants (o.swap c) := by
  apply (upholds_argument (failsOnly_expectCount _ _)).bind
  intro _
  apply (upholds_argument (failsOnly_address _ _ _)).bind
  intro sender
  apply (upholds_argument (failsOnly_address _ _ _)).bind
  intro input
  apply (upholds_argument (failsOnly_address _ _ _)).bind
  intro output
  apply (upholds_argument (failsOnly_amount _ _ _)).bind
  intro amount
  apply (upholds_argument (failsOnly_text _ _ _)).bind
  intro receiver
  apply (upholds_denomAt _).bind
  intro inputDenom
  apply (upholds_denomAt _).bind
  intro outputDenom
  apply (upholds_ofLedger ((Ledger.upholds_read? _ _).bind fun _ => upholds_pure _)).bind
  intro bondDenom
  apply (upholds_liftM ((failsOnly_check _ _).mono fun _ starts =>
    starts.not_isMismatch (by decide))).bind
  intro _
  apply (upholds_liftM ((failsOnly_effectiveSender _ _ _).mono fun _ starts =>
    starts.not_isMismatch (by decide))).bind
  intro effective
  apply (upholds_check (TransferMessage.failsOnly_check _)).bind
  intro _
  apply ((Ledger.upholds_authorize _ _ _ _).mapError fun _ => isMismatch_of_missingGrant).bind_gives
  intro v authority w start allowed
  have formed := Ledger.formed_of_authorize start (gives_mapError.mp allowed)
  apply (upholds_ofLedger (Ledger.upholds_transfer _)).discard.bind
  intro _
  exact (upholds_ofLedger (Ledger.upholds_settle formed _)).bind fun _ => upholds_pure _

end Outpost

namespace Precompile

variable {p : Precompile} {time : UInt64} {s : Store} {f : Frame} {origin : Address}
  {readOnly : Bool}

theorem upholds_operation {x : Action Completed}
    (h : p.operation time f origin readOnly = .ok x) : Action.UpholdsGrants x := by
  cases p with
  | token t =>
    obtain ⟨⟨m, args⟩, -, rfl⟩ := map_eq_ok.mp h
    exact t.upholds_operate _ _
  | outpost o =>
    obtain ⟨⟨m, args⟩, -, rfl⟩ := map_eq_ok.mp h
    exact o.upholds_swap _

theorem grantsFormed_run (start : s.contents.GrantsFormed) :
    (p.run time s f origin readOnly).store.contents.GrantsFormed := by
  cases ended : (p.run time s f origin readOnly).result with
  | error e =>
    rw [store_of_run_error ended]
    exact start
  | ok out =>
    obtain ⟨x, read, gives⟩ := gives_of_run ended
    exact (upholds_operation read).keeps.of_gives gives start

/-- Among formed grants, no call comes across one of another type. -/
theorem not_isMismatch_of_run (start : s.contents.GrantsFormed) {why : Refusal}
    (refused : (p.run time s f origin readOnly).result = .error (.refused why)) :
    ¬ why.IsMismatch := by
  rcases operation_of_refused refused with unread | ⟨x, read, failed⟩
  · exact not_isMismatch_of_operation unread
  · intro mismatch
    exact (upholds_operation read).avoids why mismatch s.contents start failed

end Precompile

theorem Request.grantsFormed_callAll {s : Store} (start : s.contents.GrantsFormed)
    (requests : List Request) : (callAll s requests).contents.GrantsFormed := by
  induction requests generalizing s with
  | nil => exact start
  | cons q rest ih => exact ih (Precompile.grantsFormed_run start)

namespace Config

variable {c : Config}

theorem keepsGrants_ofLedger {x : Ledger α} (h : ChangesWithin (·.kind ≠ .grant) x) :
    Keeps Contents.GrantsFormed (ofLedger x) :=
  Keeps.mapError (h.keeps fun _ _ change aside _ formed => formed.put_aside aside change) _

theorem formed_authorization {g : GenesisGrant} (positive : 0 < g.spendLimit) (o : OutpostConfig) :
    (g.authorization o).Formed := by
  have formed : Limits.Formed [⟨g.denom, g.spendLimit⟩] := Limits.formed_singleton positive
  unfold GenesisGrant.authorization
  split
  · exact formed
  · exact ⟨List.cons_ne_nil _ _, List.forall_mem_singleton.mpr formed⟩

theorem keepsGrants_registerPair (p : PairConfig) :
    Keeps Contents.GrantsFormed (registerPair p) :=
  (keepsGrants_ofLedger (Ledger.changesWithin_registerPair (by simp) (by simp))).bind fun _ =>
    keepsGrants_ofLedger (Ledger.changesWithin_setMetadata (by simp))

theorem keepsGrants_grant {g : GenesisGrant} (positive : 0 < g.spendLimit) :
    Keeps Contents.GrantsFormed (c.grant g) := by
  simp only [grant]
  split
  · exact keeps_fail _
  · exact (Ledger.upholds_saveGrant (formed_authorization positive _) _ _ _).keeps.mapError _

/-- A genesis whose grants let something be spent leaves formed grants. -/
theorem keepsGrants_genesis? (positive : ∀ g ∈ c.genesis.grants, 0 < g.spendLimit) :
    Keeps Contents.GrantsFormed c.genesis? :=
  (keepsGrants_ofLedger (Ledger.changesWithin_setBondDenom (by simp) _)).bind fun _ =>
    (composes_keeps.forM fun p _ => keepsGrants_registerPair p).bind fun _ =>
      (keepsGrants_ofLedger (Ledger.changesWithin_openChannel (by simp) _)).bind fun _ =>
        (composes_keeps.forM fun _ _ => keepsGrants_ofLedger
          (Ledger.changesWithin_endow (by simp) (by simp))).bind fun _ =>
          composes_keeps.forM fun g member => keepsGrants_grant (positive g member)

theorem grantsFormed_of_initialStore {s : Store} (started : c.initialStore = .ok s)
    (positive : ∀ g ∈ c.genesis.grants, 0 < g.spendLimit) : s.contents.GrantsFormed := by
  have gives := gives_of_perform (congrArg Prod.fst (initialStore_eq_ok.mp started))
  rw [initialStore_eq_ok.mp started] at gives
  exact (keepsGrants_genesis? positive).of_gives gives Contents.grantsFormed_empty

end Config

/-- A chain starts from grants that let something be spent, and goes on in any way. The grants that it
stores are always formed, and for the type of message that they are stored for. So no call is refused
because a grant is of another type; and a limit that is found is the only one of its denomination. -/
theorem Config.grants_stay_formed {c : Config} {s : Store} (started : c.initialStore = .ok s)
    (positive : ∀ g ∈ c.genesis.grants, 0 < g.spendLimit) (requests : List Request) :
    (Request.callAll s requests).contents.GrantsFormed ∧
    (∀ (q : Request) (why : Refusal),
      (q.call (Request.callAll s requests)).result = .error (.refused why) →
        why ≠ .invalid s!"grant for {Message.sendType} is not a send authorization" ∧
        ∀ (a : Authorization) (m : Message), why ≠ .ofLedger (.invalidMessage
          s!"type mismatch: authorization for {a.messageType} cannot accept {m.type}")) ∧
    ∀ granter grantee type g,
      (Request.callAll s requests).contents.grant? granter grantee type = some g →
        ∀ limits ∈ g.authorization.limits, ∀ denom amount, limits.limit? denom = some amount →
          limits.filter (·.denom = denom) = [⟨denom, amount⟩] := by
  have formed := Request.grantsFormed_callAll (grantsFormed_of_initialStore started positive) requests
  refine ⟨formed, fun q why refused => ⟨?_, fun a m => ?_⟩, ?_⟩
  · rintro rfl
    exact Precompile.not_isMismatch_of_run formed refused
      ⟨_, rfl, .inl (((Begins.refl _).append _).append _)⟩
  · rintro rfl
    apply Precompile.not_isMismatch_of_run formed refused
    apply Refusal.isMismatch_ofLedger.mpr
    have begins : Begins "type mismatch: " "type mismatch: authorization for " := by decide
    exact ⟨_, rfl, ((begins.append _).append _).append _⟩
  · intro granter grantee type g stored limits member denom amount found
    have each := (formed.of_grant? stored).2.each limits member
    exact each.toOrdered.filter_eq_of_limit? found

/-- The grantee may also let some of the granter's coins leave over the outpost's channel. -/
def Config.grantingBoth : Config :=
  { granting with
    genesis := { granting.genesis with
      grants := granting.genesis.grants ++ [⟨.transfer, granter, grantee, "ubridge", 5, none⟩] } }

/-- Of a hundred, forty are left after the grantee took thirty twice, and there is no other limit of that
denomination. -/
theorem Config.grants_stay_formed_of_grantee :
    ∃ s, grantingBoth.initialStore = .ok s ∧
      (∀ g ∈ grantingBoth.genesis.grants, 0 < g.spendLimit) ∧
      (Request.callAll s [.ofGrantee, .ofGrantee]).contents.GrantsFormed ∧
      ∃ limits, (Request.callAll s [.ofGrantee, .ofGrantee]).contents.grant? granter grantee
          Message.sendType = some ⟨.send limits, none⟩ ∧
        limits.filter (·.denom = "ubridge") = [⟨"ubridge", 40⟩] := by
  have positive : ∀ g ∈ grantingBoth.genesis.grants, 0 < g.spendLimit := by decide
  have called (s : Store) : Request.callAll s [.ofGrantee, .ofGrantee] =
      (Request.ofGrantee.call (Request.ofGrantee.call s).store).store := by
    rw [Request.callAll_cons, Request.callAll_cons, Request.callAll_nil]
  have known : (grantingBoth.initialStore.toOption.any fun s =>
      (Request.callAll s [.ofGrantee, .ofGrantee]).contents.grant? granter grantee
          Message.sendType == some ⟨.send [⟨"ubridge", 40⟩], none⟩) = true := by
    simp only [called, Request.call_ofGrantee]
    decide +kernel
  obtain ⟨s, started, known⟩ := exists_of_any_toOption known
  have stored := beq_iff_eq.mp known
  obtain ⟨formed, -, only⟩ := Config.grants_stay_formed started positive [.ofGrantee, .ofGrantee]
  exact ⟨s, started, positive, formed, _, stored, only _ _ _ _ stored _ (.head _) _ _ rfl⟩

end LedgerBridge
