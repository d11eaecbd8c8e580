import LedgerBridge.Proofs.Operations
import LedgerBridge.Proofs.Settlement

/-! Who can lower a balance. A call takes from nobody but its caller and those who granted the caller
just that, and what it takes it also takes from the grant. -/
namespace LedgerBridge.Precompile

/-- Why a call may lower what an account has of a denomination, by an amount. -/
inductive Entitled (p : Precompile) (time : UInt64) (f : Frame) (origin : Address) (readOnly : Bool)
    (owner : Address) (denom : String) (amount : Nat) (v w : Contents) : Prop
  /-- The account is the caller's. -/
  | own (same : owner = f.caller)
  /-- The caller moves an allowance. -/
  | allowance (t : TokenContract) (m : Method TokenContract.Operation) (args : Arguments)
      (contract : p = .token t ∧ t.denom = denom)
      (call : decode TokenContract.table f readOnly = .ok (m, args) ∧ m.op = .transferFrom)
      (named : args[0]? = some (.address owner))
      (spent : v.SpentSend w time owner f.caller denom amount)
  /-- The caller swaps what the origin lets it send out. -/
  | swap (o : Outpost) (m : Method Outpost.Operation) (args : Arguments) (token : Address)
      (contract : p = .outpost o)
      (call : decode Outpost.table f readOnly = .ok (m, args) ∧ m.op = .swap)
      (input : args[1]? = some (.address token) ∧ v.denomAt? token = some denom)
      (same : owner = origin)
      (spent : v.SpentTransfer w time owner f.caller o.config.port o.config.channel
        o.config.swapContract denom amount)

variable {time : UInt64} {f : Frame} {origin : Address} {readOnly : Bool} {v w : Contents}
  {owner : Address} {denom : String}

theorem entitled_of_token {t : TokenContract} {m : Method TokenContract.Operation}
    {args : Arguments} {done : Completed}
    (read : decode TokenContract.table f readOnly = .ok (m, args))
    (h : (t.operate m.op ⟨f.caller, origin, t.pair.address, time, args⟩).Gives v done w)
    (less : (w.balance owner denom).toNat < (v.balance owner denom).toNat) :
    (token t).Entitled time f origin readOnly owner denom
      ((v.balance owner denom).toNat - (w.balance owner denom).toNat) v w := by
  rcases TokenContract.atRest_or_explains h with rest | ⟨moved, ofToken, explains, authority⟩
  · rw [rest.balance owner denom] at less
    exact absurd less (Nat.lt_irrefl _)
  · obtain ⟨source, ofDenom, total⟩ := explains.moved.lost less
    rcases authority owner source with own | ⟨op, named, spent⟩
    · exact .own own
    · have amount : (v.balance owner denom).toNat - (w.balance owner denom).toNat =
          moved.coin.amount.toNat := by omega
      rw [amount]
      rw [ofDenom] at ofToken spent
      exact .allowance t m args ⟨rfl, ofToken.symm⟩ ⟨read, op⟩ named spent

theorem entitled_of_outpost {o : Outpost} {m : Method Outpost.Operation} {args : Arguments}
    {done : Completed} (read : decode Outpost.table f readOnly = .ok (m, args))
    (h : (o.operate m.op ⟨f.caller, origin, Outpost.address, time, args⟩).Gives v done w)
    (less : (w.balance owner denom).toNat < (v.balance owner denom).toNat) :
    (outpost o).Entitled time f origin readOnly owner denom
      ((v.balance owner denom).toNat - (w.balance owner denom).toNat) v w := by
  obtain ⟨op, signature, inputs, kind, gas⟩ := m
  cases op
  obtain ⟨token, inputDenom, swapped, named, -, registered, explains, authority⟩ :=
    Outpost.explains_swap h
  obtain ⟨mine, ofDenom, total⟩ := explains.moved.lost less
  cases mine
  cases ofDenom
  rcases authority with own | spent
  · exact .own own
  · have amount : (v.balance origin inputDenom).toNat - (w.balance origin inputDenom).toNat =
        swapped.toNat := Nat.sub_eq_of_eq_add' total.symm
    rw [amount]
    exact .swap o _ args token rfl ⟨read, rfl⟩ ⟨named, registered⟩ rfl spent

/-- After a call an account has no less of anything than before, unless the call succeeded and was
entitled to what is missing. -/
theorem balance_le_or_entitled (p : Precompile) (time : UInt64) (s : Store) (f : Frame)
    (origin : Address) (readOnly : Bool) (owner : Address) (denom : String) :
    (s.contents.balance owner denom).toNat ≤
      ((p.run time s f origin readOnly).store.contents.balance owner denom).toNat ∨
    (∃ out, (p.run time s f origin readOnly).result = .ok out) ∧
      p.Entitled time f origin readOnly owner denom
        ((s.contents.balance owner denom).toNat -
          ((p.run time s f origin readOnly).store.contents.balance owner denom).toNat)
        s.contents (p.run time s f origin readOnly).store.contents := by
  cases ended : (p.run time s f origin readOnly).result with
  | error e =>
    rw [store_of_run_error ended]
    exact .inl (Nat.le_refl _)
  | ok out =>
    by_cases less : ((p.run time s f origin readOnly).store.contents.balance owner denom).toNat <
        (s.contents.balance owner denom).toNat
    · refine .inr ⟨⟨out, rfl⟩, ?_⟩
      obtain ⟨x, operation, gives⟩ := gives_of_run ended
      cases p with
      | token t =>
        obtain ⟨⟨m, args⟩, read, rfl⟩ := map_eq_ok.mp operation
        exact entitled_of_token read gives less
      | outpost o =>
        obtain ⟨⟨m, args⟩, read, rfl⟩ := map_eq_ok.mp operation
        exact entitled_of_outpost read gives less
    · exact .inl (Nat.not_lt.mp less)

end LedgerBridge.Precompile
