import LedgerBridge.Proofs.Settlement

/-! What the budget of a call decides: whether its operation is tried, and whether it is paid for. All
else is settled without it, so a call that did not run out of gas comes to the same on any larger budget. -/
namespace LedgerBridge

/-- What the operation of a call comes to if it is paid for, and its price. -/
structure Verdict where
  result : Except Refusal Completed
  after : Store
  price : Nat

namespace Verdict

/-- What a frame makes of a call that is tried. -/
def pay (d : Verdict) (s : Store) (f : Frame) : CallResult :=
  if f.gas < d.price then ⟨.error .outOfGas, s, { f with gas := 0 }⟩
  else
    match d.result with
    | .error why => ⟨.error (.refused why), s, f⟩
    | .ok done =>
      ⟨.ok { done with gasUsed := d.price }, d.after, { f with gas := f.gas - d.price }⟩

/-- What a frame makes of a call. The method, if the input calls one, is of this kind and is not tried
with less than the required gas. -/
def onBudget (d : Verdict) (kind? : Option MethodKind) (required : Nat) (readOnly : Bool) (s : Store)
    (f : Frame) : CallResult :=
  match kind? with
  | none => ⟨.error (.refused (.unknownMethod (Hex.encodeMarked (f.input.take 4)))), s, f⟩
  | some kind =>
    if readOnly ∧ kind = .transaction then ⟨.error (.refused .writeProtection), s, f⟩
    else if f.gas < required then ⟨.error .outOfGas, s, f⟩
    else d.pay s f

variable {d : Verdict} {kind? : Option MethodKind} {required : Nat} {readOnly : Bool} {s : Store}
  {f : Frame} {gas : Nat}

theorem pay_of_le (more : f.gas ≤ gas) (enough : (d.pay s f).result ≠ .error .outOfGas) :
    (d.pay s { f with gas }).result = (d.pay s f).result ∧
      (d.pay s { f with gas }).store = (d.pay s f).store := by
  simp only [pay] at enough ⊢
  by_cases short : f.gas < d.price
  · simp [short] at enough
  · have paid : ¬ gas < d.price := by omega
    rw [if_neg short, if_neg paid]
    cases d.result <;> exact ⟨rfl, rfl⟩

/-- More gas makes no difference to a frame that has enough. -/
theorem onBudget_of_le (more : f.gas ≤ gas)
    (enough : (d.onBudget kind? required readOnly s f).result ≠ .error .outOfGas) :
    (d.onBudget kind? required readOnly s { f with gas }).result =
        (d.onBudget kind? required readOnly s f).result ∧
      (d.onBudget kind? required readOnly s { f with gas }).store =
        (d.onBudget kind? required readOnly s f).store := by
  cases kind? with
  | none => exact ⟨rfl, rfl⟩
  | some kind =>
    simp only [onBudget] at enough ⊢
    by_cases protect : readOnly ∧ kind = .transaction
    · simp only [if_pos protect, and_self]
    · rw [if_neg protect] at enough
      rw [if_neg protect, if_neg protect]
      by_cases short : f.gas < required
      · simp [short] at enough
      · have tried : ¬ gas < required := by omega
        rw [if_neg short] at enough
        rw [if_neg short, if_neg tried]
        exact pay_of_le more enough

end Verdict

namespace Precompile

variable {s : Store} {f : Frame} {readOnly : Bool} {x : Action Completed}

/-- How the method that an input calls uses the ledger; none if the input calls no method. -/
def kind? : Precompile → Bytes → Option MethodKind
  | token _, input => (TokenContract.table.find? input).map Method.kind
  | outpost _, input => (Outpost.table.find? input).map Method.kind

/-- The verdict on an operation, which knows nothing of the budget. -/
def verdict (x : Action Completed) (s : Store) : Verdict where
  result := (x.perform s.branch).1
  after := (x.perform s.branch).2.commit?.getD s
  price := price x s

theorem execute_eq_pay : execute x s f = (verdict x s).pay s f := by
  rw [Verdict.pay]
  by_cases short : f.gas < (verdict x s).price
  · rw [if_pos short]
    exact execute_of_lt_price short
  · rw [if_neg short]
    simp only [verdict]
    have enough : price x s ≤ f.gas := Nat.not_lt.mp short
    cases ended : (x.perform s.branch).1 with
    | error why => exact execute_of_failed enough ended
    | ok done => exact execute_of_done enough ended

theorem decode_of_find? {table : MethodTable ω} {m : Method ω}
    (found : table.find? f.input = some m) :
    decode table f readOnly =
      if readOnly ∧ m.kind = .transaction then .error (.refused .writeProtection)
      else if f.gas < m.gas then .error .outOfGas
      else ((Abi.decode m.inputs (f.input.drop 4)).mapError fun e => .refused (.ofDecode e)).map
        fun args => (m, args) := by
  simp only [decode, found, checkBudget_eq]
  by_cases protect : readOnly ∧ m.kind = .transaction
  · simp [protect]
  · by_cases short : f.gas < m.gas
    · simp [protect, short]
    · cases Abi.decode m.inputs (f.input.drop 4) <;> simp [protect, short, pure, Except.pure]

/-- A call through a table of methods has one verdict for all budgets. -/
theorem exists_verdict (table : MethodTable ω) (operate : ω → Call → Action Completed)
    (address : Address) (time : UInt64) (s : Store) (caller origin : Address) (input : Bytes)
    (readOnly : Bool) :
    ∃ d : Verdict, ∀ gas, runWith table operate address time s ⟨caller, input, gas⟩ origin readOnly =
      d.onBudget ((table.find? input).map Method.kind) (table.requiredGas input) readOnly s
        ⟨caller, input, gas⟩ := by
  cases found : table.find? input with
  | none =>
    refine ⟨⟨.error .writeProtection, s, 0⟩, fun gas => ?_⟩
    simp [runWith, decode, found, Verdict.onBudget]
  | some m =>
    have required : table.requiredGas input = m.gas := by simp [MethodTable.requiredGas, found]
    have admitted : ∃ d : Verdict, ∀ gas, ¬ (readOnly ∧ m.kind = .transaction) → ¬ gas < m.gas →
        runWith table operate address time s ⟨caller, input, gas⟩ origin readOnly =
          d.pay s ⟨caller, input, gas⟩ := by
      cases read : Abi.decode m.inputs (input.drop 4) with
      | error e =>
        refine ⟨⟨.error (.ofDecode e), s, 0⟩, fun gas unprotected enough => ?_⟩
        rw [runWith, decode_of_find? found, if_neg unprotected, if_neg enough, read]
        rfl
      | ok args =>
        refine ⟨verdict (operate m.op ⟨caller, origin, address, time, args⟩) s, ?_⟩
        intro gas unprotected enough
        rw [runWith, decode_of_find? found, if_neg unprotected, if_neg enough, read]
        exact execute_eq_pay
    obtain ⟨d, law⟩ := admitted
    refine ⟨d, fun gas => ?_⟩
    simp only [Option.map_some, Verdict.onBudget, required]
    by_cases protect : readOnly ∧ m.kind = .transaction
    · rw [if_pos protect, runWith, decode_of_find? found, if_pos protect]
    · rw [if_neg protect]
      by_cases short : gas < m.gas
      · rw [if_pos short, runWith, decode_of_find? found, if_neg protect, if_pos short]
      · rw [if_neg short]
        exact law gas protect short

/-- For every call there is a verdict that no budget has a say in. A budget only decides whether the
call gets as far as that; once it does, more gas changes neither the result nor the store. -/
theorem run_onBudget (p : Precompile) (time : UInt64) (s : Store) (caller origin : Address)
    (input : Bytes) (readOnly : Bool) :
    ∃ d : Verdict,
      (∀ gas, p.run time s ⟨caller, input, gas⟩ origin readOnly =
        d.onBudget (p.kind? input) (p.requiredGas input) readOnly s ⟨caller, input, gas⟩) ∧
      ∀ gas more, gas ≤ more →
        (p.run time s ⟨caller, input, gas⟩ origin readOnly).result ≠ .error .outOfGas →
        (p.run time s ⟨caller, input, more⟩ origin readOnly).result =
            (p.run time s ⟨caller, input, gas⟩ origin readOnly).result ∧
          (p.run time s ⟨caller, input, more⟩ origin readOnly).store =
            (p.run time s ⟨caller, input, gas⟩ origin readOnly).store := by
  have decided : ∃ d : Verdict, ∀ gas, p.run time s ⟨caller, input, gas⟩ origin readOnly =
      d.onBudget (p.kind? input) (p.requiredGas input) readOnly s ⟨caller, input, gas⟩ := by
    cases p with
    | token t => exact exists_verdict ..
    | outpost o => exact exists_verdict ..
  obtain ⟨d, law⟩ := decided
  refine ⟨d, law, fun gas more le enough => ?_⟩
  rw [law] at enough
  rw [law, law]
  exact Verdict.onBudget_of_le (f := ⟨caller, input, gas⟩) le enough

end Precompile

end LedgerBridge
