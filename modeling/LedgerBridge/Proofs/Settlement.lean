import LedgerBridge.Precompile.Run
import LedgerBridge.Proofs.Contents
import LedgerBridge.Proofs.Metering
import LedgerBridge.Proofs.Results

/-! How a call ends. It fails without a trace in the store, or the whole free run of its operation is
kept; the frame pays for the run what the run costs, or all it has if that is too little. -/
namespace LedgerBridge

/-! Calls that are to be made, and the stores that they lead to one after another. -/

/-- A call that is to be made. -/
structure Request where
  precompile : Precompile
  time : UInt64
  frame : Frame
  origin : Address
  readOnly : Bool

namespace Request

def call (q : Request) (s : Store) : CallResult :=
  q.precompile.run q.time s q.frame q.origin q.readOnly

/-- What calls leave that are made in turn. -/
def callAll (s : Store) (requests : List Request) : Store :=
  requests.foldl (fun s q => (q.call s).store) s

@[simp] theorem callAll_nil (s : Store) : callAll s [] = s := rfl

@[simp] theorem callAll_cons (s : Store) (q : Request) (rest : List Request) :
    callAll s (q :: rest) = callAll (q.call s).store rest := rfl

end Request

end LedgerBridge

namespace LedgerBridge.Precompile

open Metered

/-- What a call runs once its input is read. -/
def operation (p : Precompile) (time : UInt64) (f : Frame) (origin : Address) (readOnly : Bool) :
    Except CallError (Action Completed) :=
  match p with
  | token t => (decode TokenContract.table f readOnly).map fun (m, args) =>
      t.operate m.op ⟨f.caller, origin, p.address, time, args⟩
  | outpost o => (decode Outpost.table f readOnly).map fun (m, args) =>
      o.operate m.op ⟨f.caller, origin, p.address, time, args⟩

/-- What an operation is charged in a store, as far as a meter counts. -/
def price (x : Action Completed) (s : Store) : Nat := min (x.cost s.branch) Meter.cap

variable {p : Precompile} {time : UInt64} {s : Store} {f : Frame} {origin : Address}
  {readOnly : Bool} {x : Action Completed}

theorem runWith_eq (table : MethodTable ω) (operate : ω → Call → Action Completed)
    (address : Address) :
    runWith table operate address time s f origin readOnly =
      match (decode table f readOnly).map fun (m, args) =>
        operate m.op ⟨f.caller, origin, address, time, args⟩ with
      | .error e => ⟨.error e, s, f⟩
      | .ok x => execute x s f := by
  simp only [runWith]
  cases decode table f readOnly <;> rfl

theorem run_eq :
    p.run time s f origin readOnly =
      match p.operation time f origin readOnly with
      | .error e => ⟨.error e, s, f⟩
      | .ok x => execute x s f := by
  cases p with
  | token t => exact runWith_eq ..
  | outpost o => exact runWith_eq ..

/-- The run of an operation that is paid for. -/
theorem run_of_price_le (enough : price x s ≤ f.gas) :
    x.run s.branch f.meter =
      ⟨(x.perform s.branch).1.mapError .failed, (x.perform s.branch).2,
        ⟨f.gas, price x s⟩⟩ := by
  have start : f.meter.used ≤ Meter.cap := Nat.zero_le _
  have fits : min (f.meter.used + x.cost s.branch) Meter.cap ≤ f.meter.limit := by
    simpa [Frame.meter, Meter.new, price] using enough
  rw [run_of_cost_le x s.branch f.meter start fits]
  simp [Frame.meter, Meter.new, Meter.record, price]

/-- A run that fails leaves the store as it was. -/
theorem execute_eq :
    execute x s f =
      match f.settle (x.run s.branch f.meter).meter.used
        ((x.run s.branch f.meter).result.mapError CallError.ofStop) with
      | (.ok (completed, gasUsed), left) =>
        ⟨.ok { completed with gasUsed }, (x.run s.branch f.meter).store.commit?.getD s, left⟩
      | (.error e, left) => ⟨.error e, s, left⟩ := by
  rcases settled : f.settle (x.run s.branch f.meter).meter.used
    ((x.run s.branch f.meter).result.mapError CallError.ofStop) with ⟨e | ⟨completed, gasUsed⟩, left⟩
  · simp only [execute, settled, discard?_run, Option.getD_some]
  · simp only [execute, settled]

theorem execute_of_failed {why : Refusal} (enough : price x s ≤ f.gas)
    (h : (x.perform s.branch).1 = .error why) :
    execute x s f = ⟨.error (.refused why), s, f⟩ := by
  simp only [execute_eq, run_of_price_le enough, h]
  rfl

theorem execute_of_done {done : Completed} (enough : price x s ≤ f.gas)
    (h : (x.perform s.branch).1 = .ok done) :
    execute x s f =
      ⟨.ok { done with gasUsed := price x s }, (x.perform s.branch).2.commit?.getD s,
        { f with gas := f.gas - price x s }⟩ := by
  simp only [execute_eq, run_of_price_le enough, h]
  simp [Frame.settle, Frame.pay?, Nat.not_lt.mpr enough]

/-- An operation that is not paid for ends for lack of gas, with all of it counted as used. -/
theorem exhausted_of_lt_price (short : f.gas < price x s) :
    (∃ e, (x.run s.branch f.meter).result = .error (.exhausted e)) ∧
      f.gas < (x.run s.branch f.meter).meter.used := by
  have exceeds : f.meter.limit < min (f.meter.used + x.cost s.branch) Meter.cap := by
    simpa [Frame.meter, Meter.new, price] using short
  exact run_of_lt_cost x s.branch f.meter (Nat.zero_le _) (Nat.zero_le _) exceeds

theorem execute_of_lt_price (short : f.gas < price x s) :
    execute x s f = ⟨.error .outOfGas, s, { f with gas := 0 }⟩ := by
  obtain ⟨⟨e, stopped⟩, above⟩ := exhausted_of_lt_price short
  have spent : f.gas - (x.run s.branch f.meter).meter.used = 0 :=
    Nat.sub_eq_zero_of_le (Nat.le_of_lt above)
  simp only [execute_eq, stopped]
  simp [CallError.ofStop, Frame.settle, spent]

theorem checkBudget_eq (m : Method ω) :
    f.checkBudget m = if f.gas < m.gas then .error .outOfGas else .ok () := rfl

/-- A call gets as far as its operation if its input calls a method, the frame may call it and has the
gas for it, and the arguments can be read. -/
theorem decode_eq_ok {table : MethodTable ω} {m : Method ω} {args : Arguments} :
    decode table f readOnly = .ok (m, args) ↔
      table.find? f.input = some m ∧ ¬ (readOnly = true ∧ m.kind = .transaction) ∧ m.gas ≤ f.gas ∧
        Abi.decode m.inputs (f.input.drop 4) = .ok args := by
  simp only [decode, checkBudget_eq]
  cases found : table.find? f.input with
  | none => simp
  | some method =>
    simp only [Bool.and_eq_true, decide_eq_true_eq, Option.some.injEq]
    by_cases protect : readOnly = true ∧ method.kind = .transaction
    · simp only [if_pos protect, error_bind, reduceCtorEq, false_iff]
      rintro ⟨rfl, allowed, -⟩
      exact allowed protect
    · by_cases short : f.gas < method.gas
      · simp only [if_neg protect, if_pos short, error_bind, reduceCtorEq, false_iff]
        rintro ⟨rfl, -, enough, -⟩
        exact Nat.not_lt.mpr enough short
      · simp only [if_neg protect, if_neg short, ok_bind, bind_eq_ok, mapError_eq_ok, pure_eq_ok,
          Prod.mk.injEq]
        constructor
        · rintro ⟨_, read, rfl, rfl⟩
          exact ⟨rfl, protect, Nat.not_lt.mp short, read⟩
        · rintro ⟨rfl, -, -, read⟩
          exact ⟨args, read, rfl, rfl⟩

theorem requiredGas_le_of_decode {table : MethodTable ω} {m : Method ω} {args : Arguments}
    (h : decode table f readOnly = .ok (m, args)) : table.requiredGas f.input ≤ f.gas := by
  obtain ⟨found, -, enough, -⟩ := decode_eq_ok.mp h
  simpa [MethodTable.requiredGas, found] using enough

theorem lt_requiredGas_of_decode {table : MethodTable ω}
    (h : decode table f readOnly = .error .outOfGas) : f.gas < table.requiredGas f.input := by
  simp only [decode] at h
  simp only [MethodTable.requiredGas]
  cases found : table.find? f.input with
  | none => simp [found] at h
  | some method =>
    simp only [found, checkBudget_eq] at h
    split at h
    · cases h
    · split at h
      · assumption
      · cases read : Abi.decode method.inputs (f.input.drop 4) <;>
          simp [read, pure, Except.pure] at h

theorem requiredGas_le_of_operation (h : p.operation time f origin readOnly = .ok x) :
    p.requiredGas f.input ≤ f.gas := by
  cases p with
  | token t =>
    obtain ⟨⟨m, args⟩, read, -⟩ := map_eq_ok.mp h
    exact requiredGas_le_of_decode read
  | outpost o =>
    obtain ⟨⟨m, args⟩, read, -⟩ := map_eq_ok.mp h
    exact requiredGas_le_of_decode read

theorem lt_requiredGas_of_operation (h : p.operation time f origin readOnly = .error .outOfGas) :
    f.gas < p.requiredGas f.input := by
  cases p with
  | token t => exact lt_requiredGas_of_decode (map_eq_error.mp h)
  | outpost o => exact lt_requiredGas_of_decode (map_eq_error.mp h)

/-- The ways in which a call ends. -/
theorem run_cases (p : Precompile) (time : UInt64) (s : Store) (f : Frame) (origin : Address)
    (readOnly : Bool) :
    (∃ e, p.operation time f origin readOnly = .error e ∧
      p.run time s f origin readOnly = ⟨.error e, s, f⟩) ∨
    ∃ x, p.operation time f origin readOnly = .ok x ∧
      ((f.gas < price x s ∧
        p.run time s f origin readOnly = ⟨.error .outOfGas, s, { f with gas := 0 }⟩) ∨
      (price x s ≤ f.gas ∧
        ((∃ why, (x.perform s.branch).1 = .error why ∧
          p.run time s f origin readOnly = ⟨.error (.refused why), s, f⟩) ∨
        ∃ done, (x.perform s.branch).1 = .ok done ∧
          p.run time s f origin readOnly =
            ⟨.ok { done with gasUsed := price x s }, (x.perform s.branch).2.commit?.getD s,
              { f with gas := f.gas - price x s }⟩))) := by
  rw [run_eq]
  cases read : p.operation time f origin readOnly with
  | error e => exact .inl ⟨e, rfl, rfl⟩
  | ok x =>
    refine .inr ⟨x, rfl, ?_⟩
    by_cases short : f.gas < price x s
    · exact .inl ⟨short, execute_of_lt_price short⟩
    · have enough := Nat.not_lt.mp short
      refine .inr ⟨enough, ?_⟩
      cases ended : (x.perform s.branch).1 with
      | error why => exact .inl ⟨why, rfl, execute_of_failed enough ended⟩
      | ok done => exact .inr ⟨done, rfl, execute_of_done enough ended⟩

theorem store_of_run_error {e : CallError} (h : (p.run time s f origin readOnly).result = .error e) :
    (p.run time s f origin readOnly).store = s := by
  rcases run_cases p time s f origin readOnly with
    ⟨_, -, run⟩ | ⟨x, -, ⟨-, run⟩ | ⟨-, ⟨_, -, run⟩ | ⟨_, -, run⟩⟩⟩
  · rw [run]
  · rw [run]
  · rw [run]
  · rw [run] at h
    cases h

/-- What a call that succeeds leaves is what its operation gives on the store as it is read. -/
theorem gives_of_run {out : CallOutput} (h : (p.run time s f origin readOnly).result = .ok out) :
    ∃ x, p.operation time f origin readOnly = .ok x ∧
      x.Gives s.contents out.toCompleted (p.run time s f origin readOnly).store.contents := by
  rcases run_cases p time s f origin readOnly with
    ⟨_, -, run⟩ | ⟨x, read, ⟨-, run⟩ | ⟨-, ⟨_, -, run⟩ | ⟨done, ended, run⟩⟩⟩
  · rw [run] at h
    cases h
  · rw [run] at h
    cases h
  · rw [run] at h
    cases h
  · rw [run] at h
    cases h
    refine ⟨x, read, ?_⟩
    obtain ⟨kept, commit, view⟩ :=
      (perform_isBranchOf x (Store.isBranchOf_branch s)).commit
    have gives := gives_of_perform ended
    rw [Store.view_branch] at gives
    rw [run]
    simp only [commit, Option.getD_some, view]
    exact gives

/-- A call is refused for its input, or by its operation. -/
theorem operation_of_refused {why : Refusal}
    (h : (p.run time s f origin readOnly).result = .error (.refused why)) :
    p.operation time f origin readOnly = .error (.refused why) ∨
      ∃ x, p.operation time f origin readOnly = .ok x ∧
        (x.evaluate s.contents).1 = .error why := by
  rcases run_cases p time s f origin readOnly with
    ⟨e, unread, run⟩ | ⟨x, read, ⟨-, run⟩ | ⟨-, ⟨other, failed, run⟩ | ⟨done, -, run⟩⟩⟩
  · rw [run] at h
    cases h
    exact .inl unread
  · rw [run] at h
    cases h
  · rw [run] at h
    cases h
    have same := congrArg Prod.fst (perform_view x s.branch)
    rw [Store.view_branch] at same
    exact .inr ⟨x, read, same.symm.trans failed⟩
  · rw [run] at h
    cases h

theorem frame_of_run_error {e : CallError}
    (h : (p.run time s f origin readOnly).result = .error e) :
    (p.run time s f origin readOnly).frame =
      { f with gas := if e = .outOfGas ∧ p.requiredGas f.input ≤ f.gas then 0 else f.gas } := by
  rcases run_cases p time s f origin readOnly with
    ⟨why, unread, run⟩ | ⟨x, read, ⟨-, run⟩ | ⟨-, ⟨why, -, run⟩ | ⟨done, -, run⟩⟩⟩
  · rw [run] at h ⊢
    cases h
    have early : ¬ (e = .outOfGas ∧ p.requiredGas f.input ≤ f.gas) := by
      rintro ⟨rfl, enough⟩
      exact Nat.not_lt.mpr enough (lt_requiredGas_of_operation unread)
    rw [if_neg early]
  · rw [run] at h ⊢
    cases h
    rw [if_pos ⟨rfl, requiredGas_le_of_operation read⟩]
  · rw [run] at h ⊢
    cases h
    simp
  · rw [run] at h
    cases h

theorem paid_of_run_ok {out : CallOutput} (h : (p.run time s f origin readOnly).result = .ok out) :
    p.requiredGas f.input ≤ f.gas ∧ out.gasUsed ≤ f.gas ∧
    (p.run time s f origin readOnly).frame = { f with gas := f.gas - out.gasUsed } ∧
    ∃ x, p.operation time f origin readOnly = .ok x ∧
      out.gasUsed = (x.run s.branch f.meter).meter.used ∧
      out.gasUsed = min (x.cost s.branch) Meter.cap := by
  rcases run_cases p time s f origin readOnly with
    ⟨_, -, run⟩ | ⟨x, read, ⟨-, run⟩ | ⟨enough, ⟨_, -, run⟩ | ⟨done, -, run⟩⟩⟩
  · rw [run] at h
    cases h
  · rw [run] at h
    cases h
  · rw [run] at h
    cases h
  · rw [run] at h ⊢
    cases h
    refine ⟨requiredGas_le_of_operation read, enough, rfl, x, read, ?_, rfl⟩
    rw [run_of_price_le enough]

/-- Whatever an operation that came to its end has used, the frame has. -/
theorem pays_of_run_ok {done : Completed} (h : (x.run s.branch f.meter).result = .ok done) :
    (f.pay? (x.run s.branch f.meter).meter.used).isSome := by
  by_cases short : f.gas < price x s
  · obtain ⟨⟨e, stopped⟩, -⟩ := exhausted_of_lt_price short
    rw [stopped] at h
    cases h
  · rw [run_of_price_le (Nat.not_lt.mp short)]
    simp [Frame.pay?, short]

/-- A call that fails leaves the store as it was, and the gas unless the operation ran out of it, which
takes all. A call that succeeds takes from the frame just what the meter has counted. The frame can
always pay that. -/
theorem run_settles (p : Precompile) (time : UInt64) (s : Store) (f : Frame) (origin : Address)
    (readOnly : Bool) :
    (∀ e, (p.run time s f origin readOnly).result = .error e →
      (p.run time s f origin readOnly).store = s ∧
      (p.run time s f origin readOnly).frame =
        { f with gas := if e = .outOfGas ∧ p.requiredGas f.input ≤ f.gas then 0 else f.gas }) ∧
    (∀ out, (p.run time s f origin readOnly).result = .ok out →
      p.requiredGas f.input ≤ f.gas ∧ out.gasUsed ≤ f.gas ∧
      (p.run time s f origin readOnly).frame = { f with gas := f.gas - out.gasUsed } ∧
      ∃ x, p.operation time f origin readOnly = .ok x ∧
        out.gasUsed = (x.run s.branch f.meter).meter.used ∧
        out.gasUsed = min (x.cost s.branch) Meter.cap) ∧
    ∀ x done, p.operation time f origin readOnly = .ok x →
      (x.run s.branch f.meter).result = .ok done →
      (f.pay? (x.run s.branch f.meter).meter.used).isSome := by
  refine ⟨fun e failed => ?_, fun out succeeded => paid_of_run_ok succeeded, fun x done _ ended => ?_⟩
  · exact ⟨store_of_run_error failed, frame_of_run_error failed⟩
  · exact pays_of_run_ok ended

end LedgerBridge.Precompile
