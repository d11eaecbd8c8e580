import LedgerBridge.Proofs.VmMirror

/-! What an output does to the virtual machine. Its changes are made one after another, each on the
balance that those before it have led to, and the output is refused as a whole at the first that leads
to no amount. It makes no difference whether changes are made at once or put aside until all are known
to be good. -/
namespace LedgerBridge

/-- A whole number that can be a balance. -/
def Amount.Holds (n : Int) : Prop := 0 ≤ n ∧ n < Amount.size

namespace BalanceChange

def delta (c : BalanceChange) : Int :=
  match c.direction with
  | .add => c.amount.toNat
  | .sub => -(c.amount.toNat : Int)

/-- What changes mean for an account. -/
def totalOn (account : Address) : List BalanceChange → Int
  | [] => 0
  | c :: rest => (if c.address = account then c.delta else 0) + totalOn account rest

def outOfRange (c : BalanceChange) : Refusal :=
  .invalidInput s!"balance change of {c.signed} on {c.address.text} out of range"

/-- The balance that a change leads to. -/
def next (c : BalanceChange) (current : Amount) : Except Refusal Amount :=
  let next? := match c.direction with
    | .add => current.plus? c.amount
    | .sub => current.minus? c.amount
  match next? with
  | some next => .ok next
  | none => .error c.outOfRange

variable {c : BalanceChange} {account : Address} {changes : List BalanceChange}

@[simp] theorem totalOn_nil : totalOn account [] = 0 := rfl

@[simp] theorem totalOn_cons :
    totalOn account (c :: changes) =
      (if c.address = account then c.delta else 0) + totalOn account changes := rfl

/-- A change leads to the whole number that it should, if that is an amount. -/
theorem next_cases (c : BalanceChange) (current : Amount) :
    (∃ n, c.next current = .ok n ∧ (n.toNat : Int) = current.toNat + c.delta) ∨
      c.next current = .error c.outOfRange ∧ ¬ Amount.Holds (current.toNat + c.delta) := by
  obtain ⟨account, amount, direction⟩ := c
  cases direction with
  | add =>
    simp only [next, delta, Amount.Holds]
    cases sum : current.plus? amount with
    | some n =>
      have same := Amount.ofNat?_eq_some_iff.mp sum
      exact .inl ⟨n, rfl, by omega⟩
    | none =>
      have beyond : ¬ current.toNat + amount.toNat < Amount.size := by
        intro within
        simp [Amount.plus?, Amount.ofNat?, within] at sum
      exact .inr ⟨rfl, by omega⟩
  | sub =>
    simp only [next, delta, Amount.Holds]
    by_cases enough : amount ≤ current
    · have covered : amount.toNat ≤ current.toNat := BitVec.le_def.mp enough
      simp only [Amount.minus?, if_pos enough]
      exact .inl ⟨_, rfl, by rw [Amount.toNat_minus]; omega⟩
    · have short : ¬ amount.toNat ≤ current.toNat := fun le => enough (BitVec.le_def.mpr le)
      simp only [Amount.minus?, if_neg enough]
      exact .inr ⟨trivial, by omega⟩

end BalanceChange

namespace VmState

open BalanceChange

/-- What an account has after changes, if any whole number may be a balance. -/
def balanceAfter (vm : VmState) (changes : List BalanceChange) (account : Address) : Int :=
  (vm.balance account).toNat + totalOn account changes

/-- However many of the changes are made, every account is left with an amount. -/
def Bears (vm : VmState) (changes : List BalanceChange) : Prop :=
  ∀ n account, Amount.Holds (vm.balanceAfter (changes.take n) account)

/-- What changes make of the balances. -/
structure Follows (vm : VmState) (changes : List BalanceChange) (next : VmState) : Prop where
  balance : ∀ account, ((next.balance account).toNat : Int) = vm.balanceAfter changes account
  others : ∀ key, (∀ c ∈ changes, c.address.bytes ≠ key) →
    next.balances.get? key = vm.balances.get? key
  logs : next.logs = vm.logs

/-- The changes in front can be made, but the next one cannot. -/
structure StopsAt (vm : VmState) (changes taken : List BalanceChange) (c : BalanceChange)
    (more : List BalanceChange) : Prop where
  split : changes = taken ++ c :: more
  borne : vm.Bears taken
  beyond : ¬ Amount.Holds (vm.balanceAfter (taken ++ [c]) c.address)

variable {vm between final : VmState} {changes taken more : List BalanceChange} {c : BalanceChange}
  {n : Amount}

theorem holds_balance (vm : VmState) (account : Address) :
    Amount.Holds (vm.balanceAfter [] account) := by
  have bound : (vm.balance account).toNat < Amount.size := (vm.balance account).isLt
  simp only [balanceAfter, totalOn_nil, Amount.Holds]
  omega

theorem bears_nil : vm.Bears [] := fun n account => by
  rw [List.take_nil]
  exact vm.holds_balance account

theorem applyChange_eq (vm : VmState) (c : BalanceChange) :
    vm.applyChange c = (c.next (vm.balance c.address)).map (vm.setBalance c.address) := by
  obtain ⟨account, amount, direction⟩ := c
  simp only [applyChange, next]
  cases direction with
  | add => cases (vm.balance account).plus? amount <;> rfl
  | sub => cases (vm.balance account).minus? amount <;> rfl

/-- After a change, what the others lead to is what they lead to with it in front. -/
theorem balanceAfter_setBalance (moved : (n.toNat : Int) = (vm.balance c.address).toNat + c.delta)
    (changes : List BalanceChange) (account : Address) :
    (vm.setBalance c.address n).balanceAfter changes account =
      vm.balanceAfter (c :: changes) account := by
  simp only [balanceAfter, balance_setBalance, totalOn_cons]
  split
  · rename_i same
    rw [← same]
    omega
  · omega

theorem Bears.cons (moved : (n.toNat : Int) = (vm.balance c.address).toNat + c.delta)
    (h : (vm.setBalance c.address n).Bears changes) : vm.Bears (c :: changes) := by
  rintro (_ | k) account
  · exact vm.holds_balance account
  · rw [List.take_succ_cons, ← balanceAfter_setBalance moved]
    exact h k account

theorem Follows.cons (moved : (n.toNat : Int) = (vm.balance c.address).toNat + c.delta)
    (h : (vm.setBalance c.address n).Follows changes final) : vm.Follows (c :: changes) final where
  balance account := by rw [h.balance account, balanceAfter_setBalance moved]
  others key apart := by
    obtain ⟨first, rest⟩ := List.forall_mem_cons.mp apart
    rw [h.others key rest, setBalance]
    simp only [ByteMap.get?_insert, if_neg first]
  logs := h.logs

theorem StopsAt.cons {d : BalanceChange}
    (moved : (n.toNat : Int) = (vm.balance c.address).toNat + c.delta)
    (h : (vm.setBalance c.address n).StopsAt changes taken d more) :
    vm.StopsAt (c :: changes) (c :: taken) d more where
  split := by rw [h.split, List.cons_append]
  borne := h.borne.cons moved
  beyond := by
    rw [List.cons_append, ← balanceAfter_setBalance moved]
    exact h.beyond

theorem StopsAt.not_bears (h : vm.StopsAt changes taken c more) : ¬ vm.Bears changes := by
  intro bears
  have through := bears (taken.length + 1) c.address
  rw [h.split, List.take_length_add_append, List.take_succ_cons, List.take_zero] at through
  exact h.beyond through

/-- The two ways in which making changes ends. -/
theorem foldlM_applyChange_cases (vm : VmState) (changes : List BalanceChange) :
    (∃ final, changes.foldlM applyChange vm = .ok final ∧ vm.Bears changes ∧
      vm.Follows changes final) ∨
    ∃ taken c more, vm.StopsAt changes taken c more ∧
      changes.foldlM applyChange vm = .error c.outOfRange := by
  induction changes generalizing vm with
  | nil =>
    refine .inl ⟨vm, rfl, bears_nil, ?_, fun _ _ => rfl, rfl⟩
    intro account
    simp [balanceAfter]
  | cons c changes ih =>
    rw [List.foldlM_cons, applyChange_eq]
    rcases c.next_cases (vm.balance c.address) with ⟨n, goes, moved⟩ | ⟨stops, beyond⟩
    · rw [goes, map_ok, ok_bind]
      rcases ih (vm.setBalance c.address n) with
        ⟨final, ends, bears, follows⟩ | ⟨taken, d, more, stops, ends⟩
      · exact .inl ⟨final, ends, bears.cons moved, follows.cons moved⟩
      · exact .inr ⟨c :: taken, d, more, stops.cons moved, ends⟩
    · rw [stops, map_error, error_bind]
      refine .inr ⟨[], c, changes, ⟨rfl, bears_nil, ?_⟩, rfl⟩
      simpa [balanceAfter] using beyond

/-! Changes that are put aside. -/

/-- The balance that is put aside, or else the one that is there. -/
def stagedBalance (vm : VmState) (staged : ByteMap Amount) (account : Address) : Amount :=
  (staged.get? account.bytes).getD (vm.balance account)

/-- Puts the balance aside that a change leads to. -/
def stage (staged : ByteMap Amount) (c : BalanceChange) :
    EStateM Refusal VmState (ByteMap Amount) := do
  match c.next ((← get).stagedBalance staged c.address) with
  | .ok n => return staged.insert c.address.bytes n
  | .error e => throw e

/-- Puts what is aside in place. -/
def merge (vm : VmState) (staged : ByteMap Amount) : VmState :=
  { vm with balances := staged.toList.foldl (fun m p => m.insert p.1 p.2) vm.balances }

/-- Takes an output in place. The state is not touched before the last change is put aside. -/
def receive (output : CallOutput) : EStateM Refusal VmState Unit := do
  let staged ← output.changes.foldlM stage ∅
  modify (·.merge staged)
  modify fun vm => { vm with logs := vm.logs ++ output.logs }

theorem get?_merge (vm : VmState) (staged : ByteMap Amount) (key : Bytes) :
    (vm.merge staged).balances.get? key = (staged.get? key).or (vm.balances.get? key) := by
  rw [merge, ByteMap.get?_foldl_insert, ByteMap.ofList_toList]

theorem balance_merge (vm : VmState) (staged : ByteMap Amount) (account : Address) :
    (vm.merge staged).balance account = vm.stagedBalance staged account := by
  rw [balance, get?_merge, stagedBalance, balance]
  cases staged.get? account.bytes <;> rfl

theorem merge_insert (vm : VmState) (staged : ByteMap Amount) (account : Address) (n : Amount) :
    vm.merge (staged.insert account.bytes n) = (vm.merge staged).setBalance account n := by
  have balances : (vm.merge (staged.insert account.bytes n)).balances =
      ((vm.merge staged).setBalance account n).balances := by
    ext1 key
    simp only [setBalance, get?_merge, ByteMap.get?_insert]
    split <;> rfl
  exact congrArg (VmState.mk · vm.logs) balances

theorem run_stage (vm : VmState) (staged : ByteMap Amount) (c : BalanceChange) :
    (stage staged c).run vm =
      match c.next (vm.stagedBalance staged c.address) with
      | .ok n => .ok (staged.insert c.address.bytes n) vm
      | .error e => .error e vm := by
  simp only [stage, EStateM.run_bind, EStateM.run_get]
  cases c.next (vm.stagedBalance staged c.address) <;> rfl

/-- Changes that are put aside lead to what they lead to when they are made at once. -/
theorem foldlM_stage (vm : VmState) (changes : List BalanceChange) (staged : ByteMap Amount) :
    match changes.foldlM applyChange (vm.merge staged) with
    | .ok final =>
      ∃ all, (changes.foldlM stage staged).run vm = .ok all vm ∧ vm.merge all = final
    | .error e => (changes.foldlM stage staged).run vm = .error e vm := by
  induction changes generalizing staged with
  | nil => exact ⟨staged, rfl, rfl⟩
  | cons c changes ih =>
    rw [List.foldlM_cons, List.foldlM_cons, EStateM.run_bind, run_stage, applyChange_eq,
      balance_merge]
    cases c.next (vm.stagedBalance staged c.address) with
    | error e => rfl
    | ok n =>
      rw [map_ok, ok_bind, ← merge_insert]
      exact ih _

theorem receive_eq (vm : VmState) (output : CallOutput) :
    (receive output).run vm =
      match vm.apply output with
      | .ok final => .ok () final
      | .error e => .error e vm := by
  have made := vm.foldlM_stage output.changes ∅
  have nothing : vm.merge ∅ = vm := rfl
  rw [nothing] at made
  rw [receive, apply, EStateM.run_bind]
  cases ends : output.changes.foldlM applyChange vm with
  | error e =>
    rw [ends] at made
    simp only at made
    rw [made]
    rfl
  | ok final =>
    rw [ends] at made
    obtain ⟨all, put, rfl⟩ := made
    rw [put]
    rfl

/-- An output is accepted exactly if, change after change, every account is left with an amount. Then
each account has what its changes add up to, and accounts without one have what they had; the logs are
added behind those that were there. Otherwise the first change that leads to no amount is to blame. And
an output taken in place is taken whole or, if it is refused, not at all. -/
theorem apply_exactly (vm : VmState) (output : CallOutput) :
    ((∃ final, vm.apply output = .ok final) ↔ vm.Bears output.changes) ∧
    (∀ final, vm.apply output = .ok final →
      (∀ account, ((final.balance account).toNat : Int) =
        vm.balanceAfter output.changes account) ∧
      (∀ key, (∀ c ∈ output.changes, c.address.bytes ≠ key) →
        final.balances.get? key = vm.balances.get? key) ∧
      final.logs = vm.logs ++ output.logs) ∧
    (∀ e, vm.apply output = .error e →
      ∃ taken c more, vm.StopsAt output.changes taken c more ∧ e = c.outOfRange) ∧
    (receive output).run vm =
      match vm.apply output with
      | .ok final => .ok () final
      | .error e => .error e vm := by
  refine ⟨?_, ?_, ?_, vm.receive_eq output⟩
  all_goals
    rw [apply]
    rcases vm.foldlM_applyChange_cases output.changes with
      ⟨final, ends, bears, follows⟩ | ⟨taken, c, more, stops, ends⟩
    all_goals rw [ends]
  · exact iff_of_true ⟨_, rfl⟩ bears
  · refine iff_of_false ?_ stops.not_bears
    rintro ⟨_, ⟨⟩⟩
  · rintro _ ⟨⟩
    exact ⟨follows.balance, follows.others, congrArg (· ++ output.logs) follows.logs⟩
  · rintro _ ⟨⟩
  · rintro _ ⟨⟩
  · rintro _ ⟨⟩
    exact ⟨taken, c, more, stops, rfl⟩

/-- Changes that would even out are refused where the first of them finds too little. -/
example : empty.apply ⟨⟨[], [], [⟨.zero, 5, .sub⟩, ⟨.zero, 5, .add⟩]⟩, 0⟩ =
    .error (.invalidInput
      "balance change of -5 on 0x0000000000000000000000000000000000000000 out of range") := rfl

end VmState

end LedgerBridge
