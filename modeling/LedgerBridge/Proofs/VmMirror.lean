import LedgerBridge.Proofs.Operations
import LedgerBridge.Proofs.Settlement
import LedgerBridge.Vm

/-! The virtual machine's copy of native balances. If it agrees with the ledger, it agrees again after
any calls whose outputs it is given, and none of them is refused. -/
namespace LedgerBridge

namespace Movement

/-- What of a movement the virtual machine is told: both sides of it, or nothing if the coin is not of
its denomination. -/
theorem changes_journal_eq (m : Movement) (evmDenom : String) :
    (m.journal evmDenom).changes =
      if evmDenom = m.coin.denom then
        m.source.toList.map (⟨·, m.coin.amount, .sub⟩) ++
          m.target.toList.map (⟨·, m.coin.amount, .add⟩)
      else [] := by
  obtain ⟨coin, source, target⟩ := m
  by_cases same : evmDenom = coin.denom <;> cases source <;> cases target <;>
    simp [journal, Journal.debit, Journal.credit, Journal.record, Journal.tracks, Journal.new, same]

end Movement

namespace VmState

variable {vm : VmState} {a b : Address} {n : Amount}

@[simp] theorem balance_setBalance :
    (vm.setBalance a n).balance b = if a = b then n else vm.balance b := by
  simp only [setBalance, balance]
  simp only [ByteMap.get?_insert]
  by_cases same : a = b
  · simp [same]
  · have apart : a.bytes ≠ b.bytes := fun bytes => same (Address.ext bytes)
    simp [same, apart]

theorem applyChange_sub (enough : n.toNat ≤ (vm.balance a).toNat) :
    vm.applyChange ⟨a, n, .sub⟩ = .ok (vm.setBalance a ((vm.balance a).minus n)) := by
  have le : n ≤ vm.balance a := BitVec.le_def.mpr enough
  simp [applyChange, Amount.minus?, le]

theorem applyChange_add {total : Amount} (sum : total.toNat = (vm.balance a).toNat + n.toNat) :
    vm.applyChange ⟨a, n, .add⟩ = .ok (vm.setBalance a total) := by
  have plus : (vm.balance a).plus? n = some total := Amount.ofNat?_eq_some_iff.mpr sum
  simp [applyChange, plus]

/-- The copy shows for every account what the account holds on the map. -/
def Mirrors (vm : VmState) (denom : String) (v : Contents) : Prop :=
  ∀ owner, vm.balance owner = v.balance owner denom

variable {v w : Contents} {coin : Coin} {source target : Option Address}

/-- The first half of a movement is applied to a copy that shows enough for it. -/
theorem debit_applies (covered : ∀ owner, source = some owner →
      coin.amount.toNat ≤ (vm.balance owner).toNat) :
    ∃ next, (source.toList.map (⟨·, coin.amount, .sub⟩)).foldlM applyChange vm = .ok next ∧
      ∀ owner, (next.balance owner).toNat + coin.share source owner coin.denom =
        (vm.balance owner).toNat := by
  cases source with
  | none => exact ⟨vm, rfl, fun owner => by simp [Coin.share]⟩
  | some payer =>
    have enough := covered payer rfl
    refine ⟨_, by simp [applyChange_sub enough]; rfl, fun owner => ?_⟩
    by_cases same : payer = owner
    · subst same
      simp [Coin.share, enough]
    · simp [Coin.share, same]

/-- The second half is applied if the sum is an amount. -/
theorem credit_applies {after : Address → Amount} (sum : ∀ owner, (after owner).toNat =
      (vm.balance owner).toNat + coin.share target owner coin.denom) :
    ∃ next, (target.toList.map (⟨·, coin.amount, .add⟩)).foldlM applyChange vm = .ok next ∧
      ∀ owner, next.balance owner = after owner := by
  cases target with
  | none =>
    refine ⟨vm, rfl, fun owner => ?_⟩
    have same := sum owner
    simp only [Coin.share, reduceCtorEq, false_and, if_false, Nat.add_zero] at same
    exact BitVec.eq_of_toNat_eq same.symm
  | some payee =>
    have total : (after payee).toNat = (vm.balance payee).toNat + coin.amount.toNat := by
      simpa [Coin.share] using sum payee
    refine ⟨_, by simp [applyChange_add total]; rfl, fun owner => ?_⟩
    by_cases same : payee = owner
    · subst same
      simp
    · have kept := sum owner
      simp only [Coin.share, Option.some.injEq, same, false_and, if_false, Nat.add_zero] at kept
      simp [same, BitVec.eq_of_toNat_eq kept]

/-- What is reported of a movement brings the copy to where the movement brings the map. -/
theorem mirrors_of_explains {m : Movement} {evmDenom : String} {done : Completed}
    (mirror : vm.Mirrors evmDenom v) (h : m.Explains evmDenom v done w) :
    ∃ next, done.changes.foldlM applyChange vm = .ok next ∧ next.Mirrors evmDenom w := by
  obtain ⟨coin, source, target⟩ := m
  obtain ⟨moved, changes⟩ := h
  rw [changes, Movement.changes_journal_eq]
  by_cases native : evmDenom = coin.denom
  · subst native
    have covered (owner : Address) (pays : source = some owner) :
        coin.amount.toNat ≤ (vm.balance owner).toNat := by
      rw [mirror owner]
      exact moved.covered owner pays
    obtain ⟨between, debited, less⟩ := debit_applies covered
    have sum (owner : Address) : (w.balance owner coin.denom).toNat =
        (between.balance owner).toNat + coin.share target owner coin.denom := by
      have total := moved.balance owner coin.denom
      have first := less owner
      rw [mirror owner] at first
      simp only at total
      omega
    obtain ⟨next, credited, shown⟩ := credit_applies sum
    refine ⟨next, ?_, shown⟩
    rw [if_pos rfl, List.foldlM_append]
    simp only [debited, ok_bind]
    exact credited
  · refine ⟨vm, by simp [native], fun owner => ?_⟩
    have same := moved.balance owner evmDenom
    simp only [Coin.share, Ne.symm native, and_false, if_false, Nat.add_zero] at same
    rw [mirror owner]
    exact BitVec.eq_of_toNat_eq same.symm

end VmState

namespace Precompile

theorem atRest_or_explains {p : Precompile} {time : UInt64} {f : Frame} {origin : Address}
    {readOnly : Bool} {x : Action Completed} {v w : Contents} {done : Completed}
    (read : p.operation time f origin readOnly = .ok x) (h : x.Gives v done w) :
    v.AtRest done w ∨ ∃ m : Movement, m.Explains p.evmDenom v done w := by
  cases p with
  | token t =>
    obtain ⟨⟨m, args⟩, -, rfl⟩ := map_eq_ok.mp read
    rcases TokenContract.atRest_or_explains h with rest | ⟨m, -, explains, -⟩
    · exact .inl rest
    · exact .inr ⟨m, explains⟩
  | outpost o =>
    obtain ⟨⟨⟨op, signature, inputs, kind, gas⟩, args⟩, -, rfl⟩ := map_eq_ok.mp read
    cases op
    obtain ⟨_, _, _, -, -, -, explains, -⟩ := Outpost.explains_swap h
    exact .inr ⟨_, explains⟩

end Precompile

namespace Request

/-- Makes a call, and gives its output to the virtual machine if it succeeds. -/
def serve (state : Store × VmState) (q : Request) : Except Refusal (Store × VmState) := do
  let r := q.precompile.run q.time state.1 q.frame q.origin q.readOnly
  match r.result with
  | .ok out => return (r.store, ← state.2.apply out)
  | .error _ => return (r.store, state.2)

variable {s : Store} {vm : VmState} {denom : String}

/-- One call keeps the copy equal to the ledger. -/
theorem serve_mirrors (q : Request) (native : q.precompile.evmDenom = denom)
    (mirror : vm.Mirrors denom s.contents) :
    ∃ s' vm', serve (s, vm) q = .ok (s', vm') ∧ vm'.Mirrors denom s'.contents := by
  unfold serve
  cases ended : (q.precompile.run q.time s q.frame q.origin q.readOnly).result with
  | error e =>
    refine ⟨_, vm, by simp only [ended]; rfl, ?_⟩
    rw [Precompile.store_of_run_error ended]
    exact mirror
  | ok out =>
    obtain ⟨x, read, gives⟩ := Precompile.gives_of_run ended
    have applied : ∃ next, out.changes.foldlM VmState.applyChange vm = .ok next ∧
        next.Mirrors denom
          (q.precompile.run q.time s q.frame q.origin q.readOnly).store.contents := by
      rcases Precompile.atRest_or_explains read gives with rest | ⟨m, explains⟩
      · refine ⟨vm, by rw [rest.changes]; rfl, fun owner => ?_⟩
        rw [rest.balance]
        exact mirror owner
      · rw [native] at explains
        exact VmState.mirrors_of_explains mirror explains
    obtain ⟨next, changed, shown⟩ := applied
    refine ⟨_, { next with logs := next.logs ++ out.logs }, ?_, shown⟩
    simp [ended, VmState.apply, changed, pure, Except.pure]

theorem serveAll_mirrors (requests : List Request)
    (native : ∀ q ∈ requests, q.precompile.evmDenom = denom)
    (mirror : vm.Mirrors denom s.contents) :
    ∃ s' vm', requests.foldlM serve (s, vm) = .ok (s', vm') ∧ vm'.Mirrors denom s'.contents := by
  induction requests generalizing s vm with
  | nil => exact ⟨s, vm, rfl, mirror⟩
  | cons q rest ih =>
    obtain ⟨head, tail⟩ := List.forall_mem_cons.mp native
    obtain ⟨s₁, vm₁, first, mirror₁⟩ := serve_mirrors q head mirror
    obtain ⟨s₂, vm₂, others, mirror₂⟩ := ih tail mirror₁
    refine ⟨s₂, vm₂, ?_, mirror₂⟩
    simp only [List.foldlM_cons, first, ok_bind]
    exact others

/-- Whatever calls are made to precompiles of one native denomination, after each of them the copy
shows for every account what the ledger does, and no output was refused. -/
theorem mirrors_after_each_call (set : PrecompileSet) (denom : String) (s : Store) (vm : VmState)
    (requests : List Request) (native : ∀ p ∈ set.list, p.evmDenom = denom)
    (members : ∀ q ∈ requests, q.precompile ∈ set.list)
    (mirror : ∀ owner, vm.balance owner = s.contents.balance owner denom) (n : Nat) :
    ∃ s' vm', (requests.take n).foldlM serve (s, vm) = .ok (s', vm') ∧
      ∀ owner, vm'.balance owner = s'.contents.balance owner denom := by
  apply serveAll_mirrors (requests.take n) _ mirror
  intro q member
  exact native _ (members q (List.mem_of_mem_take member))

/-- An account that holds native tokens transfers five of them. -/
def ofHolder (holder : Address) : Request where
  precompile := .token ⟨⟨.zero, "abridge", true, none⟩, ⟨"abridge", "Bridge", "BRIDGE", 18⟩,
    "abridge", 0⟩
  time := 0
  frame := ⟨holder, [0xA9, 0x05, 0x9C, 0xBB] ++ List.replicate 31 0 ++ [1] ++ List.replicate 31 0 ++
    [5], 3000000⟩
  origin := holder
  readOnly := false

theorem mirrors_after_call_of_holder :
    ∃ s' vm', ([ofHolder ⟨List.replicate 20 7, rfl⟩].take 1).foldlM serve
        (⟨Contents.setBalance ∅ ⟨List.replicate 20 7, rfl⟩ "abridge" 1000, []⟩,
          VmState.empty.setBalance ⟨List.replicate 20 7, rfl⟩ 1000) = .ok (s', vm') ∧
      ∀ owner, vm'.balance owner = s'.contents.balance owner "abridge" := by
  apply mirrors_after_each_call
    (ByteMap.insert ∅ Address.zero.bytes (ofHolder ⟨List.replicate 20 7, rfl⟩).precompile)
  · intro p member
    cases List.mem_singleton.mp member
    rfl
  · intro q member
    cases List.mem_singleton.mp member
    exact List.mem_singleton.mpr rfl
  · intro owner
    show _ = Contents.balance (Contents.setBalance ∅ _ "abridge" 1000) owner "abridge"
    have nothing : Contents.balance ∅ owner "abridge" = 0 := rfl
    have unloaded : VmState.empty.balance owner = 0 := rfl
    simp [nothing, unloaded]

end Request

end LedgerBridge
