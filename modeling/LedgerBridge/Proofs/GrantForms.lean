import LedgerBridge.Proofs.Authorizations
import LedgerBridge.Proofs.Mismatches

/-! The form of what is granted. Limits are in strict order of denominations, none is zero, and no list
of them is empty; what a message leaves of an authorization is of that form again. -/
namespace LedgerBridge

namespace Limits

/-- One limit for each denomination, in any order, and none that is zero. -/
structure Distinct (limits : Limits) : Prop where
  apart : limits.Pairwise (·.denom ≠ ·.denom)
  positive : ∀ coin ∈ limits, 0 < coin.amount

/-- One limit for each denomination, in order, and none that is zero. -/
structure Ordered (limits : Limits) : Prop where
  sorted : limits.Pairwise (·.denom < ·.denom)
  positive : ∀ coin ∈ limits, 0 < coin.amount

/-- Ordered limits, of which there is at least one. -/
structure Formed (limits : Limits) : Prop extends limits.Ordered where
  nonempty : limits ≠ []

variable {limits rest : Limits} {denom : String} {amount : Amount} {coin : Coin}
  {coins : List Coin} {e : LedgerError}

/-- Coins that are put in order are in the order of their denominations. -/
theorem sorted_mergeSort (coins : List Coin) :
    (coins.mergeSort fun a b => a.denom ≤ b.denom).Pairwise (·.denom ≤ ·.denom) := by
  have ordered : (coins.mergeSort fun a b => a.denom ≤ b.denom).Pairwise
      fun a b => decide (a.denom ≤ b.denom) = true := by
    apply List.pairwise_mergeSort
    · intro a b c first second
      simp only [decide_eq_true_eq] at first second ⊢
      exact String.le_trans first second
    · intro a b
      simp only [Bool.or_eq_true, decide_eq_true_eq]
      exact String.le_total a.denom b.denom
  exact ordered.imp of_decide_eq_true

/-- A limit that is set stands in its place in the order. -/
theorem sorted_set (sorted : limits.Pairwise (·.denom ≤ ·.denom)) (denom : String)
    (amount : Amount) : (limits.set denom amount).Pairwise (·.denom ≤ ·.denom) := by
  simp only [Limits.set]
  by_cases zero : amount = 0
  · rw [if_pos zero]
    exact sorted.filter _
  · rw [if_neg zero]
    exact sorted_mergeSort _

theorem Distinct.set (h : limits.Distinct) (denom : String) (amount : Amount) :
    (limits.set denom amount).Distinct := by
  simp only [Limits.set]
  by_cases zero : amount = 0
  · rw [if_pos zero]
    exact ⟨h.apart.filter _, fun coin member => h.positive coin (List.mem_filter.mp member).1⟩
  · rw [if_neg zero]
    constructor
    · have apart : List.Pairwise (fun a b : Coin => a.denom ≠ b.denom)
          (limits.filter (·.denom ≠ denom) ++ [Coin.mk denom amount]) := by
        refine List.pairwise_append.mpr ⟨h.apart.filter _, List.pairwise_singleton _ _, ?_⟩
        intro a member b last
        rw [List.mem_singleton.mp last]
        exact of_decide_eq_true (List.mem_filter.mp member).2
      exact (List.mergeSort_perm _ _).symm.pairwise apart fun different => different.symm
    · intro coin member
      simp only [List.mem_mergeSort, List.mem_append, List.mem_singleton] at member
      rcases member with other | rfl
      · exact h.positive coin (List.mem_filter.mp other).1
      · exact (BitVec.pos_iff_ne_zero amount).mpr zero

theorem ordered_iff :
    limits.Ordered ↔ limits.Distinct ∧ limits.Pairwise (·.denom ≤ ·.denom) := by
  constructor
  · intro h
    refine ⟨⟨h.sorted.imp ?_, h.positive⟩, h.sorted.imp fun less => String.not_lt.mp (String.lt_asymm less)⟩
    intro a b less same
    rw [same] at less
    exact String.lt_irrefl _ less
  · rintro ⟨distinct, sorted⟩
    refine ⟨(sorted.and distinct.apart).imp fun both => String.not_le.mp fun le => both.2 ?_,
      distinct.positive⟩
    exact String.le_antisymm both.1 le

theorem Ordered.set (h : limits.Ordered) (denom : String) (amount : Amount) :
    (limits.set denom amount).Ordered := by
  obtain ⟨distinct, sorted⟩ := ordered_iff.mp h
  exact ordered_iff.mpr ⟨distinct.set denom amount, sorted_set sorted denom amount⟩

theorem Ordered.spend (h : limits.Ordered) (spent : limits.spend coin = .ok rest) : rest.Ordered := by
  obtain ⟨-, rfl⟩ := spend_eq_ok.mp spent
  exact h.set _ _

theorem Ordered.spendAll (h : limits.Ordered)
    (spent : limits.spendAll coins = .ok rest) : rest.Ordered := by
  induction coins generalizing limits with
  | nil => cases spent; exact h
  | cons coin coins ih =>
    simp only [Limits.spendAll, List.foldlM_cons, bind_eq_ok] at spent
    obtain ⟨between, first, more⟩ := spent
    exact ih (h.spend first) more

/-- A limit that is found is the only one of its denomination. -/
theorem Ordered.filter_eq_of_limit? (h : limits.Ordered) (found : limits.limit? denom = some amount) :
    limits.filter (·.denom = denom) = [⟨denom, amount⟩] := by
  have same : ∀ coin ∈ limits.filter (·.denom = denom), coin.denom = denom :=
    fun coin member => of_decide_eq_true (List.mem_filter.mp member).2
  have sorted := h.sorted.filter (·.denom = denom)
  simp only [limit?, ← List.head?_filter] at found
  rcases shape : limits.filter (·.denom = denom) with _ | ⟨first, _ | ⟨second, more⟩⟩
  · simp [shape] at found
  · rw [shape] at found same
    obtain ⟨name, n⟩ := first
    cases List.forall_mem_singleton.mp same
    cases found
    exact shape
  · rw [shape] at same sorted
    have less := (List.pairwise_cons.mp sorted).1 second List.mem_cons_self
    rw [same first List.mem_cons_self,
      same second (List.mem_cons_of_mem _ List.mem_cons_self)] at less
    exact absurd less (String.lt_irrefl _)

theorem formed_singleton (positive : 0 < amount) : Formed [⟨denom, amount⟩] where
  sorted := List.pairwise_singleton _ _
  positive := List.forall_mem_singleton.mpr positive
  nonempty := List.cons_ne_nil _ _

theorem not_isMismatch_of_spend (h : limits.spend coin = .error e) :
    ¬ e.IsMismatch := by
  simp only [spend] at h
  split at h
  · cases h
    rintro ⟨_, ⟨⟩, -⟩
  · cases h

theorem not_isMismatch_of_spendAll (h : limits.spendAll coins = .error e) : ¬ e.IsMismatch := by
  induction coins generalizing limits with
  | nil => cases h
  | cons coin coins ih =>
    simp only [spendAll, List.foldlM_cons] at h
    cases spent : limits.spend coin with
    | error why =>
      rw [spent] at h
      cases h
      exact not_isMismatch_of_spend spent
    | ok rest =>
      rw [spent] at h
      exact ih h

end Limits

namespace Allocation

variable {allocations left : List Allocation} {port channel receiver : String} {token : Coin}
  {a b : Allocation} {e : LedgerError}

theorem formed_of_spend (formed : a.limits.Formed)
    (h : a.spend token receiver = .ok (some b)) : b.limits.Formed := by
  obtain ⟨-, rest, spent, kept⟩ := spend_eq_ok.mp h
  split at kept
  · cases kept
  · rename_i nonempty
    cases kept
    exact ⟨formed.toOrdered.spend spent, nonempty⟩

theorem formed_of_spendFirst (formed : ∀ a ∈ allocations, a.limits.Formed)
    (h : spendFirst port channel token receiver allocations = .ok left) :
    ∀ a ∈ left, a.limits.Formed := by
  obtain ⟨before, a, after, taken, rfl, -, -, spent, rfl⟩ := exists_of_spendFirst h
  intro b member
  simp only [List.mem_append, List.mem_cons] at formed
  simp only [List.mem_append, Option.mem_toList] at member
  rcases member with (first | rfl) | last
  · exact formed b (.inl first)
  · exact formed_of_spend (formed a (.inr (.inl rfl))) spent
  · exact formed b (.inr (.inr last))

theorem not_isMismatch_of_spend (h : a.spend token receiver = .error e) :
    ¬ e.IsMismatch := by
  simp only [spend] at h
  split at h
  · cases h
    rintro ⟨_, ⟨⟩, -⟩
  · exact Limits.not_isMismatch_of_spend (bind_pure_eq_error.mp h)

theorem not_isMismatch_of_spendFirst
    (h : spendFirst port channel token receiver allocations = .error e) : ¬ e.IsMismatch := by
  induction allocations with
  | nil =>
    cases h
    rintro ⟨_, ⟨⟩, -⟩
  | cons a rest ih =>
    simp only [spendFirst] at h
    split at h
    · exact not_isMismatch_of_spend (bind_pure_eq_error.mp h)
    · exact ih (bind_pure_eq_error.mp h)

end Allocation

namespace Authorization

/-- The lists of limits that an authorization consists of. -/
def limits : Authorization → List Limits
  | send limits => [limits]
  | transfer allocations => allocations.map Allocation.limits

/-- There is something to spend, and all limits are formed. -/
def Formed : Authorization → Prop
  | send limits => limits.Formed
  | transfer allocations => allocations ≠ [] ∧ ∀ a ∈ allocations, a.limits.Formed

variable {a b : Authorization} {m : Message}

theorem Formed.each (h : a.Formed) : ∀ limits ∈ a.limits, limits.Formed := by
  cases a with
  | send limits => exact List.forall_mem_singleton.mpr h
  | transfer allocations => exact List.forall_mem_map.mpr h.2

theorem formed_of_accept (formed : a.Formed) (h : a.accept m = .ok (some b)) : b.Formed := by
  cases m with
  | send m =>
    obtain ⟨limits, rest, rfl, spent, kept⟩ := accept_send_eq_ok.mp h
    split at kept
    · cases kept
    · rename_i nonempty
      cases kept
      exact ⟨Limits.Ordered.spendAll formed.toOrdered spent, nonempty⟩
  | transfer m =>
    obtain ⟨allocations, rest, rfl, spent, kept⟩ := accept_transfer_eq_ok.mp h
    split at kept
    · cases kept
    · rename_i nonempty
      cases kept
      exact ⟨nonempty, Allocation.formed_of_spendFirst formed.2 spent⟩

/-- A message of the authorization's type is not refused for its type. -/
theorem not_isMismatch_of_accept {e : LedgerError} (type : a.messageType = m.type)
    (h : a.accept m = .error e) : ¬ e.IsMismatch := by
  cases a with
  | send limits =>
    cases m with
    | send m =>
      exact Limits.not_isMismatch_of_spendAll (bind_pure_eq_error.mp h)
    | transfer m =>
      have apart : Message.sendType ≠ Message.transferType := by decide
      exact absurd type apart
  | transfer allocations =>
    cases m with
    | send m =>
      have apart : Message.transferType ≠ Message.sendType := by decide
      exact absurd type apart
    | transfer m =>
      exact Allocation.not_isMismatch_of_spendFirst (bind_pure_eq_error.mp h)

end Authorization

end LedgerBridge
