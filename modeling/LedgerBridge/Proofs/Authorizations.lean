import LedgerBridge.Proofs.Codecs

/-! What accepting a message leaves of an authorization. The limit of the spent denomination falls by
what is spent, and what is left takes no more room than what was there. -/
namespace LedgerBridge

theorem find?_eq_some_of_unique {items : List α} {test : α → Bool} {a : α} (member : a ∈ items)
    (passes : test a) (unique : ∀ b ∈ items, test b → b = a) : items.find? test = some a := by
  cases found : items.find? test with
  | none => exact absurd passes (List.find?_eq_none.mp found a member)
  | some b =>
    have same := unique b (List.mem_of_find?_eq_some found) (List.find?_some found)
    rw [same]

theorem Amount.minus_ne_zero {a b : Amount} (h : a.minus b ≠ 0) : a ≠ 0 := by
  rintro rfl
  apply h
  apply BitVec.eq_of_toNat_eq
  simp

namespace Limits

variable {limits rest : Limits} {denom : String} {coin : Coin}

theorem limit?_set_same (limits : Limits) (denom : String) (amount : Amount) :
    (limits.set denom amount).limit? denom = if amount = 0 then none else some amount := by
  simp only [Limits.set]
  by_cases zero : amount = 0
  · rw [if_pos zero, if_pos zero]
    simp [limit?]
  · rw [if_neg zero, if_neg zero]
    have found : List.find? (·.denom = denom)
        ((limits.filter (·.denom ≠ denom) ++ [Coin.mk denom amount]).mergeSort
          fun a b => a.denom ≤ b.denom) = some ⟨denom, amount⟩ := by
      apply find?_eq_some_of_unique
      · simp
      · simp
      · intro b member passes
        simp only [List.mem_mergeSort, List.mem_append, List.mem_filter, List.mem_singleton] at member
        rcases member with ⟨-, other⟩ | same
        · simp_all
        · exact same
    simp only [limit?]
    rw [found]
    rfl

theorem limit_set_same (limits : Limits) (denom : String) (amount : Amount) :
    (limits.set denom amount).limit denom = amount := by
  simp only [limit]
  rw [limit?_set_same]
  split
  · rename_i zero
    simp [zero]
  · rfl

/-- Putting limits in order leaves those of one denomination among each other. -/
theorem filter_mergeSort (limits : Limits) (denom : String) :
    (limits.mergeSort fun a b => a.denom ≤ b.denom).filter (·.denom = denom) =
      limits.filter (·.denom = denom) := by
  have ordered : (limits.filter (·.denom = denom)).Pairwise
      fun a b => decide (a.denom ≤ b.denom) = true := by
    apply List.pairwise_of_forall_mem_list
    intro a left b right
    have first : a.denom = denom := by simpa using (List.mem_filter.mp left).2
    have second : b.denom = denom := by simpa using (List.mem_filter.mp right).2
    simp [first, second]
  have transitive (a b c : Coin) (first : decide (a.denom ≤ b.denom) = true)
      (second : decide (b.denom ≤ c.denom) = true) : decide (a.denom ≤ c.denom) = true := by
    simp only [decide_eq_true_eq] at first second ⊢
    exact String.le_trans first second
  have total (a b : Coin) : (decide (a.denom ≤ b.denom) || decide (b.denom ≤ a.denom)) = true := by
    simp only [Bool.or_eq_true, decide_eq_true_eq]
    exact String.le_total a.denom b.denom
  have within := (List.sublist_mergeSort transitive total ordered List.filter_sublist).filter
    (·.denom = denom)
  have same := (List.mergeSort_perm limits fun a b => a.denom ≤ b.denom).filter (·.denom = denom)
  simp only [List.filter_filter, Bool.and_self] at within
  exact (within.eq_of_length same.length_eq.symm).symm

theorem limit?_set_other (limits : Limits) {denom other : String} (apart : denom ≠ other)
    (amount : Amount) : (limits.set denom amount).limit? other = limits.limit? other := by
  have kept : (limits.filter (·.denom ≠ denom)).filter (·.denom = other) =
      limits.filter (·.denom = other) := by
    rw [List.filter_filter]
    apply List.filter_congr
    intro coin _
    by_cases same : coin.denom = other
    · simp [same, Ne.symm apart]
    · simp [same]
  simp only [limit?, ← List.head?_filter, Limits.set]
  by_cases zero : amount = 0
  · rw [if_pos zero, kept]
  · rw [if_neg zero, filter_mergeSort, List.filter_append, kept]
    simp [apart]

theorem limit_set_other (limits : Limits) {denom other : String} (apart : denom ≠ other)
    (amount : Amount) : (limits.set denom amount).limit other = limits.limit other := by
  rw [limit, limit, limit?_set_other limits apart]

/-- Nothing is left of limits when the last denomination goes. -/
theorem set_eq_nil {amount : Amount} :
    limits.set denom amount = [] ↔ amount = 0 ∧ ∀ coin ∈ limits, coin.denom = denom := by
  simp only [Limits.set]
  split
  · rename_i zero
    simp [zero]
  · rename_i positive
    rw [← List.length_eq_zero_iff, List.length_mergeSort]
    simp only [List.length_append, List.length_singleton, Nat.add_eq_zero_iff, Nat.one_ne_zero,
      and_false, positive, false_and]

theorem spend_eq_ok : limits.spend coin = .ok rest ↔
    coin.amount ≤ limits.limit coin.denom ∧
      limits.set coin.denom ((limits.limit coin.denom).minus coin.amount) = rest := by
  simp only [spend]
  by_cases short : limits.limit coin.denom < coin.amount
  · simp [short, BitVec.not_le.mpr short]
  · simp [short, BitVec.not_lt.mp short]

/-- What is spent is taken from the limit of its denomination. -/
theorem limit_of_spend (h : limits.spend coin = .ok rest) :
    (rest.limit coin.denom).toNat + coin.amount.toNat = (limits.limit coin.denom).toNat := by
  obtain ⟨enough, rfl⟩ := spend_eq_ok.mp h
  have covered : coin.amount.toNat ≤ (limits.limit coin.denom).toNat := BitVec.le_def.mp enough
  rw [limit_set_same, Amount.toNat_minus]
  omega

theorem exists_mem_of_limit?_eq_some {limit : Amount} (h : limits.limit? denom = some limit) :
    ∃ coin ∈ limits, coin.denom = denom := by
  obtain ⟨coin, found, -⟩ := Option.map_eq_some_iff.mp h
  have same := List.find?_some found
  exact ⟨coin, List.mem_of_find?_eq_some found, of_decide_eq_true same⟩

theorem exists_mem_of_limit_ne_zero (h : limits.limit denom ≠ 0) :
    ∃ coin ∈ limits, coin.denom = denom := by
  cases found : limits.limit? denom with
  | none => simp [limit, found] at h
  | some limit => exact exists_mem_of_limit?_eq_some found

theorem limit?_eq_none : limits.limit? denom = none ↔ ∀ coin ∈ limits, coin.denom ≠ denom := by
  simp [limit?]

/-- A list with the limit fits where the list does, if it has room for a limit that was not in it. -/
theorem fits_set (fits : limits.Fits) (named : amount ≠ 0 → Text.Fits denom) :
    (limits.set denom amount).Fits ↔
      (amount ≠ 0 → limits.limit? denom = none → limits.length + 1 < Bytes.capacity 4) := by
  obtain ⟨few, each⟩ := fits
  have shorter := List.length_filter_le (fun c : Coin => decide (c.denom ≠ denom)) limits
  by_cases zero : amount = 0
  · simp only [Limits.set, zero, ne_eq, not_true_eq_false, false_implies, iff_true, if_true]
    exact ⟨Nat.lt_of_le_of_lt shorter few, fun c member => each c (List.mem_filter.mp member).1⟩
  · have length : (limits.set denom amount).length =
        (limits.filter (·.denom ≠ denom)).length + 1 := by
      rw [Limits.set, if_neg zero, List.length_mergeSort, List.length_append, List.length_singleton]
    constructor
    · rintro ⟨short, -⟩ - absent
      have whole : limits.filter (·.denom ≠ denom) = limits :=
        List.filter_eq_self.mpr fun c member => by simpa using limit?_eq_none.mp absent c member
      rw [length, whole] at short
      exact short
    · intro room
      constructor
      · rw [length]
        cases present : limits.limit? denom with
        | none =>
          have spare := room zero present
          omega
        | some limit =>
          -- The limit that is there already makes room for the one that takes its place.
          obtain ⟨covering, member, same⟩ := exists_mem_of_limit?_eq_some present
          have less : (limits.filter (·.denom ≠ denom)).length < limits.length :=
            List.length_filter_lt_length_iff_exists.mpr ⟨covering, member, by simp [same]⟩
          omega
      · intro c present
        simp only [Limits.set, if_neg zero, List.mem_mergeSort, List.mem_append,
          List.mem_singleton] at present
        rcases present with old | rfl
        · exact each c (List.mem_filter.mp old).1
        · exact named zero

theorem fits_of_spend (fits : limits.Fits) (h : limits.spend coin = .ok rest) : rest.Fits := by
  obtain ⟨-, rfl⟩ := spend_eq_ok.mp h
  have covered (left : (limits.limit coin.denom).minus coin.amount ≠ 0) :
      ∃ c ∈ limits, c.denom = coin.denom := exists_mem_of_limit_ne_zero (Amount.minus_ne_zero left)
  refine (fits_set fits fun left => ?_).mpr fun left absent => ?_
  · obtain ⟨covering, member, same⟩ := covered left
    have fit := fits.2 covering member
    rw [Coin.Fits, same] at fit
    exact fit
  · obtain ⟨covering, member, same⟩ := covered left
    exact absurd same (limit?_eq_none.mp absent covering member)

end Limits

namespace Allocation

variable {allocations left : List Allocation} {port channel receiver : String} {token : Coin}

theorem spend_eq_ok {a : Allocation} {taken : Option Allocation} :
    a.spend token receiver = .ok taken ↔
      a.allows receiver ∧ ∃ rest, a.limits.spend token = .ok rest ∧
        (if rest = [] then none else some { a with limits := rest }) = taken := by
  simp only [spend]
  cases a.allows receiver <;> simp

/-- Only the first allocation of a channel is spent from. -/
theorem exists_of_spendFirst
    (h : spendFirst port channel token receiver allocations = .ok left) :
    ∃ before a after taken, allocations = before ++ a :: after ∧
      (∀ b ∈ before, ¬ (b.port = port ∧ b.channel = channel)) ∧
      (a.port = port ∧ a.channel = channel) ∧ a.spend token receiver = .ok taken ∧
      left = before ++ taken.toList ++ after := by
  induction allocations generalizing left with
  | nil => cases h
  | cons a rest ih =>
    simp only [spendFirst] at h
    split at h
    · rename_i here
      simp only [bind_eq_ok, pure_eq_ok] at h
      obtain ⟨taken, spent, rfl⟩ := h
      exact ⟨[], a, rest, taken, rfl, by simp, here, spent, rfl⟩
    · rename_i elsewhere
      simp only [bind_eq_ok, pure_eq_ok] at h
      obtain ⟨others, found, rfl⟩ := h
      obtain ⟨before, b, after, taken, rfl, apart, here, spent, rfl⟩ := ih found
      exact ⟨a :: before, b, after, taken, rfl, List.forall_mem_cons.mpr ⟨elsewhere, apart⟩, here,
        spent, rfl⟩

/-- Allocations of other channels are passed over. -/
theorem spendFirst_split {before after : List Allocation} {a : Allocation}
    (apart : ∀ b ∈ before, ¬ (b.port = port ∧ b.channel = channel))
    (here : a.port = port ∧ a.channel = channel) :
    spendFirst port channel token receiver (before ++ a :: after) =
      (a.spend token receiver).map fun taken => before ++ taken.toList ++ after := by
  induction before with
  | nil =>
    rw [List.nil_append, spendFirst, if_pos here]
    cases a.spend token receiver <;> rfl
  | cons b before ih =>
    obtain ⟨elsewhere, apart⟩ := List.forall_mem_cons.mp apart
    rw [List.cons_append, spendFirst, if_neg elsewhere, ih apart]
    cases a.spend token receiver <;> rfl

theorem spendFirst_append {before after : List Allocation} {a : Allocation}
    {taken : Option Allocation}
    (apart : ∀ b ∈ before, ¬ (b.port = port ∧ b.channel = channel))
    (here : a.port = port ∧ a.channel = channel) (spent : a.spend token receiver = .ok taken) :
    spendFirst port channel token receiver (before ++ a :: after) =
      .ok (before ++ taken.toList ++ after) := by
  rw [spendFirst_split apart here, spent, map_ok]

theorem fits_of_spend {a b : Allocation} (fits : a.Fits)
    (h : a.spend token receiver = .ok (some b)) : b.Fits := by
  obtain ⟨-, rest, spent, same⟩ := spend_eq_ok.mp h
  split at same
  · cases same
  · cases same
    exact ⟨fits.1, fits.2.1, Limits.fits_of_spend fits.2.2.1 spent, fits.2.2.2⟩

theorem fits_of_spendFirst (fits : FitsAll Fits allocations)
    (h : spendFirst port channel token receiver allocations = .ok left) : FitsAll Fits left := by
  obtain ⟨before, a, after, taken, rfl, -, -, spent, rfl⟩ := exists_of_spendFirst h
  obtain ⟨few, each⟩ := fits
  simp only [List.mem_append, List.mem_cons, List.length_append, List.length_cons] at few each
  constructor
  · have one : taken.toList.length ≤ 1 := by cases taken <;> simp
    simp only [List.length_append]
    omega
  · intro b member
    simp only [List.mem_append, Option.mem_toList] at member
    rcases member with (first | rfl) | last
    · exact each b (.inl first)
    · exact fits_of_spend (each a (.inr (.inl rfl))) spent
    · exact each b (.inr (.inr last))

end Allocation

namespace Authorization

variable {a : Authorization} {left : Option Authorization}

theorem accept_send_eq_ok {m : SendMessage} :
    a.accept (.send m) = .ok left ↔
      ∃ limits rest, a = send limits ∧ limits.spendAll m.coins = .ok rest ∧
        (if rest = [] then none else some (send rest)) = left := by
  cases a <;> simp [accept]

theorem accept_transfer_eq_ok {m : TransferMessage} :
    a.accept (.transfer m) = .ok left ↔
      ∃ allocations rest, a = transfer allocations ∧
        Allocation.spendFirst m.port m.channel m.token m.receiver allocations = .ok rest ∧
        (if rest = [] then none else some (transfer rest)) = left := by
  cases a <;> simp [accept]

theorem fits_of_spendAll {limits rest : Limits} {coins : List Coin} (fits : limits.Fits)
    (h : limits.spendAll coins = .ok rest) : rest.Fits := by
  induction coins generalizing limits with
  | nil => cases h; exact fits
  | cons coin coins ih =>
    simp only [Limits.spendAll, List.foldlM_cons, bind_eq_ok] at h
    obtain ⟨between, first, more⟩ := h
    exact ih (Limits.fits_of_spend fits first) more

/-- An authorization accepts messages of its own type, and what is left is of that type again. -/
theorem accepted {m : Message} (h : a.accept m = .ok left) :
    a.messageType = m.type ∧ ∀ b, left = some b → b.messageType = m.type ∧ (a.Fits → b.Fits) := by
  cases m with
  | send m =>
    obtain ⟨limits, rest, rfl, spent, rfl⟩ := accept_send_eq_ok.mp h
    refine ⟨rfl, fun b kept => ?_⟩
    split at kept
    · cases kept
    · cases kept
      exact ⟨rfl, fun fits => fits_of_spendAll fits spent⟩
  | transfer m =>
    obtain ⟨allocations, rest, rfl, spent, rfl⟩ := accept_transfer_eq_ok.mp h
    refine ⟨rfl, fun b kept => ?_⟩
    split at kept
    · cases kept
    · cases kept
      exact ⟨rfl, fun fits => Allocation.fits_of_spendFirst fits spent⟩

end Authorization

end LedgerBridge
