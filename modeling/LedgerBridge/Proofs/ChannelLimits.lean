import LedgerBridge.Proofs.GrantForms

/-! What a transfer authorization accepts. A transfer meets the first allocation of its channel and no
other, even if that one does not cover it and a later one would. One limit of that allocation falls by
what is transferred; limits, allocations and the authorization go when nothing is left of them. -/
namespace LedgerBridge

namespace Limits

/-- What a coin leaves of limits. That of its denomination is listed as long as something is left. -/
structure Lowers (limits : Limits) (coin : Coin) (rest : Limits) : Prop where
  spent : (rest.limit coin.denom).toNat + coin.amount.toNat = (limits.limit coin.denom).toNat
  listed : coin.denom ∈ rest.map (·.denom) ↔ coin.amount ≠ limits.limit coin.denom
  others : ∀ denom, denom ≠ coin.denom → rest.limit? denom = limits.limit? denom
  distinct : rest.Distinct

variable {limits rest : Limits} {coin : Coin} {e : LedgerError}

theorem mem_map_set_iff {denom : String} {amount : Amount} :
    denom ∈ (limits.set denom amount).map (·.denom) ↔ amount ≠ 0 := by
  simp only [Limits.set]
  by_cases zero : amount = 0
  · simp [zero]
  · rw [if_neg zero]
    simpa using zero

theorem lowers_of_spend (distinct : limits.Distinct) (h : limits.spend coin = .ok rest) :
    limits.Lowers coin rest := by
  have spent := limit_of_spend h
  obtain ⟨enough, rfl⟩ := spend_eq_ok.mp h
  refine ⟨spent, ?_, fun denom other => limit?_set_other limits (Ne.symm other) _, distinct.set _ _⟩
  have covered : coin.amount.toNat ≤ (limits.limit coin.denom).toNat := BitVec.le_def.mp enough
  rw [mem_map_set_iff]
  apply not_congr
  have nothing : (0 : Amount).toNat = 0 := rfl
  rw [← BitVec.toNat_inj, ← BitVec.toNat_inj, Amount.toNat_minus, nothing]
  omega

theorem spend_eq_error : limits.spend coin = .error e ↔
    limits.limit coin.denom < coin.amount ∧
      .limitExceeded coin.amount (limits.limit coin.denom) = e := by
  simp only [spend]
  by_cases short : limits.limit coin.denom < coin.amount <;> simp [short]

end Limits

namespace Allocation

/-- An allocation with those before and after it, and none of those before is of the channel. -/
structure FirstOf (port channel : String) (allocations before : List Allocation) (a : Allocation)
    (after : List Allocation) : Prop where
  split : allocations = before ++ a :: after
  here : a.port = port ∧ a.channel = channel
  apart : ∀ b ∈ before, ¬ (b.port = port ∧ b.channel = channel)

variable {port channel receiver : String} {token : Coin} {allocations before after : List Allocation}
  {a : Allocation} {e : LedgerError}

theorem allows_iff : a.allows receiver = true ↔ a.receivers = [] ∨ receiver ∈ a.receivers := by
  simp [allows]

theorem missing_or_first (port channel : String) (allocations : List Allocation) :
    (∀ a ∈ allocations, ¬ (a.port = port ∧ a.channel = channel)) ∨
      ∃ before a after, FirstOf port channel allocations before a after := by
  induction allocations with
  | nil => exact .inl nofun
  | cons a rest ih =>
    by_cases here : a.port = port ∧ a.channel = channel
    · exact .inr ⟨[], a, rest, rfl, here, nofun⟩
    · rcases ih with missing | ⟨before, b, after, rfl, there, apart⟩
      · exact .inl (List.forall_mem_cons.mpr ⟨here, missing⟩)
      · exact .inr ⟨a :: before, b, after, rfl, there, List.forall_mem_cons.mpr ⟨here, apart⟩⟩

theorem spendFirst_of_missing (token : Coin) (receiver : String)
    (missing : ∀ a ∈ allocations, ¬ (a.port = port ∧ a.channel = channel)) :
    spendFirst port channel token receiver allocations =
      .error (.unauthorized "requested port and channel allocation does not exist") := by
  induction allocations with
  | nil => rfl
  | cons a rest ih =>
    obtain ⟨elsewhere, missing⟩ := List.forall_mem_cons.mp missing
    rw [spendFirst, if_neg elsewhere, ih missing]
    rfl

/-- What becomes of the first allocation of the channel decides. -/
theorem FirstOf.spendFirst (first : FirstOf port channel allocations before a after) (token : Coin)
    (receiver : String) :
    spendFirst port channel token receiver allocations =
      (a.spend token receiver).map fun taken => before ++ taken.toList ++ after := by
  rw [first.split, spendFirst_split first.apart first.here]

theorem spend_eq_error : a.spend token receiver = .error e ↔
    (¬ (a.receivers = [] ∨ receiver ∈ a.receivers) ∧
      .unauthorized s!"not allowed receiver address for transfer: {receiver}" = e) ∨
    ((a.receivers = [] ∨ receiver ∈ a.receivers) ∧ a.limits.limit token.denom < token.amount ∧
      .limitExceeded token.amount (a.limits.limit token.denom) = e) := by
  rw [← allows_iff, ← Limits.spend_eq_error, spend]
  cases a.allows receiver with
  | false => simp
  | true => cases a.limits.spend token <;> simp [pure, Except.pure]

end Allocation

namespace Authorization

open Allocation

/-- Why a transfer is refused. -/
inductive Refuses (allocations : List Allocation) (m : TransferMessage) : LedgerError → Prop
  | missing (none : ∀ a ∈ allocations, ¬ (a.port = m.port ∧ a.channel = m.channel)) :
    Refuses allocations m (.unauthorized "requested port and channel allocation does not exist")
  | stranger (first : FirstOf m.port m.channel allocations before a after)
      (unlisted : ¬ (a.receivers = [] ∨ m.receiver ∈ a.receivers)) :
    Refuses allocations m
      (.unauthorized s!"not allowed receiver address for transfer: {m.receiver}")
  | exceeded (first : FirstOf m.port m.channel allocations before a after)
      (allowed : a.receivers = [] ∨ m.receiver ∈ a.receivers)
      (short : a.limits.limit m.token.denom < m.token.amount) :
    Refuses allocations m (.limitExceeded m.token.amount (a.limits.limit m.token.denom))

variable {allocations before after : List Allocation} {a : Allocation} {m : TransferMessage}
  {rest : Limits} {e : LedgerError}

/-- What is left of the allocations of a message, as an authorization; none if none are. -/
theorem accept_transfer (allocations : List Allocation) (m : TransferMessage) :
    (transfer allocations).accept (.transfer m) =
      (spendFirst m.port m.channel m.token m.receiver allocations).map fun kept =>
        if kept = [] then none else some (transfer kept) := by
  rw [accept]
  cases spendFirst m.port m.channel m.token m.receiver allocations <;> rfl

theorem Refuses.accept (h : Refuses allocations m e) :
    (transfer allocations).accept (.transfer m) = .error e := by
  rw [accept_transfer, map_eq_error]
  cases h with
  | missing none => exact spendFirst_of_missing _ _ none
  | stranger first unlisted =>
    rw [first.spendFirst, map_eq_error]
    exact spend_eq_error.mpr (.inl ⟨unlisted, rfl⟩)
  | exceeded first allowed short =>
    rw [first.spendFirst, map_eq_error]
    exact spend_eq_error.mpr (.inr ⟨allowed, short, rfl⟩)

/-- The first allocation of the channel covers the transfer. -/
theorem accept_of_first (first : FirstOf m.port m.channel allocations before a after)
    (allowed : a.receivers = [] ∨ m.receiver ∈ a.receivers)
    (spent : a.limits.spend m.token = .ok rest) :
    ∃ kept, kept = before ++ (if rest = [] then after else { a with limits := rest } :: after) ∧
      (transfer allocations).accept (.transfer m) =
        .ok (if kept = [] then none else some (transfer kept)) := by
  have taken : a.spend m.token m.receiver =
      .ok (if rest = [] then none else some { a with limits := rest }) :=
    spend_eq_ok.mpr ⟨allows_iff.mpr allowed, rest, spent, rfl⟩
  refine ⟨_, rfl, ?_⟩
  rw [accept_transfer, first.spendFirst, taken]
  by_cases used : rest = [] <;> simp [used]

/-- The two ways in which a transfer meets an authorization. -/
theorem covered_or_refuses (allocations : List Allocation) (m : TransferMessage) :
    (∃ before a after rest, FirstOf m.port m.channel allocations before a after ∧
      (a.receivers = [] ∨ m.receiver ∈ a.receivers) ∧ a.limits.spend m.token = .ok rest) ∨
    ∃ e, Refuses allocations m e := by
  rcases missing_or_first m.port m.channel allocations with missing | ⟨before, a, after, first⟩
  · exact .inr ⟨_, .missing missing⟩
  · by_cases allowed : a.receivers = [] ∨ m.receiver ∈ a.receivers
    · cases spent : a.limits.spend m.token with
      | ok rest => exact .inl ⟨before, a, after, rest, first, allowed, spent⟩
      | error e => exact .inr ⟨_, .exceeded first allowed (Limits.spend_eq_error.mp spent).1⟩
    · exact .inr ⟨_, .stranger first allowed⟩

/-- A transfer authorization accepts a transfer exactly if the first allocation of its channel lets the
receiver have it and has a limit for it. That one limit is then less by what is transferred; a limit
that is used up, an allocation without limits and an authorization without allocations are gone, and all
else is as it was and where it was. Otherwise the allocation, then the receiver, then the limit is what
is missing. -/
theorem accept_transfer_exactly (distinct : ∀ a ∈ allocations, a.limits.Distinct)
    (m : TransferMessage) :
    ((∃ left, (transfer allocations).accept (.transfer m) = .ok left) ↔
      ∃ before a after, FirstOf m.port m.channel allocations before a after ∧
        (a.receivers = [] ∨ m.receiver ∈ a.receivers) ∧
        m.token.amount ≤ a.limits.limit m.token.denom) ∧
    (∀ left, (transfer allocations).accept (.transfer m) = .ok left →
      ∃ before a after rest kept, FirstOf m.port m.channel allocations before a after ∧
        a.limits.Lowers m.token rest ∧
        kept = before ++ (if rest = [] then after else { a with limits := rest } :: after) ∧
        left = if kept = [] then none else some (transfer kept)) ∧
    ∀ e, (transfer allocations).accept (.transfer m) = .error e ↔ Refuses allocations m e := by
  refine ⟨⟨?covered, ?covers⟩, ?left, fun e => ⟨?refused, Refuses.accept⟩⟩
  case covers =>
    rintro ⟨before, a, after, first, allowed, enough⟩
    obtain ⟨_, -, accepted⟩ := accept_of_first first allowed (Limits.spend_eq_ok.mpr ⟨enough, rfl⟩)
    exact ⟨_, accepted⟩
  all_goals
    rcases covered_or_refuses allocations m with
      ⟨before, a, after, rest, first, allowed, spent⟩ | ⟨why, refuses⟩
  case covered.inl =>
    exact fun _ => ⟨before, a, after, first, allowed, (Limits.spend_eq_ok.mp spent).1⟩
  case left.inl =>
    intro left accepted
    obtain ⟨kept, shape, accepts⟩ := accept_of_first first allowed spent
    have member : a ∈ allocations := by simp [first.split]
    refine ⟨before, a, after, rest, kept, first, ?_, shape, ?_⟩
    · exact Limits.lowers_of_spend (distinct a member) spent
    · exact Except.ok.inj (accepted.symm.trans accepts)
  case refused.inl =>
    intro refused
    obtain ⟨kept, -, accepts⟩ := accept_of_first first allowed spent
    cases accepts.symm.trans refused
  case covered.inr =>
    rintro ⟨left, accepted⟩
    cases accepted.symm.trans refuses.accept
  case left.inr =>
    intro left accepted
    cases accepted.symm.trans refuses.accept
  case refused.inr =>
    intro refused
    cases refused.symm.trans refuses.accept
    exact refuses

/-- Two allocations of one channel: what is transferred uses up the first, though the second has a limit
for it too. -/
theorem accept_transfer_exactly_of_two :
    let first : Allocation := ⟨"transfer", "channel-0", [⟨"abridge", 100⟩], ["osmo1dest"]⟩
    let second : Allocation := ⟨"transfer", "channel-0", [⟨"ubridge", 9⟩, ⟨"abridge", 500⟩], []⟩
    let other : Allocation := ⟨"transfer", "channel-7", [⟨"abridge", 50⟩], []⟩
    let m : TransferMessage :=
      ⟨"transfer", "channel-0", ⟨"abridge", 100⟩, .zero, "osmo1dest", ⟨100, 100⟩, 0, ""⟩
    (∀ a ∈ [other, first, second], a.limits.Distinct) ∧
      (transfer [other, first, second]).accept (.transfer m) =
        .ok (some (transfer [other, second])) ∧
      Refuses [other, first, second] { m with receiver := "osmo1other" }
        (.unauthorized "not allowed receiver address for transfer: osmo1other") := by
  intro first second other m
  have distinct : ∀ a ∈ [other, first, second], a.limits.Distinct := by
    simp only [List.forall_mem_cons, List.not_mem_nil, false_imp_iff, implies_true, and_true]
    exact ⟨⟨by decide, by decide⟩, ⟨by decide, by decide⟩, ⟨by decide, by decide⟩⟩
  refine ⟨distinct, rfl, ?_⟩
  exact ((accept_transfer_exactly distinct { m with receiver := "osmo1other" }).2.2 _).mp rfl

end Authorization

end LedgerBridge
