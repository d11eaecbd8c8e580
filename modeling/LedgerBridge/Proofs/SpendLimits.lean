import LedgerBridge.Proofs.BulkSends
import LedgerBridge.Proofs.GrantForms

/-! What a send authorization accepts. Coins are taken one after another, each from what the ones before
it have left of its limit. So they are accepted exactly if no denomination is asked for more than its
limit in all, whatever their order, and then each limit is less by what was asked for. -/
namespace LedgerBridge

namespace Limits

/-- No denomination is asked for more than its limit. -/
def Covers (limits : Limits) (coins : List Coin) : Prop :=
  ∀ denom, Coin.totalOf coins denom ≤ (limits.limit denom).toNat

/-- What coins leave of limits. -/
structure Leaves (limits : Limits) (coins : List Coin) (rest : Limits) : Prop where
  limit : ∀ denom,
    (rest.limit denom).toNat + Coin.totalOf coins denom = (limits.limit denom).toNat
  unasked : ∀ denom, denom ∉ coins.map (·.denom) → rest.limit? denom = limits.limit? denom
  distinct : rest.Distinct
  sorted : limits.Pairwise (·.denom ≤ ·.denom) → rest.Pairwise (·.denom ≤ ·.denom)

/-- The coins in front are covered, but the next is more than what they leave of its limit. -/
structure StopsAt (limits : Limits) (coins taken : List Coin) (coin : Coin) (more : List Coin)
    (left : Amount) : Prop where
  split : coins = taken ++ coin :: more
  covered : limits.Covers taken
  remainder : left.toNat + Coin.totalOf taken coin.denom = (limits.limit coin.denom).toNat
  short : left < coin.amount

variable {limits between rest : Limits} {left : Amount} {coin : Coin}
  {coins taken more : List Coin}

/-- Limits of which none is zero are all used up when there are none. -/
theorem Distinct.eq_nil_iff (h : limits.Distinct) :
    limits = [] ↔ ∀ denom, (limits.limit denom).toNat = 0 := by
  constructor
  · rintro rfl denom
    rfl
  · intro zero
    cases limits with
    | nil => rfl
    | cons coin others =>
      have used := zero coin.denom
      have positive := BitVec.lt_def.mp (h.positive coin List.mem_cons_self)
      simp only [limit, limit?, List.find?_cons, decide_true, Option.map_some,
        Option.getD_some] at used
      omega

theorem covers_nil : limits.Covers [] := fun _ => Nat.zero_le _

theorem Leaves.covers (h : limits.Leaves coins rest) : limits.Covers coins := by
  intro denom
  have sum := h.limit denom
  omega

theorem Leaves.nil (distinct : limits.Distinct) : limits.Leaves [] limits where
  limit _ := rfl
  unasked _ _ := rfl
  distinct := distinct
  sorted := id

/-- A coin is taken from the limit of its denomination only. -/
theorem limit_spend (spent : limits.spend coin = .ok between) (denom : String) :
    (between.limit denom).toNat + (if coin.denom = denom then coin.amount.toNat else 0) =
      (limits.limit denom).toNat := by
  by_cases same : coin.denom = denom
  · subst same
    rw [if_pos rfl, limit_of_spend spent]
  · obtain ⟨-, rfl⟩ := spend_eq_ok.mp spent
    rw [if_neg same, limit_set_other limits same, Nat.add_zero]

theorem Leaves.cons (spent : limits.spend coin = .ok between) (h : between.Leaves coins rest) :
    limits.Leaves (coin :: coins) rest where
  limit denom := by
    have first := limit_spend spent denom
    have others := h.limit denom
    rw [Coin.totalOf_cons]
    omega
  unasked denom absent := by
    rw [List.map_cons, List.mem_cons, not_or] at absent
    obtain ⟨-, rfl⟩ := spend_eq_ok.mp spent
    rw [h.unasked denom absent.2, limit?_set_other limits (Ne.symm absent.1)]
  distinct := h.distinct
  sorted ordered := by
    obtain ⟨-, rfl⟩ := spend_eq_ok.mp spent
    exact h.sorted (sorted_set ordered _ _)

theorem StopsAt.cons (spent : limits.spend coin = .ok between) {next : Coin}
    (h : between.StopsAt coins taken next more left) :
    limits.StopsAt (coin :: coins) (coin :: taken) next more left where
  split := by rw [h.split, List.cons_append]
  covered denom := by
    have first := limit_spend spent denom
    have others := h.covered denom
    rw [Coin.totalOf_cons]
    omega
  remainder := by
    have first := limit_spend spent next.denom
    have others := h.remainder
    rw [Coin.totalOf_cons]
    omega
  short := h.short

theorem StopsAt.not_covers (h : limits.StopsAt coins taken coin more left) :
    ¬ limits.Covers coins := by
  intro covers
  have total := covers coin.denom
  have remainder := h.remainder
  have short := BitVec.lt_def.mp h.short
  rw [h.split, Coin.totalOf_append, Coin.totalOf_cons, if_pos rfl] at total
  omega

/-- The two ways in which taking coins ends. -/
theorem spendAll_cases (distinct : limits.Distinct) (coins : List Coin) :
    (∃ rest, limits.spendAll coins = .ok rest ∧ limits.Leaves coins rest) ∨
    ∃ taken coin more left, limits.StopsAt coins taken coin more left ∧
      limits.spendAll coins = .error (.limitExceeded coin.amount left) := by
  induction coins generalizing limits with
  | nil => exact .inl ⟨limits, rfl, .nil distinct⟩
  | cons coin coins ih =>
    by_cases short : limits.limit coin.denom < coin.amount
    · refine .inr ⟨[], coin, coins, limits.limit coin.denom, ⟨rfl, covers_nil, rfl, short⟩, ?_⟩
      simp only [spendAll, List.foldlM_cons, spend, if_pos short, error_bind]
    · have spent : limits.spend coin = .ok (limits.set coin.denom
          ((limits.limit coin.denom).minus coin.amount)) := by
        simp only [spend, if_neg short]
      have goes : limits.spendAll (coin :: coins) = (limits.set coin.denom
          ((limits.limit coin.denom).minus coin.amount)).spendAll coins := by
        simp only [spendAll, List.foldlM_cons, spent, ok_bind]
      rw [goes]
      rcases ih (distinct.set _ _) with ⟨rest, ends, leaves⟩ | ⟨taken, next, more, left, stops, ends⟩
      · exact .inl ⟨rest, ends, .cons spent leaves⟩
      · exact .inr ⟨coin :: taken, next, more, left, .cons spent stops, ends⟩

theorem spendAll_append (limits : Limits) (first second : List Coin) :
    limits.spendAll (first ++ second) =
      limits.spendAll first >>= fun rest => spendAll rest second := List.foldlM_append

end Limits

namespace Authorization

open Limits

variable {limits : Limits}

/-- What the coins of a message leave of limits, as an authorization; none if they leave nothing. -/
theorem accept_send (limits : Limits) (m : SendMessage) :
    (send limits).accept (.send m) = (limits.spendAll m.coins).map fun rest =>
      if rest = [] then none else some (send rest) := by
  rw [accept]
  cases limits.spendAll m.coins <;> rfl

/-- A send authorization accepts coins exactly if no denomination is asked for more than its limit in
all. Each limit is then less by what was asked for, and the authorization ends when all of them are used
up. Otherwise the first coin that is too much is refused, with what was left of its limit. Whether the
coins come at once or in two messages makes no difference. -/
theorem accept_send_exactly (distinct : limits.Distinct) (m : SendMessage) :
    ((∃ after, (send limits).accept (.send m) = .ok after) ↔ limits.Covers m.coins) ∧
    (∀ after, (send limits).accept (.send m) = .ok after →
      ∃ rest, limits.Leaves m.coins rest ∧ after = (if rest = [] then none else some (send rest)) ∧
        (after = none ↔
          ∀ denom, Coin.totalOf m.coins denom = (limits.limit denom).toNat)) ∧
    (∀ e, (send limits).accept (.send m) = .error e →
      ∃ taken coin more left, limits.StopsAt m.coins taken coin more left ∧
        e = .limitExceeded coin.amount left) ∧
    ∀ first second, m.coins = first ++ second →
      (send limits).accept (.send m) =
        (send limits).accept (.send { m with coins := first }) >>= fun after =>
          (after.getD (send [])).accept (.send { m with coins := second }) := by
  have together (first second : List Coin) (split : m.coins = first ++ second) :
      (send limits).accept (.send m) =
        (send limits).accept (.send { m with coins := first }) >>= fun after =>
          (after.getD (send [])).accept (.send { m with coins := second }) := by
    rw [accept_send, accept_send, split, spendAll_append]
    cases limits.spendAll first with
    | error e => rfl
    | ok rest =>
      simp only [ok_bind, map_ok]
      by_cases used : rest = []
      · rw [if_pos used, Option.getD_none, accept_send, used]
      · rw [if_neg used, Option.getD_some, accept_send]
  refine ⟨?_, ?_, ?_, together⟩
  all_goals
    rw [accept_send]
    rcases spendAll_cases distinct m.coins with
      ⟨rest, ends, leaves⟩ | ⟨taken, coin, more, left, stops, ends⟩
    all_goals simp only [ends, map_ok, map_error]
  · exact iff_of_true ⟨_, rfl⟩ leaves.covers
  · refine iff_of_false ?_ stops.not_covers
    rintro ⟨_, ⟨⟩⟩
  · rintro _ ⟨⟩
    refine ⟨rest, leaves, rfl, ?_⟩
    have used : rest = [] ↔ ∀ denom, Coin.totalOf m.coins denom = (limits.limit denom).toNat := by
      rw [leaves.distinct.eq_nil_iff]
      refine forall_congr' fun denom => ?_
      have sum := leaves.limit denom
      omega
    rw [← used]
    by_cases none : rest = [] <;> simp [none]
  · rintro _ ⟨⟩
  · rintro _ ⟨⟩
  · rintro _ ⟨⟩
    exact ⟨taken, coin, more, left, stops, rfl⟩

/-- Limits that are not in order, of which one is used up in two parts. -/
theorem accept_send_exactly_of_two :
    let limits : Limits := [⟨"ubridge", 50⟩, ⟨"abridge", 100⟩]
    let m : SendMessage := ⟨.zero, .zero, [⟨"abridge", 60⟩, ⟨"uatom", 0⟩, ⟨"abridge", 40⟩]⟩
    limits.Distinct ∧ (send limits).accept (.send m) = .ok (some (send [⟨"ubridge", 50⟩])) ∧
      limits.Leaves m.coins [⟨"ubridge", 50⟩] := by
  intro limits m
  have distinct : limits.Distinct := ⟨by decide, by decide⟩
  have first : limits.spend ⟨"abridge", 60⟩ = .ok [⟨"abridge", 40⟩, ⟨"ubridge", 50⟩] := by
    have left : (limits.limit "abridge").minus 60 = 40 := by decide +kernel
    have later : ¬ "ubridge" ≤ "abridge" := by decide +kernel
    refine spend_eq_ok.mpr ⟨by decide +kernel, ?_⟩
    rw [left]
    simp [limits, Limits.set, List.mergeSort, List.MergeSort.Internal.splitInTwo, later]
  have second : Limits.spend [⟨"abridge", 40⟩, ⟨"ubridge", 50⟩] ⟨"uatom", 0⟩ =
      .ok [⟨"abridge", 40⟩, ⟨"ubridge", 50⟩] := by decide +kernel
  have third : Limits.spend [⟨"abridge", 40⟩, ⟨"ubridge", 50⟩] ⟨"abridge", 40⟩ =
      .ok [⟨"ubridge", 50⟩] := by decide +kernel
  have accepted : (send limits).accept (.send m) = .ok (some (send [⟨"ubridge", 50⟩])) := by
    simp only [accept_send, m, spendAll, List.foldlM_cons, first, second, third, ok_bind]
    rfl
  obtain ⟨rest, leaves, left, -⟩ := (accept_send_exactly distinct m).2.1 _ accepted
  split at left
  · cases left
  · cases left
    exact ⟨distinct, accepted, leaves⟩

end Authorization

end LedgerBridge
