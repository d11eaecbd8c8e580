import LedgerBridge.Metered
import LedgerBridge.Proofs.Results

/-! What the meter decides of a computation: nothing but how far it gets. The whole cost of a free run
is compared with the limit once; below it the metered run is the free run, above it the meter runs out
and shows more use than the limit. -/
namespace LedgerBridge

def Charge.total : List Charge → Nat
  | [] => 0
  | c :: rest => c.amount + total rest

@[simp] theorem Charge.total_append (cs more : List Charge) :
    Charge.total (cs ++ more) = Charge.total cs + Charge.total more := by
  induction cs with
  | nil => simp [Charge.total]
  | cons c rest ih => rw [List.cons_append, Charge.total, ih, Charge.total, Nat.add_assoc]

/-- All that an access costs in a store. -/
def Access.cost (s : Store) (a : Access) : Nat := Charge.total (a.charges s)

namespace Meter

theorem charge_fits (m : Meter) (c : Charge) (fits : min (m.used + c.amount) cap ≤ m.limit) :
    m.charge c = (m.record c.amount, none) := by
  have within : ¬ (m.record c.amount).limit < (m.record c.amount).used := Nat.not_lt.mpr fits
  simp only [charge, if_neg within]

theorem charge_exceeds (m : Meter) (c : Charge) (exceeds : m.limit < min (m.used + c.amount) cap) :
    m.charge c =
      (m.record c.amount, some ⟨c.location, (m.record c.amount).used, m.limit⟩) := by
  have above : (m.record c.amount).limit < (m.record c.amount).used := exceeds
  simp only [charge]
  simp only [if_pos above]
  rfl

theorem record_zero (m : Meter) (bounded : m.used ≤ cap) : m.record 0 = m := by
  cases m
  simp only [record, mk.injEq, true_and]
  exact Nat.min_eq_left bounded

theorem record_record (m : Meter) (a b : Nat) : (m.record a).record b = m.record (a + b) := by
  simp only [record, mk.injEq, true_and]
  omega

/-- Charges are paid one by one, but only their sum matters. -/
theorem chargeAll_fits (m : Meter) (cs : List Charge) (bounded : m.used ≤ cap)
    (fits : min (m.used + Charge.total cs) cap ≤ m.limit) :
    m.chargeAll cs = (m.record (Charge.total cs), none) := by
  induction cs generalizing m with
  | nil => simp [chargeAll, Charge.total, record_zero m bounded]
  | cons c rest ih =>
    simp only [Charge.total] at fits ⊢
    have first : min (m.used + c.amount) cap ≤ m.limit := by omega
    have later : min ((m.record c.amount).used + Charge.total rest) cap ≤ m.limit := by
      simp only [record]
      omega
    rw [chargeAll, charge_fits m c first]
    simp only
    rw [ih (m.record c.amount) (Nat.min_le_right _ _) later, record_record]

/-- Where charges do not all fit, those before the first that does not are paid. That one is recorded too,
so the use passes the limit. -/
theorem chargeAll_stops (m : Meter) (cs : List Charge) (start : m.used ≤ m.limit)
    (exceeds : m.limit < min (m.used + Charge.total cs) cap) :
    ∃ paid c unpaid, cs = paid ++ c :: unpaid ∧
      min (m.used + Charge.total paid) cap ≤ m.limit ∧
      m.limit < (m.record (Charge.total (paid ++ [c]))).used ∧
      m.chargeAll cs = (m.record (Charge.total (paid ++ [c])),
        some ⟨c.location, (m.record (Charge.total (paid ++ [c]))).used, m.limit⟩) := by
  induction cs generalizing m with
  | nil =>
    simp only [Charge.total] at exceeds
    omega
  | cons c rest ih =>
    by_cases first : min (m.used + c.amount) cap ≤ m.limit
    · have later : (m.record c.amount).limit <
          min ((m.record c.amount).used + Charge.total rest) cap := by
        simp only [Charge.total] at exceeds
        simp only [record]
        omega
      obtain ⟨paid, short, unpaid, rfl, fits, above, stopped⟩ := ih (m.record c.amount) first later
      rw [record_record] at above stopped
      refine ⟨c :: paid, short, unpaid, rfl, ?_, above, ?_⟩
      · simp only [record] at fits
        simp only [Charge.total]
        omega
      · rw [chargeAll, charge_fits m c first]
        exact stopped
    · rw [chargeAll, charge_exceeds m c (Nat.not_le.mp first)]
      exact ⟨[], c, rest, rfl, Nat.le_trans (Nat.min_le_left _ _) start, Nat.not_le.mp first, rfl⟩

end Meter

namespace Metered

/-- All that a free run costs. -/
def cost : Metered ε α → Store → Nat
  | done _, _ | fail _, _ => 0
  | access a next, s => a.cost s + (next (a.answer s)).cost (a.effect s)

/-- A run whose whole cost stays within the limit is the free run. -/
theorem run_of_cost_le (x : Metered ε α) (s : Store) (m : Meter) (bounded : m.used ≤ Meter.cap)
    (fits : min (m.used + x.cost s) Meter.cap ≤ m.limit) :
    x.run s m = ⟨(x.perform s).1.mapError .failed, (x.perform s).2, m.record (x.cost s)⟩ := by
  induction x generalizing s m with
  | done a => simp [run, perform, cost, m.record_zero bounded]
  | fail e => simp [run, perform, cost, m.record_zero bounded]
  | access a next ih =>
    simp only [cost] at fits
    have head : min (m.used + a.cost s) Meter.cap ≤ m.limit := by omega
    have tail : min ((m.record (a.cost s)).used + (next (a.answer s)).cost (a.effect s))
        Meter.cap ≤ m.limit := by
      simp only [Meter.record]
      omega
    have paid := m.chargeAll_fits (a.charges s) bounded head
    have rest := ih (a.answer s) (a.effect s) (m.record (a.cost s)) (Nat.min_le_right _ _) tail
    simp only [run, paid, perform, cost, ← Meter.record_record]
    exact rest

/-- A meter that never runs out leaves a run as it is without one. -/
theorem run_of_limit_eq_cap (x : Metered ε α) (s : Store) (m : Meter) (limit : m.limit = Meter.cap)
    (bounded : m.used ≤ Meter.cap) :
    x.run s m = ⟨(x.perform s).1.mapError .failed, (x.perform s).2, m.record (x.cost s)⟩ :=
  run_of_cost_le x s m bounded (limit ▸ Nat.min_le_right _ _)

/-- A run that costs more than the limit allows ends for lack of gas. -/
theorem run_of_lt_cost (x : Metered ε α) (s : Store) (m : Meter) (start : m.used ≤ m.limit)
    (bounded : m.used ≤ Meter.cap) (exceeds : m.limit < min (m.used + x.cost s) Meter.cap) :
    (∃ e, (x.run s m).result = .error (.exhausted e)) ∧ m.limit < (x.run s m).meter.used := by
  induction x generalizing s m with
  | done a => simp only [cost] at exceeds; omega
  | fail e => simp only [cost] at exceeds; omega
  | access a next ih =>
    by_cases head : min (m.used + a.cost s) Meter.cap ≤ m.limit
    · have paid := m.chargeAll_fits (a.charges s) bounded head
      have later : (m.record (a.cost s)).limit <
          min ((m.record (a.cost s)).used + (next (a.answer s)).cost (a.effect s)) Meter.cap := by
        simp only [cost] at exceeds
        simp only [Meter.record]
        omega
      simp only [run, paid]
      exact ih (a.answer s) (a.effect s) (m.record (a.cost s)) head (Nat.min_le_right _ _) later
    · obtain ⟨paid, c, unpaid, -, -, above, stopped⟩ :=
        m.chargeAll_stops (a.charges s) start (Nat.not_le.mp head)
      rw [run, stopped]
      exact ⟨⟨_, rfl⟩, above⟩

end Metered

end LedgerBridge
