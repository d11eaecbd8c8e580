import LedgerBridge.Ledger.Record
import LedgerBridge.Proofs.Metering

/-! Accesses attempted one after another on one meter, each whatever the ones before have come to. The
meter decides only where they stop: up to there all is as it would be free of charge, from there on
nothing is answered or changed any more. -/
namespace LedgerBridge

namespace Meter

/-- The charges that are made: all up to the first that the limit does not allow, and that one. -/
def asked (m : Meter) : List Charge → List Charge
  | [] => []
  | c :: rest =>
    match m.charge c with
    | (m, none) => c :: m.asked rest
    | (_, some _) => [c]

theorem charge_cases (m : Meter) (c : Charge) :
    m.charge c = (m.record c.amount, none) ∨ ∃ x, m.charge c = (m.record c.amount, some x) := by
  by_cases fits : min (m.used + c.amount) cap ≤ m.limit
  · exact .inl (charge_fits m c fits)
  · exact .inr ⟨_, charge_exceeds m c (Nat.not_le.mp fits)⟩

theorem chargeAll_fst (m : Meter) (cs : List Charge) (bounded : m.used ≤ cap) :
    (m.chargeAll cs).1 = m.record (Charge.total (m.asked cs)) := by
  induction cs generalizing m with
  | nil => exact (m.record_zero bounded).symm
  | cons c rest ih =>
    rcases m.charge_cases c with paid | ⟨x, refused⟩
    · rw [chargeAll, asked, paid]
      rw [ih _ (Nat.min_le_right _ _), record_record, Charge.total]
    · rw [chargeAll, asked, refused]
      rfl

/-- A meter above its limit refuses the next charge, and records it as well. -/
theorem chargeAll_over (m : Meter) (c : Charge) (rest : List Charge) (bounded : m.used ≤ cap)
    (beyond : m.limit < m.used) :
    m.chargeAll (c :: rest) =
      (m.record c.amount, some ⟨c.location, (m.record c.amount).used, m.limit⟩) := by
  have exceeds : m.limit < min (m.used + c.amount) cap := by omega
  rw [chargeAll, charge_exceeds m c exceeds]

end Meter

namespace Access

/-- The computation of a single access. -/
def make : (a : Access) → Ledger a.Answer
  | get key => Metered.get key
  | has key => Metered.has key
  | scan start => Metered.scan start
  | set key value => Metered.set key value
  | erase key => Metered.erase key

theorem make_eq (a : Access) : a.make = .access a .done := by
  cases a <;> rfl

/-- No access is free of charge. -/
theorem charges_eq_cons (a : Access) (s : Store) : ∃ c rest, a.charges s = c :: rest := by
  cases a <;> exact ⟨_, _, rfl⟩

/-- What is left of a store by accesses that are all allowed. -/
def effects (s : Store) (accesses : List Access) : Store :=
  accesses.foldl effect s

/-- The charges of accesses that are all allowed, each on the store as those before it leave it. -/
def dues (s : Store) : List Access → List Charge
  | [] => []
  | a :: rest => a.charges s ++ dues (a.effect s) rest

/-- The use to which accesses lead that are all allowed. -/
def counted (s : Store) (accesses : List Access) : Nat :=
  min (Charge.total (dues s accesses)) Meter.cap

theorem effects_append (s : Store) (before after : List Access) :
    effects s (before ++ after) = effects (effects s before) after :=
  List.foldl_append

theorem dues_append (s : Store) (before after : List Access) :
    dues s (before ++ after) = dues s before ++ dues (effects s before) after := by
  induction before generalizing s with
  | nil => rfl
  | cons a rest ih =>
    rw [List.cons_append, dues, ih, dues, List.append_assoc]
    rfl

theorem dues_snoc (s : Store) (before : List Access) (a : Access) :
    dues s (before ++ [a]) = dues s before ++ a.charges (effects s before) := by
  rw [dues_append, dues, dues, List.append_nil]

end Access

/-- Where attempts stand: what they have left of the store, and their meter. -/
structure Standing where
  store : Store
  meter : Meter

namespace Standing

/-- How an access comes out. -/
def outcome (st : Standing) (a : Access) : Metered.Outcome LedgerError a.Answer :=
  a.make.run st.store st.meter

def attempt (st : Standing) (a : Access) : Standing :=
  ⟨(st.outcome a).store, (st.outcome a).meter⟩

/-- The attempts go on after one that failed. -/
def attemptAll (st : Standing) (accesses : List Access) : Standing :=
  accesses.foldl attempt st

/-- All charges made by attempts, the refused ones among them. -/
def asked (st : Standing) : List Access → List Charge
  | [] => []
  | a :: rest => st.meter.asked (a.charges st.store) ++ (st.attempt a).asked rest

variable {st : Standing} {a : Access} {accesses : List Access}

theorem attemptAll_snoc (st : Standing) (accesses : List Access) (a : Access) :
    st.attemptAll (accesses ++ [a]) = (st.attemptAll accesses).attempt a :=
  List.foldl_append

@[simp] theorem attemptAll_cons (st : Standing) (a : Access) (rest : List Access) :
    st.attemptAll (a :: rest) = (st.attempt a).attemptAll rest :=
  rfl

theorem outcome_of_fits (bounded : st.meter.used ≤ Meter.cap)
    (fits : min (st.meter.used + a.cost st.store) Meter.cap ≤ st.meter.limit) :
    st.outcome a =
      ⟨.ok (a.answer st.store), a.effect st.store, st.meter.record (a.cost st.store)⟩ := by
  rw [outcome, a.make_eq, Metered.run, st.meter.chargeAll_fits (a.charges st.store) bounded fits]
  rfl

theorem outcome_of_exceeds (st : Standing) (start : st.meter.used ≤ st.meter.limit)
    (exceeds : st.meter.limit < min (st.meter.used + a.cost st.store) Meter.cap) :
    ∃ paid c unpaid, a.charges st.store = paid ++ c :: unpaid ∧
      min (st.meter.used + Charge.total paid) Meter.cap ≤ st.meter.limit ∧
      st.meter.limit < (st.meter.record (Charge.total (paid ++ [c]))).used ∧
      st.outcome a =
        ⟨.error (.exhausted ⟨c.location, (st.meter.record (Charge.total (paid ++ [c]))).used,
          st.meter.limit⟩), st.store, st.meter.record (Charge.total (paid ++ [c]))⟩ := by
  obtain ⟨paid, c, unpaid, split, fits, above, stopped⟩ :=
    st.meter.chargeAll_stops (a.charges st.store) start exceeds
  refine ⟨paid, c, unpaid, split, fits, above, ?_⟩
  rw [outcome, a.make_eq, Metered.run, stopped]

theorem attempt_of_fits (bounded : st.meter.used ≤ Meter.cap)
    (fits : min (st.meter.used + a.cost st.store) Meter.cap ≤ st.meter.limit) :
    st.attempt a = ⟨a.effect st.store, st.meter.record (a.cost st.store)⟩ := by
  rw [attempt, outcome_of_fits bounded fits]

/-- Above its limit a meter refuses every access at its first charge. -/
theorem outcome_of_over (bounded : st.meter.used ≤ Meter.cap)
    (beyond : st.meter.limit < st.meter.used) :
    ∃ c rest, a.charges st.store = c :: rest ∧
      st.outcome a =
        ⟨.error (.exhausted ⟨c.location, (st.meter.record c.amount).used, st.meter.limit⟩),
          st.store, st.meter.record c.amount⟩ := by
  obtain ⟨c, rest, first⟩ := a.charges_eq_cons st.store
  refine ⟨c, rest, first, ?_⟩
  rw [outcome, a.make_eq, Metered.run, first, st.meter.chargeAll_over c rest bounded beyond]

theorem meter_attempt (bounded : st.meter.used ≤ Meter.cap) :
    (st.attempt a).meter =
      st.meter.record (Charge.total (st.meter.asked (a.charges st.store))) := by
  rw [← st.meter.chargeAll_fst _ bounded, attempt, outcome, a.make_eq, Metered.run]
  cases st.meter.chargeAll (a.charges st.store) with
  | mk m stopped => cases stopped <;> rfl

/-- The use after attempts is all that was charged, up to the cap. -/
theorem meter_attemptAll (st : Standing) (accesses : List Access)
    (bounded : st.meter.used ≤ Meter.cap) :
    (st.attemptAll accesses).meter = st.meter.record (Charge.total (st.asked accesses)) := by
  induction accesses generalizing st with
  | nil => exact (st.meter.record_zero bounded).symm
  | cons a rest ih =>
    have step := meter_attempt (a := a) bounded
    have still : (st.attempt a).meter.used ≤ Meter.cap := step ▸ Nat.min_le_right _ _
    rw [attemptAll_cons, ih _ still, step, Meter.record_record, asked, Charge.total_append]

/-- Attempts that the limit allows are as without one. -/
theorem attemptAll_of_fits (st : Standing) (accesses : List Access)
    (bounded : st.meter.used ≤ Meter.cap)
    (fits : min (st.meter.used + Charge.total (Access.dues st.store accesses)) Meter.cap ≤
      st.meter.limit) :
    st.attemptAll accesses =
      ⟨Access.effects st.store accesses,
        st.meter.record (Charge.total (Access.dues st.store accesses))⟩ := by
  induction accesses generalizing st with
  | nil => exact congrArg (Standing.mk st.store) (st.meter.record_zero bounded).symm
  | cons a rest ih =>
    rw [Access.dues, Charge.total_append] at fits
    have head : min (st.meter.used + a.cost st.store) Meter.cap ≤ st.meter.limit := by
      rw [Access.cost]
      omega
    have tail : min ((st.meter.record (a.cost st.store)).used +
        Charge.total (Access.dues (a.effect st.store) rest)) Meter.cap ≤ st.meter.limit := by
      simp only [Meter.record, Access.cost]
      omega
    have after := ih ⟨a.effect st.store, st.meter.record (a.cost st.store)⟩
      (Nat.min_le_right _ _) tail
    rw [attemptAll_cons, attempt_of_fits bounded head, after, Meter.record_record, Access.dues,
      Charge.total_append]
    rfl

/-- Attempts above the limit change nothing but the meter. -/
theorem attemptAll_of_over (st : Standing) (accesses : List Access)
    (bounded : st.meter.used ≤ Meter.cap) (beyond : st.meter.limit < st.meter.used) :
    (st.attemptAll accesses).store = st.store ∧
      st.meter.limit < (st.attemptAll accesses).meter.used := by
  induction accesses generalizing st with
  | nil => exact ⟨rfl, beyond⟩
  | cons a rest ih =>
    obtain ⟨c, -, -, refused⟩ := outcome_of_over (a := a) bounded beyond
    have step : st.attempt a = ⟨st.store, st.meter.record c.amount⟩ := by rw [attempt, refused]
    have still : st.meter.limit < (st.meter.record c.amount).used := by
      simp only [Meter.record]
      omega
    rw [attemptAll_cons, step]
    exact ih ⟨_, _⟩ (Nat.min_le_right _ _) still

/-- Attempts that the limit does not allow leave what those before the first refused one have done. -/
theorem attemptAll_of_exceeds (st : Standing) (accesses : List Access)
    (bounded : st.meter.used ≤ Meter.cap) (start : st.meter.used ≤ st.meter.limit)
    (exceeds : st.meter.limit <
      min (st.meter.used + Charge.total (Access.dues st.store accesses)) Meter.cap) :
    ∃ kept first later, accesses = kept ++ first :: later ∧
      min (st.meter.used + Charge.total (Access.dues st.store kept)) Meter.cap ≤ st.meter.limit ∧
      st.meter.limit <
        min (st.meter.used + Charge.total (Access.dues st.store (kept ++ [first]))) Meter.cap ∧
      (st.attemptAll accesses).store = Access.effects st.store kept ∧
      st.meter.limit < (st.attemptAll accesses).meter.used := by
  induction accesses generalizing st with
  | nil =>
    simp only [Access.dues, Charge.total] at exceeds
    omega
  | cons a rest ih =>
    rw [Access.dues, Charge.total_append] at exceeds
    by_cases head : min (st.meter.used + a.cost st.store) Meter.cap ≤ st.meter.limit
    · have tail : st.meter.limit < min ((st.meter.record (a.cost st.store)).used +
          Charge.total (Access.dues (a.effect st.store) rest)) Meter.cap := by
        rw [Access.cost] at *
        simp only [Meter.record]
        omega
      obtain ⟨kept, first, later, rfl, fits, above, store, use⟩ :=
        ih ⟨a.effect st.store, st.meter.record (a.cost st.store)⟩ (Nat.min_le_right _ _) head tail
      rw [attemptAll_cons, attempt_of_fits bounded head]
      refine ⟨a :: kept, first, later, rfl, ?_, ?_, store, use⟩
      · simp only [Meter.record, Access.cost] at fits
        simp only [Access.dues, Charge.total_append]
        omega
      · simp only [Meter.record, Access.cost] at above
        simp only [List.cons_append, Access.dues, Charge.total_append]
        omega
    · have first := Nat.not_le.mp head
      obtain ⟨paid, c, -, -, -, above, refused⟩ := outcome_of_exceeds st start first
      have step : st.attempt a = ⟨st.store, st.meter.record (Charge.total (paid ++ [c]))⟩ := by
        rw [attempt, refused]
      obtain ⟨store, use⟩ := attemptAll_of_over
        ⟨st.store, st.meter.record (Charge.total (paid ++ [c]))⟩ rest (Nat.min_le_right _ _) above
      rw [attemptAll_cons, step]
      refine ⟨[], a, rest, rfl, Nat.le_trans (Nat.min_le_left _ _) start, ?_, store, use⟩
      rw [List.nil_append, Access.dues, Access.dues, List.append_nil]
      exact first

/-- Attempts on a meter that nothing has been charged to. -/
def fresh (s : Store) (limit : Nat) : Standing :=
  ⟨s, .new limit⟩

theorem attemptAll_fresh_of_fits {s : Store} {limit : Nat}
    (fits : Access.counted s accesses ≤ limit) :
    (fresh s limit).attemptAll accesses =
      ⟨Access.effects s accesses, ⟨limit, Access.counted s accesses⟩⟩ := by
  have within : min ((Meter.new limit).used + Charge.total (Access.dues s accesses)) Meter.cap ≤
      limit := by
    rw [Meter.new, Nat.zero_add]
    exact fits
  rw [attemptAll_of_fits (fresh s limit) accesses (Nat.zero_le _) within]
  simp only [fresh, Meter.new, Meter.record, Nat.zero_add, Access.counted]

end Standing

namespace Access

variable {s : Store} {limit : Nat} {before : List Access} {a : Access}

theorem counted_snoc (s : Store) (before : List Access) (a : Access) :
    counted s (before ++ [a]) =
      min (counted s before + a.cost (effects s before)) Meter.cap := by
  rw [counted, dues_snoc, Charge.total_append, counted, cost]
  omega

/-- The access is refused at the first charge that leads above the limit. What is charged before it is
paid, the charge itself is recorded, and the store stays as it is. -/
def StopsAt (s : Store) (limit : Nat) (before : List Access) (a : Access)
    (out : Metered.Outcome LedgerError a.Answer) : Prop :=
  ∃ paid c unpaid, a.charges (effects s before) = paid ++ c :: unpaid ∧
    min (Charge.total (dues s before ++ paid)) Meter.cap ≤ limit ∧
    ∃ total, total = min (Charge.total (dues s before ++ (paid ++ [c]))) Meter.cap ∧
      limit < total ∧
      out = ⟨.error (.exhausted ⟨c.location, total, limit⟩), effects s before, ⟨limit, total⟩⟩

/-- The access comes after the one that was refused first: it is refused at its first charge, and the
store is still what the accesses before that one have left. -/
def StopsAfter (s : Store) (limit : Nat) (before : List Access) (a : Access)
    (out : Metered.Outcome LedgerError a.Answer) : Prop :=
  ∃ kept first later, before = kept ++ first :: later ∧
    counted s kept ≤ limit ∧ limit < counted s (kept ++ [first]) ∧
    ∃ c rest, a.charges (effects s kept) = c :: rest ∧
      limit < out.meter.used ∧ out.store = effects s kept ∧
      out.result = .error (.exhausted ⟨c.location, out.meter.used, limit⟩)

/-- How an access comes out after others under a limit, next to how it does without one. -/
structure Transparent (s : Store) (limit : Nat) (before : List Access) (a : Access)
    (free out : Metered.Outcome LedgerError a.Answer) : Prop where
  unbounded : free = ⟨.ok (a.answer (effects s before)), effects s (before ++ [a]),
    ⟨Meter.cap, counted s (before ++ [a])⟩⟩
  allowed : counted s (before ++ [a]) ≤ limit →
    out = ⟨free.result, free.store, ⟨limit, counted s (before ++ [a])⟩⟩
  refused : counted s before ≤ limit → limit < counted s (before ++ [a]) →
    StopsAt s limit before a out
  afterwards : limit < counted s before → StopsAfter s limit before a out
  grows : ((Standing.fresh s limit).attemptAll before).meter.used ≤ out.meter.used
  counts : out.meter =
    ⟨limit, min (Charge.total ((Standing.fresh s limit).asked (before ++ [a]))) Meter.cap⟩

theorem outcome_of_allowed (allowed : counted s (before ++ [a]) ≤ limit) :
    ((Standing.fresh s limit).attemptAll before).outcome a =
      ⟨.ok (a.answer (effects s before)), effects s (before ++ [a]),
        ⟨limit, counted s (before ++ [a])⟩⟩ := by
  rw [counted_snoc] at allowed ⊢
  have bounded : counted s before ≤ Meter.cap := Nat.min_le_right _ _
  have earlier : counted s before ≤ limit := by omega
  rw [Standing.attemptAll_fresh_of_fits earlier, Standing.outcome_of_fits bounded allowed,
    effects_append]
  rfl

theorem stopsAt_of_refused (earlier : counted s before ≤ limit)
    (refused : limit < counted s (before ++ [a])) :
    StopsAt s limit before a (((Standing.fresh s limit).attemptAll before).outcome a) := by
  rw [counted_snoc] at refused
  rw [Standing.attemptAll_fresh_of_fits earlier]
  obtain ⟨paid, c, unpaid, split, fits, above, out⟩ :=
    Standing.outcome_of_exceeds ⟨effects s before, ⟨limit, counted s before⟩⟩ earlier refused
  -- the cap on what was used before does not matter to the cap on all of it
  have uncapped (cs : List Charge) : min (counted s before + Charge.total cs) Meter.cap =
      min (Charge.total (dues s before ++ cs)) Meter.cap := by
    rw [counted, Charge.total_append]
    omega
  refine ⟨paid, c, unpaid, split, ?_, _, rfl, ?_, ?_⟩
  · rw [← uncapped]
    exact fits
  · rw [← uncapped]
    exact above
  · rw [← uncapped]
    exact out

theorem stopsAfter_of_over (beyond : limit < counted s before) :
    StopsAfter s limit before a (((Standing.fresh s limit).attemptAll before).outcome a) := by
  have fromZero (cs : List Charge) :
      (Standing.fresh s limit).meter.used + Charge.total cs = Charge.total cs := Nat.zero_add _
  obtain ⟨kept, first, later, split, fits, above, store, use⟩ :=
    Standing.attemptAll_of_exceeds (Standing.fresh s limit) before (Nat.zero_le _) (Nat.zero_le _)
      (by rw [fromZero]; exact beyond)
  rw [fromZero] at fits above
  have meter := Standing.meter_attemptAll (Standing.fresh s limit) before (Nat.zero_le _)
  have limits : ((Standing.fresh s limit).attemptAll before).meter.limit = limit := by
    rw [meter]
    rfl
  have bounded : ((Standing.fresh s limit).attemptAll before).meter.used ≤ Meter.cap := by
    rw [meter]
    exact Nat.min_le_right _ _
  obtain ⟨c, rest, charges, out⟩ := Standing.outcome_of_over (a := a) bounded (limits.symm ▸ use)
  have further : limit <
      (((Standing.fresh s limit).attemptAll before).meter.record c.amount).used :=
    Nat.lt_of_lt_of_le use (Nat.le_min.mpr ⟨Nat.le_add_right _ _, bounded⟩)
  rw [store] at charges
  rw [limits] at out
  refine ⟨kept, first, later, split, fits, above, c, rest, charges, ?_⟩
  rw [out]
  exact ⟨further, store, rfl⟩

/-- The meter is transparent: what the limit allows is as without a limit, the first access that it does
not allow stops at the charge in question, and every access after that one stops at once. -/
theorem attempts_transparent (s : Store) (limit : Nat) (before : List Access) (a : Access) :
    Transparent s limit before a
      (((Standing.mk s .unbounded).attemptAll before).outcome a)
      (((Standing.fresh s limit).attemptAll before).outcome a) := by
  have capped : counted s (before ++ [a]) ≤ Meter.cap := Nat.min_le_right _ _
  have free : ((Standing.mk s .unbounded).attemptAll before).outcome a = _ :=
    outcome_of_allowed capped
  have meter := Standing.meter_attemptAll (Standing.fresh s limit) before (Nat.zero_le _)
  have all := Standing.meter_attemptAll (Standing.fresh s limit) (before ++ [a]) (Nat.zero_le _)
  rw [Standing.attemptAll_snoc] at all
  constructor
  case unbounded => exact free
  case allowed =>
    intro allowed
    rw [free]
    exact outcome_of_allowed allowed
  case refused => exact stopsAt_of_refused
  case afterwards => exact stopsAfter_of_over
  case grows =>
    have bounded : ((Standing.fresh s limit).attemptAll before).meter.used ≤ Meter.cap := by
      rw [meter]
      exact Nat.min_le_right _ _
    have step := Standing.meter_attempt (a := a) bounded
    show _ ≤ (((Standing.fresh s limit).attemptAll before).attempt a).meter.used
    rw [step]
    exact Nat.le_min.mpr ⟨Nat.le_add_right _ _, bounded⟩
  case counts =>
    show (((Standing.fresh s limit).attemptAll before).attempt a).meter = _
    rw [all]
    simp only [Standing.fresh, Meter.new, Meter.record, Nat.zero_add]

/-- A write that can pay for itself but not for its bytes leaves the store as it is. -/
theorem write_stops_partway :
    counted .empty [] ≤ 2000 ∧ 2000 < counted .empty [.set [1] [2]] ∧
      StopsAt .empty 2000 [] (.set [1] [2]) ((Standing.fresh .empty 2000).outcome (.set [1] [2])) :=
  ⟨by decide, by decide,
    (attempts_transparent .empty 2000 [] (.set [1] [2])).refused (by decide) (by decide)⟩

end Access

end LedgerBridge
