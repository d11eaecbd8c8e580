import LedgerBridge.Precompile.Call
import LedgerBridge.Proofs.Contents
import LedgerBridge.Proofs.Results

/-! Runs on plain maps taken apart: what it means that a compound computation succeeds, and what all of
its runs keep, whether they succeed or not. -/
namespace LedgerBridge

namespace Metered

@[simp] theorem evaluate_pure (a : α) (v : Contents) :
    (pure a : Metered ε α).evaluate v = (.ok a, v) := rfl

@[simp] theorem evaluate_fail (e : ε) (v : Contents) :
    (fail e : Metered ε α).evaluate v = (.error e, v) := rfl

theorem evaluate_bind (x : Metered ε α) (f : α → Metered ε β) (v : Contents) :
    (x >>= f).evaluate v =
      match x.evaluate v with
      | (.ok a, w) => (f a).evaluate w
      | (.error e, w) => (.error e, w) := by
  induction x generalizing v with
  | done | fail => rfl
  | access a next ih => exact ih (a.answerIn v) (a.effectIn v)

theorem evaluate_bind_of_error {x : Metered ε α} {v u : Contents} {e : ε}
    (failed : x.evaluate v = (.error e, u)) (f : α → Metered ε β) :
    (x >>= f).evaluate v = (.error e, u) := by
  rw [evaluate_bind, failed]

theorem evaluate_map (f : α → β) (x : Metered ε α) (v : Contents) :
    (f <$> x).evaluate v = ((x.evaluate v).1.map f, (x.evaluate v).2) := by
  rw [map_eq_pure_bind, evaluate_bind]
  rcases x.evaluate v with ⟨_ | _, _⟩ <;> rfl

theorem evaluate_mapError (f : ε → ε') (x : Metered ε α) (v : Contents) :
    (x.mapError f).evaluate v = ((x.evaluate v).1.mapError f, (x.evaluate v).2) := by
  induction x generalizing v with
  | done | fail => rfl
  | access a next ih => exact ih (a.answerIn v) (a.effectIn v)

theorem evaluate_liftM (e : Except ε α) (v : Contents) :
    (liftM e : Metered ε α).evaluate v = (e, v) := by
  cases e <;> rfl

@[simp] theorem evaluate_get (key : Bytes) (v : Contents) :
    (get key : Metered ε _).evaluate v = (.ok (v.get? key), v) := rfl

@[simp] theorem evaluate_has (key : Bytes) (v : Contents) :
    (has key : Metered ε _).evaluate v = (.ok (v.contains key), v) := rfl

@[simp] theorem evaluate_scan (start : Bytes) (v : Contents) :
    (scan start : Metered ε _).evaluate v = (.ok (v.under start).toList, v) := rfl

@[simp] theorem evaluate_set (key value : Bytes) (v : Contents) :
    (set key value : Metered ε _).evaluate v = (.ok (), Changes.put v key (some value)) := rfl

@[simp] theorem evaluate_erase (key : Bytes) (v : Contents) :
    (erase key : Metered ε _).evaluate v = (.ok (), Changes.put v key none) := rfl

variable {x : Metered ε α} {v u w : Contents} {a : α}

theorem evaluate_bind_of_gives (run : x.Gives v a u) (f : α → Metered ε β) :
    (x >>= f).evaluate v = (f a).evaluate u := by
  rw [evaluate_bind, run]

/-- A computation gives one result. -/
theorem Gives.unique {b : α} (run : x.Gives v a u) (again : x.Gives v b w) : a = b := by
  have same := run.symm.trans again
  simp only [Prod.mk.injEq, Except.ok.injEq] at same
  exact same.1

@[simp] theorem gives_pure {b : α} : (pure a : Metered ε α).Gives v b w ↔ a = b ∧ v = w := by
  simp [Gives]

@[simp] theorem gives_fail {e : ε} : ¬ (fail e : Metered ε α).Gives v a w := by
  simp [Gives]

@[simp] theorem gives_bind {f : α → Metered ε β} {b : β} :
    (x >>= f).Gives v b w ↔ ∃ a u, x.Gives v a u ∧ (f a).Gives u b w := by
  simp only [Gives]
  rw [evaluate_bind]
  split
  · rename_i a u h
    rw [h]
    constructor
    · intro rest
      exact ⟨a, u, rfl, rest⟩
    · rintro ⟨_, _, same, rest⟩
      cases same
      exact rest
  · rename_i e u h
    rw [h]
    simp

@[simp] theorem gives_map {f : α → β} {b : β} :
    (f <$> x).Gives v b w ↔ ∃ a, x.Gives v a w ∧ f a = b := by
  rw [map_eq_pure_bind, gives_bind]
  simp only [gives_pure]
  constructor
  · rintro ⟨a, u, run, rfl, rfl⟩
    exact ⟨a, run, rfl⟩
  · rintro ⟨a, run, rfl⟩
    exact ⟨a, w, run, rfl, rfl⟩

@[simp] theorem gives_mapError {f : ε → ε'} : (x.mapError f).Gives v a w ↔ x.Gives v a w := by
  simp only [Gives]
  rw [evaluate_mapError]
  rcases x.evaluate v with ⟨result, u⟩
  simp

@[simp] theorem gives_liftM {e : Except ε α} :
    (liftM e : Metered ε α).Gives v a w ↔ e = .ok a ∧ v = w := by
  simp [Gives, evaluate_liftM]

@[simp] theorem gives_get {key : Bytes} {found : Option Bytes} :
    (get key : Metered ε _).Gives v found w ↔ v.get? key = found ∧ v = w := by
  simp [Gives]

@[simp] theorem gives_has {key : Bytes} {found : Bool} :
    (has key : Metered ε _).Gives v found w ↔ v.contains key = found ∧ v = w := by
  simp [Gives]

@[simp] theorem gives_set {key value : Bytes} {done : Unit} :
    (set key value : Metered ε _).Gives v done w ↔ Changes.put v key (some value) = w := by
  simp [Gives]

@[simp] theorem gives_erase {key : Bytes} {done : Unit} :
    (erase key : Metered ε _).Gives v done w ↔ Changes.put v key none = w := by
  simp [Gives]

@[simp] theorem gives_discard {done : Unit} :
    (discard x).Gives v done w ↔ ∃ a, x.Gives v a w := by
  have plain : discard x = x >>= fun _ => pure () := rfl
  rw [plain, gives_bind]
  simp

theorem gives_forM_nil {f : α → Metered ε PUnit} {done : PUnit} :
    (([] : List α).forM f).Gives v done w ↔ v = w := by
  simp

theorem gives_forM_cons {f : α → Metered ε PUnit} {items : List α} {done : PUnit} :
    ((a :: items).forM f).Gives v done w ↔
      ∃ u, (f a).Gives v () u ∧ (items.forM f).Gives u done w := by
  simp only [List.forM_eq_forM, List.forM_cons, gives_bind]
  exact ⟨fun ⟨_, rest⟩ => rest, fun rest => ⟨(), rest⟩⟩

/-- A property that a compound computation has if its parts have it. What comes second may build on what
the first has found. -/
structure Composes (P : ∀ {α : Type}, Metered ε α → Prop) : Prop where
  of_pure {α : Type} (a : α) : P (pure a : Metered ε α)
  bind_gives {α β : Type} {x : Metered ε α} {f : α → Metered ε β} (first : P x)
    (rest : ∀ v a w, x.Gives v a w → P (f a)) : P (x >>= f)

section Composes

variable {P : ∀ {α : Type}, Metered ε α → Prop}

theorem Composes.bind (composes : Composes P) {f : α → Metered ε β} (first : P x)
    (rest : ∀ a, P (f a)) : P (x >>= f) := composes.bind_gives first fun _ a _ _ => rest a

theorem Composes.discard (composes : Composes P) (h : P x) : P (discard x) :=
  composes.bind h fun _ => composes.of_pure ()

theorem Composes.forM (composes : Composes P) {items : List α} {f : α → Metered ε PUnit}
    (each : ∀ a ∈ items, P (f a)) : P (items.forM f) := by
  induction items with
  | nil => exact composes.of_pure _
  | cons a rest ih =>
    have tail := ih fun b member => each b (List.mem_cons_of_mem _ member)
    exact composes.bind (each a List.mem_cons_self) fun _ => tail

theorem Composes.mapM (composes : Composes P) {items : List α} {f : α → Metered ε β}
    (each : ∀ a ∈ items, P (f a)) : P (items.mapM f) := by
  induction items with
  | nil => exact composes.of_pure _
  | cons a rest ih =>
    have tail := ih fun b member => each b (List.mem_cons_of_mem _ member)
    rw [List.mapM_cons]
    exact composes.bind (each a List.mem_cons_self) fun _ =>
      composes.bind tail fun _ => composes.of_pure _

end Composes

/-- No run changes anything. -/
def Reads (x : Metered ε α) : Prop := ∀ v, (x.evaluate v).2 = v

theorem Reads.eq_of_gives (h : Reads x) (run : x.Gives v a w) : w = v := by
  have same := h v
  rw [run] at same
  exact same

theorem reads_pure (a : α) : Reads (pure a : Metered ε α) := fun _ => rfl

theorem reads_fail (e : ε) : Reads (fail e : Metered ε α) := fun _ => rfl

theorem reads_liftM (e : Except ε α) : Reads (liftM e : Metered ε α) := by
  intro v
  rw [evaluate_liftM]

theorem reads_get (key : Bytes) : Reads (get key : Metered ε _) := fun _ => rfl

theorem reads_has (key : Bytes) : Reads (has key : Metered ε _) := fun _ => rfl

theorem reads_scan (start : Bytes) : Reads (scan start : Metered ε _) := fun _ => rfl

theorem composes_reads : Composes fun {_} (x : Metered ε _) => Reads x where
  of_pure := reads_pure
  bind_gives first rest := by
    intro v
    have same := first v
    rw [evaluate_bind]
    split
    · rename_i a u run
      rw [run] at same
      cases same
      exact rest u a u run u
    · rename_i e u run
      rw [run] at same
      exact same

theorem Reads.bind {f : α → Metered ε β} (first : Reads x) (rest : ∀ a, Reads (f a)) :
    Reads (x >>= f) := composes_reads.bind first rest

theorem Reads.mapError (h : Reads x) (f : ε → ε') : Reads (x.mapError f) := by
  intro v
  rw [evaluate_mapError]
  exact h v

/-- A run that fails leaves no trace. -/
def Clean (x : Metered ε α) : Prop := ∀ v e w, x.evaluate v = (.error e, w) → w = v

/-- A run succeeds wherever it starts. -/
def Succeeds (x : Metered ε α) : Prop := ∀ v, ∃ a w, x.Gives v a w

theorem succeeds_get (key : Bytes) : Succeeds (get key : Metered ε _) := fun _ => ⟨_, _, rfl⟩

theorem succeeds_has (key : Bytes) : Succeeds (has key : Metered ε _) := fun _ => ⟨_, _, rfl⟩

theorem succeeds_set (key value : Bytes) : Succeeds (set key value : Metered ε _) :=
  fun _ => ⟨_, _, rfl⟩

theorem succeeds_erase (key : Bytes) : Succeeds (erase key : Metered ε _) := fun _ => ⟨_, _, rfl⟩

theorem Reads.clean (h : Reads x) : Clean x := by
  intro v e w failed
  have same := h v
  rw [failed] at same
  exact same

theorem Succeeds.clean (h : Succeeds x) : Clean x := by
  intro v e w failed
  obtain ⟨a, u, run⟩ := h v
  rw [run] at failed
  cases failed

theorem Reads.bind_clean {f : α → Metered ε β} (first : Reads x) (rest : ∀ a, Clean (f a)) :
    Clean (x >>= f) := by
  intro v e w failed
  rw [evaluate_bind] at failed
  split at failed
  · rename_i a u run
    have same := first v
    rw [run] at same
    cases same
    exact rest a u e w failed
  · rename_i e' u run
    cases failed
    exact first.clean v e w run

theorem Clean.bind_succeeds {f : α → Metered ε β} (first : Clean x) (rest : ∀ a, Succeeds (f a)) :
    Clean (x >>= f) := by
  intro v e w failed
  rw [evaluate_bind] at failed
  split at failed
  · rename_i a u run
    obtain ⟨b, u', ends⟩ := rest a u
    rw [ends] at failed
    cases failed
  · rename_i e' u run
    cases failed
    exact first v e w run

/-- A clean run succeeds, or is as if it had not been. -/
theorem Clean.cases (h : Clean x) (v : Contents) :
    (∃ a w, x.Gives v a w) ∨ ∃ e, x.evaluate v = (.error e, v) := by
  rcases ended : x.evaluate v with ⟨e | a, w⟩
  · cases h v e w ended
    exact .inr ⟨e, rfl⟩
  · exact .inl ⟨a, w, ended⟩

/-- No run breaks the property, wherever it ends. -/
def Keeps (property : Contents → Prop) (x : Metered ε α) : Prop :=
  ∀ v, property v → property (x.evaluate v).2

variable {property : Contents → Prop}

theorem Reads.keeps (h : Reads x) : Keeps property x := by
  intro v start
  rw [h v]
  exact start

theorem Clean.keeps (h : Clean x) (gives : ∀ v a w, property v → x.Gives v a w → property w) :
    Keeps property x := by
  intro v start
  rcases h.cases v with ⟨a, w, run⟩ | ⟨e, failed⟩
  · rw [run]
    exact gives v a w start run
  · rw [failed]
    exact start

theorem keeps_pure (a : α) : Keeps property (pure a : Metered ε α) := (reads_pure a).keeps

theorem keeps_fail (e : ε) : Keeps property (fail e : Metered ε α) := (reads_fail e).keeps

theorem keeps_liftM (e : Except ε α) : Keeps property (liftM e : Metered ε α) :=
  (reads_liftM e).keeps

/-- What comes second may build on what the first has found. -/
theorem Keeps.bind_gives {f : α → Metered ε β} (first : Keeps property x)
    (rest : ∀ v a w, property v → x.Gives v a w → Keeps property (f a)) :
    Keeps property (x >>= f) := by
  intro v h
  have middle := first v h
  rw [evaluate_bind]
  split
  · rename_i a u same
    rw [same] at middle
    exact rest v a u h same u middle
  · rename_i e u same
    rw [same] at middle
    exact middle

theorem composes_keeps : Composes fun {_} (x : Metered ε _) => Keeps property x where
  of_pure := keeps_pure
  bind_gives first rest := first.bind_gives fun v a w _ run => rest v a w run

theorem Keeps.bind {f : α → Metered ε β} (first : Keeps property x)
    (rest : ∀ a, Keeps property (f a)) : Keeps property (x >>= f) := composes_keeps.bind first rest

theorem Keeps.mapError (h : Keeps property x) (f : ε → ε') : Keeps property (x.mapError f) := by
  intro v start
  rw [evaluate_mapError]
  exact h v start

theorem Keeps.discard (h : Keeps property x) : Keeps property (discard x) :=
  composes_keeps.discard h

theorem Keeps.of_gives (h : Keeps property x) (run : x.Gives v a w) (start : property v) :
    property w := by
  have ended := h v start
  rw [run] at ended
  exact ended

/-- No run that starts where the property holds fails in this way. -/
def Avoids (property : Contents → Prop) (e : ε) (x : Metered ε α) : Prop :=
  ∀ v, property v → (x.evaluate v).1 ≠ .error e

variable {e : ε}

theorem avoids_pure (a : α) : Avoids property e (pure a : Metered ε α) := fun _ _ => nofun

theorem avoids_liftM {y : Except ε α} (h : y ≠ .error e) :
    Avoids property e (liftM y : Metered ε α) := by
  intro v _
  rw [evaluate_liftM]
  exact h

theorem Succeeds.avoids (h : Succeeds x) : Avoids property e x := by
  intro v _ failed
  obtain ⟨a, w, run⟩ := h v
  rw [run] at failed
  cases failed

theorem Avoids.mono {wider : Contents → Prop} (h : Avoids wider e x)
    (within : ∀ v, property v → wider v) : Avoids property e x :=
  fun v start => h v (within v start)

theorem Avoids.bind_gives {f : α → Metered ε β} (first : Avoids property e x)
    (keeps : Keeps property x)
    (rest : ∀ v a w, property v → x.Gives v a w → Avoids property e (f a)) :
    Avoids property e (x >>= f) := by
  intro v start
  have between := keeps v start
  have avoided := first v start
  rw [evaluate_bind]
  split
  · rename_i a u run
    rw [run] at between
    exact rest v a u start run u between
  · rename_i why u run
    rw [run] at avoided
    simpa using avoided

theorem Avoids.bind {f : α → Metered ε β} (first : Avoids property e x)
    (keeps : Keeps property x) (rest : ∀ a, Avoids property e (f a)) :
    Avoids property e (x >>= f) :=
  first.bind_gives keeps fun _ a _ _ _ => rest a

/-- To go on avoiding a failure, a run has to keep what it started with. -/
theorem composes_avoids :
    Composes fun {_} (x : Metered ε _) => Avoids property e x ∧ Keeps property x where
  of_pure a := ⟨avoids_pure a, keeps_pure a⟩
  bind_gives first rest :=
    ⟨first.1.bind_gives first.2 fun v a w _ run => (rest v a w run).1,
      composes_keeps.bind_gives first.2 fun v a w run => (rest v a w run).2⟩

theorem avoids_mapError {f : ε' → ε} {y : Metered ε' α}
    (h : ∀ e', f e' = e → Avoids property e' y) : Avoids property e (y.mapError f) := by
  intro v start failed
  rw [evaluate_mapError] at failed
  cases ended : (y.evaluate v).1 with
  | ok a =>
    rw [ended] at failed
    cases failed
  | error why =>
    rw [ended] at failed
    exact h why (by simpa using failed) v start ended

theorem Avoids.discard (h : Avoids property e x) (keeps : Keeps property x) :
    Avoids property e (discard x) :=
  h.bind keeps fun _ => avoids_pure ()

theorem avoids_forM {items : List α} {f : α → Metered ε PUnit}
    (each : ∀ a ∈ items, Avoids property e (f a)) (keeps : ∀ a ∈ items, Keeps property (f a)) :
    Avoids property e (items.forM f) :=
  (composes_avoids.forM fun a member => ⟨each a member, keeps a member⟩).1

end Metered

namespace Action

open Metered

variable {x : Ledger α} {v w : Contents} {a : α}

@[simp] theorem gives_ofLedger : (ofLedger x).Gives v a w ↔ x.Gives v a w := gives_mapError

@[simp] theorem gives_ofTokenLedger : (ofTokenLedger x).Gives v a w ↔ x.Gives v a w :=
  gives_mapError

end Action

end LedgerBridge
