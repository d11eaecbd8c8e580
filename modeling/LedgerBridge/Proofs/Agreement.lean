import LedgerBridge.Proofs.Evaluation

/-! Runs on a meter compared with each other and with free runs. Computations that do the same wherever
a property holds cost the same too, on whatever meter they run. -/
namespace LedgerBridge.Metered

variable {x y : Metered ε α} {s : Store} {m : Meter} {a : α}

theorem run_bind (x : Metered ε α) (f : α → Metered ε β) (s : Store) (m : Meter) :
    (x >>= f).run s m =
      match (x.run s m).result with
      | .ok a => (f a).run (x.run s m).store (x.run s m).meter
      | .error e => ⟨.error e, (x.run s m).store, (x.run s m).meter⟩ := by
  induction x generalizing s m with
  | done | fail => rfl
  | access a next ih =>
    show (Metered.access a fun answer => next answer >>= f).run s m = _
    simp only [run]
    cases m.chargeAll (a.charges s) with
    | mk m stopped =>
      cases stopped with
      | none => exact ih (a.answer s) (a.effect s) m
      | some e => rfl

/-- What is made of the result does not matter to the run. -/
theorem run_map (f : α → β) (x : Metered ε α) (s : Store) (m : Meter) :
    (f <$> x).run s m = ⟨(x.run s m).result.map f, (x.run s m).store, (x.run s m).meter⟩ := by
  rw [map_eq_pure_bind, run_bind]
  rcases x.run s m with ⟨_ | _, _, _⟩ <;> rfl

/-- A meter stops a run, or leaves it as it is without one. -/
theorem exhausted_or_perform (x : Metered ε α) (s : Store) (m : Meter) :
    (∃ e, (x.run s m).result = .error (.exhausted e)) ∨
      (x.run s m).result = (x.perform s).1.mapError .failed ∧
        (x.run s m).store = (x.perform s).2 := by
  induction x generalizing s m with
  | done | fail => exact .inr ⟨rfl, rfl⟩
  | access a next ih =>
    simp only [run, perform]
    cases m.chargeAll (a.charges s) with
    | mk m stopped =>
      cases stopped with
      | none => exact ih (a.answer s) (a.effect s) m
      | some e => exact .inl ⟨e, rfl⟩

theorem gives_of_run_ok (h : (x.run s m).result = .ok a) :
    x.Gives s.contents a (x.run s m).store.contents := by
  rcases exhausted_or_perform x s m with ⟨e, stopped⟩ | ⟨result, store⟩
  · rw [stopped] at h
    cases h
  · rw [h] at result
    rw [store]
    exact gives_of_perform (mapError_eq_ok.mp result.symm)

/-- A run that the meter did not stop fails as the free run does. -/
theorem evaluate_of_run_failed {e : ε} (h : (x.run s m).result = .error (.failed e)) :
    (x.evaluate s.contents).1 = .error e := by
  rcases exhausted_or_perform x s m with ⟨e, stopped⟩ | ⟨result, -⟩
  · rw [stopped] at h
    cases h
  · rw [← perform_view x s]
    cases free : (x.perform s).1 with
    | ok a => simp [h, free] at result
    | error why =>
      simp only [h, free, mapError_error, Except.error.injEq, Stop.failed.injEq] at result
      rw [result]

/-- Wherever the property holds, the computations do the same at the same cost. -/
def Agree (property : Contents → Prop) (x y : Metered ε α) : Prop :=
  ∀ s m, property s.contents → x.run s m = y.run s m

variable {property : Contents → Prop} {f g : α → Metered ε β}

theorem agree_refl (x : Metered ε α) : Agree property x x := fun _ _ _ => rfl

theorem Agree.bind (first : Agree property x y) (after : α → Contents → Prop)
    (gives : ∀ v a w, property v → x.Gives v a w → after a w)
    (rest : ∀ a, Agree (after a) (f a) (g a)) : Agree property (x >>= f) (y >>= g) := by
  intro s m holds
  rw [run_bind, run_bind, ← first s m holds]
  cases ended : (x.run s m).result with
  | error e => rfl
  | ok a =>
    exact rest a _ _ (gives _ a _ holds (gives_of_run_ok ended))

theorem Agree.forM {items : List α} {f g : α → Metered ε PUnit}
    (each : ∀ a ∈ items, Agree property (f a) (g a))
    (keeps : ∀ a ∈ items, Keeps property (f a)) :
    Agree property (items.forM f) (items.forM g) := by
  induction items with
  | nil => exact agree_refl _
  | cons a rest ih =>
    have tail := ih (fun b member => each b (List.mem_cons_of_mem _ member))
      fun b member => keeps b (List.mem_cons_of_mem _ member)
    refine (each a List.mem_cons_self).bind (fun _ => property) (fun v _ w holds run => ?_) fun _ =>
      tail
    exact (keeps a List.mem_cons_self).of_gives run holds

end LedgerBridge.Metered
