import LedgerBridge.Outpost.Swap
import LedgerBridge.Proofs.Evaluation
import LedgerBridge.TokenContract.Operations

/-! How computations fail. Errors that carry a text are told apart by how the text begins. -/
namespace LedgerBridge

/-- The text starts in this way. -/
def Begins (start text : String) : Prop := start.toList <+: text.toList

instance (start text : String) : Decidable (Begins start text) :=
  inferInstanceAs (Decidable (start.toList <+: text.toList))

namespace Begins

variable {start other text : String}

theorem refl (text : String) : Begins text text := List.prefix_rfl

theorem append (h : Begins start text) (rest : String) : Begins start (text ++ rest) := by
  rw [Begins, String.toList_append]
  exact h.trans (List.prefix_append _ _)

/-- Of two beginnings of a text, one is that of the other. -/
theorem total (h : Begins start text) (h' : Begins other text) :
    Begins start other ∨ Begins other start := List.prefix_or_prefix_of_prefix h h'

/-- After a common beginning it matters how the rest begins. -/
theorem append_iff {rest : String} : Begins (start ++ rest) (start ++ text) ↔ Begins rest text := by
  rw [Begins, String.toList_append, String.toList_append]
  exact List.prefix_append_right_inj _

end Begins

/-- If there is a failure, it is an allowed one. -/
def FailsOnly (allowed : ε → Prop) (x : Except ε α) : Prop := ∀ e, x = .error e → allowed e

section

variable {allowed wider : ε → Prop} {x : Except ε α}

theorem failsOnly_ok (a : α) : FailsOnly allowed (.ok a) := nofun

theorem failsOnly_error {e : ε} (h : allowed e) : FailsOnly allowed (.error e : Except ε α) := by
  rintro _ ⟨⟩
  exact h

theorem FailsOnly.mono (h : FailsOnly allowed x) (within : ∀ e, allowed e → wider e) :
    FailsOnly wider x :=
  fun e failed => within e (h e failed)

theorem FailsOnly.bind {f : α → Except ε β} (first : FailsOnly allowed x)
    (rest : ∀ a, FailsOnly allowed (f a)) : FailsOnly allowed (x >>= f) := by
  cases x with
  | ok a => exact rest a
  | error e => exact failsOnly_error (first e rfl)

theorem failsOnly_forM {items : List α} {f : α → Except ε PUnit}
    (each : ∀ a, FailsOnly allowed (f a)) : FailsOnly allowed (items.forM f) := by
  induction items with
  | nil => exact failsOnly_ok _
  | cons a rest ih => exact (each a).bind fun _ => ih

theorem failsOnly_mapError {f : ε' → ε} {y : Except ε' α} (h : ∀ e, allowed (f e)) :
    FailsOnly allowed (y.mapError f) := by
  cases y with
  | ok a => exact failsOnly_ok a
  | error e => exact failsOnly_error (h e)

end

/-- A complaint that starts in one of these ways. -/
def Refusal.Starts (starts : List String) (why : Refusal) : Prop :=
  ∃ start ∈ starts, ∃ reason, why = .invalid reason ∧ Begins start reason

theorem TokenContract.AllowanceChange.failsOnly_next (change : AllowanceChange) (denom : String)
    (current : Option Amount) (amount : Amount) :
    FailsOnly (Refusal.Starts ["allowance for token ", "amount ", "subtracted value "])
      (change.next denom current amount) := by
  have none : Refusal.Starts ["allowance for token ", "amount ", "subtracted value "]
      (noAllowance denom) :=
    ⟨_, .head _, _, rfl, ((Begins.refl _).append _).append _⟩
  unfold next
  split
  · exact failsOnly_ok _
  · split
    · exact failsOnly_error none
    · exact failsOnly_ok _
  · split
    · exact failsOnly_error none
    · exact failsOnly_ok _
  · split
    · exact failsOnly_ok _
    · exact failsOnly_error ⟨_, .tail _ (.head _), _, rfl, ((Begins.refl _).append _).append _⟩
  · exact failsOnly_error none
  · split
    · exact failsOnly_ok _
    · refine failsOnly_error ⟨_, .tail _ (.tail _ (.head _)), _, rfl, ?_⟩
      exact Begins.append (by decide) _

namespace Outpost

theorem failsOnly_check (r : SwapRequest) (supported : List String) :
    FailsOnly (Refusal.Starts ["input ", "slippage ", "window "]) (r.check supported) := by
  simp only [SwapRequest.check, error_bind]
  split
  · exact failsOnly_error ⟨_, .head _, _, rfl, Begins.append (by decide) _⟩
  · split
    · exact failsOnly_error ⟨_, .head _, _, rfl, (Begins.append (by decide) _).append _⟩
    · split
      · exact failsOnly_error ⟨_, .tail _ (.head _), _, rfl, by decide⟩
      · split
        · exact failsOnly_error ⟨_, .tail _ (.tail _ (.head _)), _, rfl, by decide⟩
        · exact failsOnly_ok _

theorem failsOnly_effectiveSender (caller origin sender : Address) :
    FailsOnly (Refusal.Starts ["origin address "]) (effectiveSender caller origin sender) := by
  unfold effectiveSender
  split
  · exact failsOnly_ok _
  · split
    · exact failsOnly_ok _
    · refine failsOnly_error ⟨_, .head _, _, rfl, ?_⟩
      exact (((Begins.refl _).append _).append _).append _

end Outpost

namespace Metered

/-- No run fails in one of these ways. -/
def Excludes (bad : ε → Prop) (x : Metered ε α) : Prop :=
  ∀ e, bad e → Avoids (fun _ => True) e x

variable {bad : ε → Prop} {x : Metered ε α}

theorem excludes_pure (a : α) : Excludes bad (pure a : Metered ε α) := fun _ _ => avoids_pure a

theorem excludes_fail {e : ε} (h : ¬ bad e) : Excludes bad (fail e : Metered ε α) := by
  rintro _ wrong v - failed
  cases failed
  exact h wrong

theorem excludes_liftM {y : Except ε α} (h : FailsOnly (¬ bad ·) y) :
    Excludes bad (liftM y : Metered ε α) :=
  fun e wrong => avoids_liftM fun failed => h e failed wrong

theorem Excludes.bind {f : α → Metered ε β} (first : Excludes bad x)
    (rest : ∀ a, Excludes bad (f a)) : Excludes bad (x >>= f) :=
  fun e wrong => (first e wrong).bind (fun _ _ => trivial) fun a => rest a e wrong

theorem Excludes.discard (h : Excludes bad x) : Excludes bad (discard x) :=
  h.bind fun _ => excludes_pure ()

theorem excludes_mapError {f : ε' → ε} {y : Metered ε' α}
    (h : ∀ e, bad (f e) → Avoids (fun _ => True) e y) : Excludes bad (y.mapError f) := by
  intro e wrong
  apply avoids_mapError
  rintro why rfl
  exact h why wrong

end Metered

end LedgerBridge
