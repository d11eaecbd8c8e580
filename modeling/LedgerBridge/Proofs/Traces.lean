import LedgerBridge.Proofs.Settlement

/-! What a call changes in a store, as a list of changes. Only the last change of each key counts, so
a branch that is kept leaves what the changes leave when they are made at once. A call that looks at
no key outside an area makes the same changes in all stores that are alike there, at the same price. -/
namespace LedgerBridge

/-- Some keys of a store. -/
abbrev Area := Bytes → Prop

namespace Store

theorem changeAll_append (s : Store) (l m : List (Bytes × Option Bytes)) :
    s.changeAll (l ++ m) = (s.changeAll l).changeAll m :=
  List.foldl_append

theorem changeAll_root (root : ByteMap Bytes) (l : List (Bytes × Option Bytes)) :
    (Store.mk root []).changeAll l = ⟨l.foldl (fun m p => Changes.put m p.1 p.2) root, []⟩ := by
  induction l generalizing root with
  | nil => rfl
  | cons p rest ih => exact ih (Changes.put root p.1 p.2)

theorem changeAll_branch (root : ByteMap Bytes) (changes : Changes) (below : List Changes)
    (l : List (Bytes × Option Bytes)) :
    (Store.mk root (changes :: below)).changeAll l =
      ⟨root, l.foldl (fun m p => m.insert p.1 p.2) changes :: below⟩ := by
  induction l generalizing changes with
  | nil => rfl
  | cons p rest ih => exact ih (changes.insert p.1 p.2)

theorem get?_foldl_put (l : List (Bytes × Option Bytes)) (v : Contents) (key : Bytes) :
    (l.foldl (fun m p => Changes.put m p.1 p.2) v).get? key =
      ((ByteMap.ofList l).get? key).getD (v.get? key) := by
  induction l generalizing v with
  | nil => rfl
  | cons p rest ih =>
    rw [List.foldl_cons, ih, ByteMap.get?_ofList_cons, Changes.get?_put]
    cases (ByteMap.ofList rest).get? key with
    | some change => rfl
    | none => split <;> rfl

/-- Only the last change of a key counts. -/
theorem changeAll_eq_of_last (s : Store) {l m : List (Bytes × Option Bytes)}
    (same : ByteMap.ofList l = ByteMap.ofList m) : s.changeAll l = s.changeAll m := by
  obtain ⟨root, branches⟩ := s
  cases branches with
  | nil =>
    rw [changeAll_root, changeAll_root]
    congr 1
    ext1 key
    rw [get?_foldl_put, get?_foldl_put, same]
  | cons changes below =>
    rw [changeAll_branch, changeAll_branch]
    congr 2
    ext1 key
    rw [ByteMap.get?_foldl_insert, ByteMap.get?_foldl_insert, same]

theorem changeAll_comm (s : Store) {l m : List (Bytes × Option Bytes)}
    (apart : ∀ p ∈ l, ∀ q ∈ m, p.1 ≠ q.1) :
    (s.changeAll l).changeAll m = (s.changeAll m).changeAll l := by
  rw [← changeAll_append, ← changeAll_append]
  exact s.changeAll_eq_of_last (ByteMap.ofList_append_comm apart)

/-- Keeping a branch makes its changes below, each key's last one. -/
theorem commit?_changeAll_branch (s : Store) (l : List (Bytes × Option Bytes)) :
    (s.branch.changeAll l).commit? = some (s.changeAll l) := by
  rw [branch, changeAll_branch, commit?]
  exact congrArg some (s.changeAll_eq_of_last (ByteMap.ofList_toList (ByteMap.ofList l)))

theorem discard?_changeAll_branch (s : Store) (l : List (Bytes × Option Bytes)) :
    (s.branch.changeAll l).discard? = some s := by
  rw [branch, changeAll_branch]
  rfl

/-- Nothing differs in the area. -/
def AlikeOn (area : Area) (s t : Store) : Prop := ∀ key, area key → s.get? key = t.get? key

variable {area : Area} {s t : Store}

theorem AlikeOn.change (alike : s.AlikeOn area t) (key : Bytes) (value : Option Bytes) :
    (s.change key value).AlikeOn area (t.change key value) := by
  intro other inside
  rw [get?_change, get?_change, alike other inside]

theorem alikeOn_of_view_eq (same : s.view = t.view) : s.AlikeOn area t := by
  intro key _
  rw [← get?_view, ← get?_view, same]

theorem get?_changeAll_of_ne {l : List (Bytes × Option Bytes)} {key : Bytes}
    (absent : ∀ p ∈ l, p.1 ≠ key) : (s.changeAll l).get? key = s.get? key := by
  rw [← get?_view, view_changeAll, get?_foldl_put, ByteMap.get?_ofList_eq_none absent, ← get?_view]
  rfl

/-- Changes elsewhere make no difference to an area. -/
theorem alikeOn_changeAll {l : List (Bytes × Option Bytes)} (outside : ∀ p ∈ l, ¬ area p.1) :
    s.AlikeOn area (s.changeAll l) := by
  intro key inside
  have absent : ∀ p ∈ l, p.1 ≠ key := by
    rintro p member rfl
    exact outside p member inside
  exact (get?_changeAll_of_ne absent).symm

theorem AlikeOn.scan_eq (alike : s.AlikeOn area t) {start : Bytes}
    (inside : ∀ key, start <+: key → area key) : s.scan start = t.scan start := by
  rw [Store.scan_eq, Store.scan_eq]
  congr 1
  ext1 key
  rw [ByteMap.get?_under, ByteMap.get?_under, get?_view, get?_view]
  by_cases begins : start <+: key
  · rw [alike key (inside key begins)]
  · simp [begins]

end Store

namespace Access

/-- Looks at and changes nothing outside the area. -/
def Within (area : Area) : Access → Prop
  | get key | has key | set key _ | erase key => area key
  | scan start => ∀ key, start <+: key → area key

/-- What the access changes. -/
def change? : Access → Option (Bytes × Option Bytes)
  | get _ | has _ | scan _ => none
  | set key value => some (key, some value)
  | erase key => some (key, none)

variable {area : Area} {a : Access} {s t : Store}

theorem effect_eq (s : Store) (a : Access) : a.effect s = s.changeAll a.change?.toList := by
  cases a <;> rfl

theorem Within.change (within : a.Within area) {p : Bytes × Option Bytes}
    (changes : a.change? = some p) : area p.1 := by
  cases a with
  | get | has | scan => cases changes
  | set | erase =>
    cases changes
    exact within

theorem answer_eq_of_alikeOn (within : a.Within area) (alike : s.AlikeOn area t) :
    a.answer s = a.answer t := by
  cases a with
  | get key => exact alike key within
  | has key => exact congrArg Option.isSome (alike key within)
  | scan start => exact alike.scan_eq within
  | set | erase => rfl

theorem cost_eq_of_alikeOn (within : a.Within area) (alike : s.AlikeOn area t) :
    a.cost s = a.cost t := by
  cases a with
  | get key => simp only [cost, charges, alike key within]
  | scan start => simp only [cost, charges, alike.scan_eq within]
  | has | set | erase => rfl

theorem effect_alikeOn (alike : s.AlikeOn area t) (a : Access) :
    (a.effect s).AlikeOn area (a.effect t) := by
  cases a with
  | get | has | scan => exact alike
  | set key value => exact alike.change key (some value)
  | erase key => exact alike.change key none

end Access

namespace Metered

/-- The accesses of a free run on a plain map. -/
def trace : Metered ε α → Contents → List Access
  | done _, _ | fail _, _ => []
  | access a next, v => a :: (next (a.answerIn v)).trace (a.effectIn v)

/-- What the run changes, in order. -/
def changes (x : Metered ε α) (v : Contents) : List (Bytes × Option Bytes) :=
  (x.trace v).filterMap Access.change?

variable {area : Area} {s t : Store}

theorem perform_eq_changeAll (x : Metered ε α) (s : Store) :
    (x.perform s).2 = s.changeAll (x.changes s.view) := by
  induction x generalizing s with
  | done | fail => rfl
  | access a next ih =>
    have rest := ih (a.answer s) (a.effect s)
    rw [Access.answer_view, Access.effect_view] at rest
    rw [perform, Access.answer_view, rest, Access.effect_eq, ← Store.changeAll_append, changes,
      changes, trace, List.filterMap_cons]
    cases a.change? <;> rfl

/-- What a free run in a branch leaves once the branch is kept. -/
theorem commit?_perform_branch (x : Metered ε α) (s : Store) :
    (x.perform s.branch).2.commit? = some (s.changeAll (x.changes s.view)) := by
  rw [perform_eq_changeAll, Store.view_branch, Store.commit?_changeAll_branch]

theorem area_of_mem_changes {x : Metered ε α} {v : Contents}
    (within : ∀ a ∈ x.trace v, a.Within area) {p : Bytes × Option Bytes}
    (member : p ∈ x.changes v) : area p.1 := by
  obtain ⟨a, traced, changes⟩ := List.mem_filterMap.mp member
  exact (within a traced).change changes

/-- A run that stays in an area goes the same way in stores that are alike there. -/
theorem same_of_alikeOn (x : Metered ε α) (within : ∀ a ∈ x.trace s.view, a.Within area)
    (alike : s.AlikeOn area t) :
    x.trace s.view = x.trace t.view ∧ (x.perform s).1 = (x.perform t).1 ∧ x.cost s = x.cost t := by
  induction x generalizing s t with
  | done | fail => exact ⟨rfl, rfl, rfl⟩
  | access a next ih =>
    have head : a.Within area := within a List.mem_cons_self
    have answer := Access.answer_eq_of_alikeOn head alike
    have tail : ∀ b ∈ (next (a.answer s)).trace (a.effect s).view, b.Within area := by
      rw [Access.answer_view, Access.effect_view]
      exact fun b member => within b (List.mem_cons_of_mem _ member)
    obtain ⟨traces, results, costs⟩ := ih (a.answer s) tail (Access.effect_alikeOn alike a)
    refine ⟨?_, ?_, ?_⟩
    · simp only [trace, ← Access.answer_view, ← Access.effect_view, ← answer, traces]
    · simp only [perform, ← answer, results]
    · simp only [cost, ← answer, costs, Access.cost_eq_of_alikeOn head alike]

end Metered

namespace Precompile

variable {area : Area} {s t : Store}

/-- A run of an operation makes changes in the area, or none at all, and ends in the same way
wherever the area is alike. -/
theorem execute_of_alikeOn (x : Action Completed) (f : Frame)
    (within : ∀ a ∈ x.trace s.view, a.Within area) (alike : s.AlikeOn area t) :
    ∃ changes : List (Bytes × Option Bytes), (∀ p ∈ changes, area p.1) ∧
      execute x s f = ⟨(execute x t f).result, s.changeAll changes, (execute x t f).frame⟩ ∧
      (execute x t f).store = t.changeAll changes := by
  have branched : s.branch.AlikeOn area t.branch := by
    intro key inside
    rw [← Store.get?_view, ← Store.get?_view, Store.view_branch, Store.view_branch,
      Store.get?_view, Store.get?_view, alike key inside]
  obtain ⟨traces, results, costs⟩ :=
    x.same_of_alikeOn (by rwa [Store.view_branch]) branched
  have prices : price x s = price x t := congrArg (min · Meter.cap) costs
  by_cases short : f.gas < price x s
  · refine ⟨[], by simp, ?_⟩
    rw [execute_of_lt_price short, execute_of_lt_price (prices ▸ short)]
    exact ⟨rfl, rfl⟩
  have enough := Nat.not_lt.mp short
  cases ended : (x.perform s.branch).1 with
  | error why =>
    refine ⟨[], by simp, ?_⟩
    rw [execute_of_failed enough ended, execute_of_failed (prices ▸ enough) (results ▸ ended)]
    exact ⟨rfl, rfl⟩
  | ok done =>
    refine ⟨x.changes s.view, fun p member => Metered.area_of_mem_changes within member, ?_⟩
    have changes : x.changes t.view = x.changes s.view := by
      rw [Metered.changes, Metered.changes, ← Store.view_branch s, ← Store.view_branch t, traces]
    rw [execute_of_done enough ended, execute_of_done (prices ▸ enough) (results ▸ ended), prices,
      Metered.commit?_perform_branch, Metered.commit?_perform_branch, changes]
    exact ⟨rfl, rfl⟩

end Precompile

/-- A call that stays in an area makes the same changes there in all stores that are alike on it. -/
theorem Request.call_of_alikeOn (q : Request) {area : Area} {s t : Store}
    (within : ∀ x, q.precompile.operation q.time q.frame q.origin q.readOnly = .ok x →
      ∀ a ∈ x.trace s.view, a.Within area) (alike : s.AlikeOn area t) :
    ∃ changes : List (Bytes × Option Bytes), (∀ p ∈ changes, area p.1) ∧
      q.call s = ⟨(q.call t).result, s.changeAll changes, (q.call t).frame⟩ ∧
      (q.call t).store = t.changeAll changes := by
  simp only [call, Precompile.run_eq]
  cases read : q.precompile.operation q.time q.frame q.origin q.readOnly with
  | error e => exact ⟨[], by simp, rfl, rfl⟩
  | ok x => exact Precompile.execute_of_alikeOn x q.frame (within x read) alike

end LedgerBridge
