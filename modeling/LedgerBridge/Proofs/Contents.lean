import LedgerBridge.Metered

/-! Computations on plain maps. A store with branches answers as the one map that its reader sees, so a
free run is a run on that map; what a run changed in a branch is not lost when the branch is kept. -/
namespace LedgerBridge

/-- What a reader finds in a store. -/
abbrev Contents := ByteMap Bytes

namespace Store

abbrev contents (s : Store) : Contents := s.view

@[simp] theorem get?_change (s : Store) (key other : Bytes) (value : Option Bytes) :
    (s.change key value).get? other = if key = other then value else s.get? other := by
  rw [← get?_view, view_change, Changes.get?_put, get?_view]

/-- A listing goes through the entries that a reader sees, whichever branch they are in. -/
theorem scan_eq (s : Store) (start : Bytes) : s.scan start = (s.view.under start).toList := by
  have same (branches : List Changes) :
      scanIn s.root start branches = (viewIn s.root branches).under start := by
    induction branches with
    | nil => rfl
    | cons changes below ih =>
      ext1 key
      by_cases h : start.isPrefixOf key <;> simp [scanIn, viewIn, ih, h]
  exact congrArg ByteMap.toList (same s.branches)

theorem view_changeAll (s : Store) (l : List (Bytes × Option Bytes)) :
    (s.changeAll l).view = l.foldl (fun m p => Changes.put m p.1 p.2) s.view := by
  induction l generalizing s with
  | nil => rfl
  | cons p rest ih =>
    rw [changeAll, List.foldl_cons, List.foldl_cons, ← view_change]
    exact ih (s.change p.1 p.2)

/-- A store that is one branch of another, whatever it has changed. -/
def IsBranchOf (s below : Store) : Prop :=
  ∃ changes, s = { below with branches := changes :: below.branches }

theorem isBranchOf_branch (s : Store) : s.branch.IsBranchOf s := ⟨∅, rfl⟩

theorem IsBranchOf.change {s below : Store} (h : s.IsBranchOf below) (key : Bytes)
    (value : Option Bytes) : (s.change key value).IsBranchOf below := by
  obtain ⟨changes, rfl⟩ := h
  exact ⟨changes.insert key value, rfl⟩

/-- Keeping a branch leaves the reader with what the branch showed. -/
theorem IsBranchOf.commit {s below : Store} (h : s.IsBranchOf below) :
    ∃ kept, s.commit? = some kept ∧ kept.view = s.view := by
  obtain ⟨changes, rfl⟩ := h
  refine ⟨below.changeAll changes.toList, rfl, ?_⟩
  rw [view_changeAll]
  rfl

theorem IsBranchOf.discard {s below : Store} (h : s.IsBranchOf below) : s.discard? = some below := by
  obtain ⟨changes, rfl⟩ := h
  rfl

end Store

namespace Access

def answerIn (v : Contents) : (a : Access) → a.Answer
  | get key => v.get? key
  | has key => v.contains key
  | scan start => (v.under start).toList
  | set _ _ | erase _ => ()

def effectIn (v : Contents) : Access → Contents
  | get _ | has _ | scan _ => v
  | set key value => Changes.put v key (some value)
  | erase key => Changes.put v key none

theorem answer_view (s : Store) (a : Access) : a.answer s = a.answerIn s.view := by
  cases a with
  | get key => exact (Store.get?_view s key).symm
  | has key => exact congrArg Option.isSome (Store.get?_view s key).symm
  | scan start => exact Store.scan_eq s start
  | set | erase => rfl

theorem effect_view (s : Store) (a : Access) : (a.effect s).view = a.effectIn s.view := by
  cases a with
  | get | has | scan => rfl
  | set key value => exact Store.view_change s key (some value)
  | erase key => exact Store.view_change s key none

theorem effect_isBranchOf {s below : Store} (h : s.IsBranchOf below) (a : Access) :
    (a.effect s).IsBranchOf below := by
  cases a with
  | get | has | scan => exact h
  | set key value => exact h.change key (some value)
  | erase key => exact h.change key none

end Access

namespace Metered

/-- A free run on a plain map. -/
def evaluate : Metered ε α → Contents → Except ε α × Contents
  | done a, v => (.ok a, v)
  | fail e, v => (.error e, v)
  | access a next, v => (next (a.answerIn v)).evaluate (a.effectIn v)

/-- A free run on a store does what it does on the map that the store shows. -/
theorem perform_view (x : Metered ε α) (s : Store) :
    ((x.perform s).1, (x.perform s).2.view) = x.evaluate s.view := by
  induction x generalizing s with
  | done | fail => rfl
  | access a next ih =>
    rw [perform, evaluate, ← Access.answer_view, ← Access.effect_view]
    exact ih (a.answer s) (a.effect s)

theorem perform_isBranchOf (x : Metered ε α) {s below : Store} (h : s.IsBranchOf below) :
    (x.perform s).2.IsBranchOf below := by
  induction x generalizing s with
  | done | fail => exact h
  | access a next ih => exact ih (a.answer s) (Access.effect_isBranchOf h a)

theorem run_isBranchOf (x : Metered ε α) {s below : Store} (h : s.IsBranchOf below) (m : Meter) :
    (x.run s m).store.IsBranchOf below := by
  induction x generalizing s m with
  | done | fail => exact h
  | access a next ih =>
    rw [run]
    split
    · exact ih (a.answer s) (Access.effect_isBranchOf h a) _
    · exact h

/-- However a run in a branch has ended, what it did is gone once the branch is discarded. -/
theorem discard?_run (x : Metered ε α) (s : Store) (m : Meter) :
    (x.run s.branch m).store.discard? = some s :=
  (x.run_isBranchOf s.isBranchOf_branch m).discard

/-- The computation succeeds on a map, with this result and this map at the end. -/
def Gives (x : Metered ε α) (v : Contents) (a : α) (v' : Contents) : Prop :=
  x.evaluate v = (.ok a, v')

theorem gives_of_perform {x : Metered ε α} {s : Store} {a : α}
    (h : (x.perform s).1 = .ok a) : x.Gives s.view a (x.perform s).2.view := by
  have same := perform_view x s
  rw [h] at same
  exact same.symm

theorem perform_of_gives {x : Metered ε α} {s : Store} {a : α} {v : Contents}
    (h : x.Gives s.view a v) : (x.perform s).1 = .ok a :=
  congrArg Prod.fst ((perform_view x s).trans h)

end Metered

end LedgerBridge
