import LedgerBridge.Proofs.Contents

/-! Branches against whole copies. A store that keeps only what each branch has changed answers every
sequence of steps as a stack of plain maps does, where a branch is opened by copying the map on top. -/
namespace LedgerBridge

/-- A plain map for each branch, innermost first, and the one at the root last. -/
structure Layers where
  top : Bytes → Option Bytes
  below : List (Bytes → Option Bytes)

namespace Layers

def change (m : Layers) (key : Bytes) (value : Option Bytes) : Layers :=
  { m with top := fun other => if key = other then value else m.top other }

def copy (m : Layers) : Layers := ⟨m.top, m.top :: m.below⟩

/-- The map below the top becomes the same as the top. -/
def replace (m : Layers) : Layers :=
  match m.below with
  | [] => m
  | _ :: rest => ⟨m.top, m.top :: rest⟩

def pop (m : Layers) : Layers :=
  match m.below with
  | [] => m
  | next :: rest => ⟨next, rest⟩

end Layers

namespace Store

inductive Step
  | get (key : Bytes)
  | has (key : Bytes)
  | scan (start : Bytes)
  | put (key value : Bytes)
  | erase (key : Bytes)
  | batch (changes : List (Bytes × Option Bytes))
  | branch
  | write
  | discard

inductive Answer
  | value (found : Option Bytes)
  | flag (holds : Bool)
  | entries (listed : List (Bytes × Bytes))
  | nothing

namespace Step

/-- A change as a step of its own. -/
def ofChange : Bytes × Option Bytes → Step
  | (key, some value) => put key value
  | (key, none) => erase key

def perform : Step → Store → Answer × Store
  | get key, s => (.value (s.get? key), s)
  | has key, s => (.flag (s.contains key), s)
  | scan start, s => (.entries (s.scan start), s)
  | put key value, s => (.nothing, s.put key value)
  | erase key, s => (.nothing, s.erase key)
  | batch changes, s => (.nothing, s.changeAll changes)
  | branch, s => (.nothing, s.branch)
  | write, s => (.nothing, s.write)
  | discard, s => (.flag s.discard?.isSome, s.discard?.getD s)

/-- What a step makes of plain maps. -/
def onLayers : Step → Layers → Layers
  | get _, m | has _, m | scan _, m => m
  | put key value, m => m.change key (some value)
  | erase key, m => m.change key none
  | batch changes, m => changes.foldl (fun m p => m.change p.1 p.2) m
  | branch, m => m.copy
  | write, m => m.replace
  | discard, m => m.pop

/-- The answer that the top map gives. -/
inductive AnsweredBy (m : Layers) : Step → Answer → Prop
  | get : AnsweredBy m (get key) (.value (m.top key))
  | has : AnsweredBy m (has key) (.flag (m.top key).isSome)
  | scan (ordered : listed.Pairwise (·.1 < ·.1))
      (exact : ∀ key value, (key, value) ∈ listed ↔ start <+: key ∧ m.top key = some value) :
      AnsweredBy m (scan start) (.entries listed)
  | put : AnsweredBy m (put key value) .nothing
  | erase : AnsweredBy m (erase key) .nothing
  | batch : AnsweredBy m (batch changes) .nothing
  | branch : AnsweredBy m branch .nothing
  | write : AnsweredBy m write .nothing
  | discard : AnsweredBy m discard (.flag !m.below.isEmpty)

end Step

/-- Takes the steps one after another, with all answers. -/
def performAll : List Step → Store → List Answer × Store
  | [], s => ([], s)
  | step :: steps, s =>
    ((step.perform s).1 :: (performAll steps (step.perform s).2).1,
      (performAll steps (step.perform s).2).2)

/-- Plain maps account for steps with these answers, and end as these maps. -/
inductive Accounts : Layers → List Step → List Answer → Layers → Prop
  | nil : Accounts m [] [] m
  | cons (first : step.AnsweredBy m answer) (rest : Accounts (step.onLayers m) steps answers last) :
      Accounts m (step :: steps) (answer :: answers) last

/-- What a reader would find below the innermost of the branches. -/
def layersBelow (root : ByteMap Bytes) : List Changes → List (Bytes → Option Bytes)
  | [] => []
  | _ :: below => (Store.mk root below).get? :: layersBelow root below

/-- What a reader would find in each branch. -/
def layers (s : Store) : Layers := ⟨s.get?, layersBelow s.root s.branches⟩

theorem layers_change (s : Store) (key : Bytes) (value : Option Bytes) :
    (s.change key value).layers = s.layers.change key value := by
  have top : (s.change key value).layers.top = (s.layers.change key value).top :=
    funext fun other => get?_change s key other value
  obtain ⟨root, branches⟩ := s
  cases branches with
  | nil => exact congrArg (Layers.mk · []) top
  | cons changes below => exact congrArg (Layers.mk · _) top

theorem layers_changeAll (s : Store) (changes : List (Bytes × Option Bytes)) :
    (s.changeAll changes).layers = changes.foldl (fun m p => m.change p.1 p.2) s.layers := by
  induction changes generalizing s with
  | nil => rfl
  | cons p rest ih =>
    rw [List.foldl_cons, ← layers_change]
    exact ih (s.change p.1 p.2)

theorem layers_branch (s : Store) : s.branch.layers = s.layers.copy := by
  have top : s.branch.get? = s.get? := funext fun key => by
    rw [← get?_view, view_branch, get?_view]
  rw [layers, top]
  rfl

/-- Changing the top map leaves all maps below as they are. -/
theorem below_changeAll (s : Store) (changes : List (Bytes × Option Bytes)) :
    (s.changeAll changes).layers.below = s.layers.below := by
  induction changes generalizing s with
  | nil => rfl
  | cons p rest ih => exact (ih (s.change p.1 p.2)).trans (by rw [layers_change]; rfl)

theorem layers_write (s : Store) : s.write.layers = s.layers.replace := by
  obtain ⟨root, branches⟩ := s
  cases branches with
  | nil => rfl
  | cons changes below =>
    have inner : (Store.mk root (changes :: below)).IsBranchOf ⟨root, below⟩ := ⟨changes, rfl⟩
    obtain ⟨kept, commit, view⟩ := inner.commit
    have top : kept.layers.top = (Store.mk root (changes :: below)).get? := funext fun key => by
      change kept.get? key = _
      rw [← get?_view, view, get?_view]
    have lower : kept.layers.below = (Store.mk root below).layers.below := by
      cases commit
      exact below_changeAll ⟨root, below⟩ changes.toList
    have written : (Store.mk root (changes :: below)).write = kept.branch := by
      rw [write, commit]
    rw [written, layers_branch, Layers.copy, top, lower]
    rfl

theorem layers_discard (s : Store) : (s.discard?.getD s).layers = s.layers.pop := by
  obtain ⟨root, branches⟩ := s
  cases branches <;> rfl

theorem Step.layers_perform (step : Step) (s : Store) :
    (step.perform s).2.layers = step.onLayers s.layers := by
  cases step with
  | get | has | scan => rfl
  | put key value => exact layers_change s key (some value)
  | erase key => exact layers_change s key none
  | batch changes => exact layers_changeAll s changes
  | branch => exact layers_branch s
  | write => exact layers_write s
  | discard => exact layers_discard s

theorem Step.answeredBy_layers (step : Step) (s : Store) :
    step.AnsweredBy s.layers (step.perform s).1 := by
  cases step with
  | get => exact .get
  | has => exact .has
  | scan start =>
    refine .scan (ByteMap.sorted _) fun key value => ?_
    change (key, value) ∈ s.scan start ↔ start <+: key ∧ s.get? key = some value
    rw [scan_eq, ByteMap.mem_toList_iff, ByteMap.get?_under, get?_view]
    by_cases begins : start <+: key <;> simp [begins]
  | put => exact .put
  | erase => exact .erase
  | batch => exact .batch
  | branch => exact .branch
  | write => exact .write
  | discard =>
    have known : s.discard?.isSome = !s.layers.below.isEmpty := by
      obtain ⟨root, branches⟩ := s
      cases branches <;> rfl
    rw [perform, known]
    exact .discard

theorem accounts_layers (steps : List Step) (s : Store) :
    Accounts s.layers steps (performAll steps s).1 (performAll steps s).2.layers := by
  induction steps generalizing s with
  | nil => exact .nil
  | cons step steps ih =>
    refine .cons (step.answeredBy_layers s) ?_
    rw [← step.layers_perform s]
    exact ih (step.perform s).2

theorem getLast?_dirty_write (s : Store) : ∀ n ∈ s.write.dirty.getLast?, n = 0 := by
  obtain ⟨root, branches⟩ := s
  cases branches with
  | nil =>
    intro n member
    cases member
  | cons changes below =>
    intro n member
    simp only [write, commit?, branch, dirty, List.map_cons, List.reverse_cons,
      List.getLast?_concat, Option.mem_some_iff] at member
    exact member.symm

theorem performAll_ofChange (changes : List (Bytes × Option Bytes)) (s : Store) :
    (performAll (changes.map .ofChange) s).2 = s.changeAll changes := by
  induction changes generalizing s with
  | nil => rfl
  | cons p rest ih =>
    obtain ⟨key, value⟩ := p
    cases value with
    | none => exact ih (s.change key none)
    | some value => exact ih (s.change key (some value))

/-- Plain maps account for every sequence of steps, with the last maps those that the store shows.
Writing a branch leaves nothing pending in it and shows the same, discarding one leaves what is below
untouched, and a batch does what its changes do one after another. -/
theorem performAll_refines_layers (steps : List Step) (s : Store) :
    Accounts s.layers steps (performAll steps s).1 (performAll steps s).2.layers ∧
      s.write.get? = s.get? ∧ (∀ n ∈ s.write.dirty.getLast?, n = 0) ∧
      (∀ below, s.IsBranchOf below → s.discard? = some below) ∧
      ∀ changes, (performAll [.batch changes] s).2 = (performAll (changes.map .ofChange) s).2 := by
  refine ⟨accounts_layers steps s, ?_, getLast?_dirty_write s, ?_, ?_⟩
  · have same := congrArg Layers.top (layers_write s)
    rw [Layers.replace] at same
    split at same <;> exact same
  · exact fun below branch => branch.discard
  · intro changes
    exact (performAll_ofChange changes s).symm

end Store

end LedgerBridge
