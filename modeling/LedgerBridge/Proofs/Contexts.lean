import LedgerBridge.Proofs.Traces

/-! Calls made within a context, which has a store and a meter of its own. A call takes a branch of the
context, which starts with the context's meter, and puts the frame's meter in its place. So the branches
that a context has been taken from, and what its meter shows, make no difference to a call. -/
namespace LedgerBridge

structure Context where
  store : Store
  meter : Meter
  block : Block

/-- A call that is to be made in some context. -/
structure Invocation where
  precompile : Precompile
  frame : Frame
  origin : Address
  readOnly : Bool

/-- The call at a time. -/
def Invocation.at (i : Invocation) (time : UInt64) : Request :=
  ⟨i.precompile, time, i.frame, i.origin, i.readOnly⟩

/-- What a call in a context leaves behind. -/
structure ContextResult where
  result : Except CallError CallOutput
  context : Context
  frame : Frame

/-- What calls leave behind that are made in turn. -/
structure CallsResult where
  ends : List (Except CallError CallOutput × Frame)
  context : Context

namespace Store

/-- The store with a number of branches opened on top of it. -/
def nest (s : Store) : Nat → Store
  | 0 => s
  | n + 1 => (s.nest n).branch

/-- Keeps a number of branches, from the innermost outwards. -/
def commitAll? : Nat → Store → Option Store
  | 0, s => some s
  | n + 1, s => s.commit?.bind (commitAll? n)

/-- Leaves a number of branches without their changes. -/
def discardAll? : Nat → Store → Option Store
  | 0, s => some s
  | n + 1, s => s.discard?.bind (discardAll? n)

@[simp] theorem view_nest (s : Store) (n : Nat) : (s.nest n).view = s.view := by
  induction n with
  | zero => rfl
  | succ n ih => rw [nest, view_branch, ih]

/-- Changes made in the innermost of some branches are made at the root once all branches are kept. -/
theorem commitAll?_changeAll_nest (s : Store) (n : Nat) (l : List (Bytes × Option Bytes)) :
    commitAll? n ((s.nest n).changeAll l) = some (s.changeAll l) := by
  induction n with
  | zero => rfl
  | succ n ih => rw [nest, commitAll?, commit?_changeAll_branch, Option.bind_some, ih]

theorem discardAll?_nest (s : Store) (n : Nat) : discardAll? n (s.nest n) = some s := by
  induction n with
  | zero => rfl
  | succ n ih => exact ih

theorem discardAll?_changeAll_nest (s : Store) (n : Nat) (l : List (Bytes × Option Bytes)) :
    discardAll? (n + 1) ((s.nest (n + 1)).changeAll l) = some s := by
  rw [nest, discardAll?, discard?_changeAll_branch, Option.bind_some, discardAll?_nest]

end Store

namespace Context

/-- A branch of the store, with the meter as it stands. -/
def branch (c : Context) : Context := { c with store := c.store.branch }

/-- A branch of a branch, and so on. -/
def nest (c : Context) : Nat → Context
  | 0 => c
  | n + 1 => (c.nest n).branch

/-- Runs an operation in a branch on the frame's meter. Only what this meter shows beyond its start is
settled, and the context keeps its own meter. -/
def execute (c : Context) (operation : Action Completed) (f : Frame) : ContextResult :=
  let inner := { c.branch with meter := f.meter }
  let outcome := operation.run inner.store inner.meter
  let used := outcome.meter.used - inner.meter.used
  match f.settle used (outcome.result.mapError CallError.ofStop) with
  | (.ok (completed, gasUsed), f) =>
    ⟨.ok { completed with gasUsed }, { c with store := outcome.store.commit?.getD c.store }, f⟩
  | (.error e, f) => ⟨.error e, { c with store := outcome.store.discard?.getD c.store }, f⟩

def call (c : Context) (i : Invocation) : ContextResult :=
  match i.precompile.operation c.block.time i.frame i.origin i.readOnly with
  | .error e => ⟨.error e, c, i.frame⟩
  | .ok x => c.execute x i.frame

def callAll (c : Context) : List Invocation → CallsResult
  | [] => ⟨[], c⟩
  | i :: rest =>
    let first := c.call i
    let others := first.context.callAll rest
    ⟨(first.result, first.frame) :: others.ends, others.context⟩

theorem nest_eq (c : Context) (n : Nat) : c.nest n = { c with store := c.store.nest n } := by
  induction n with
  | zero => rfl
  | succ n ih => rw [nest, ih, branch, Store.nest]

theorem execute_eq (c : Context) (x : Action Completed) (f : Frame) :
    c.execute x f =
      ⟨(Precompile.execute x c.store f).result,
        { c with store := (Precompile.execute x c.store f).store },
        (Precompile.execute x c.store f).frame⟩ := by
  simp only [execute, branch, Precompile.execute, Frame.meter, Meter.new, Nat.sub_zero]
  generalize f.settle _ _ = settled
  rcases settled with ⟨e | ⟨completed, gasUsed⟩, left⟩ <;> rfl

/-- A call in a context is the call on its store at the time of its block. -/
theorem call_eq (c : Context) (i : Invocation) :
    c.call i =
      ⟨((i.at c.block.time).call c.store).result,
        { c with store := ((i.at c.block.time).call c.store).store },
        ((i.at c.block.time).call c.store).frame⟩ := by
  simp only [call, Invocation.at, Request.call, Precompile.run_eq]
  cases i.precompile.operation c.block.time i.frame i.origin i.readOnly with
  | error e => rfl
  | ok x => exact c.execute_eq x i.frame

/-- Two contexts that show the same at the same time answer a call alike, and it makes the same changes
in both. -/
theorem call_of_view_eq {c d : Context} (view : c.store.view = d.store.view)
    (block : c.block = d.block) (i : Invocation) :
    ∃ changes,
      c.call i =
        ⟨(d.call i).result, { c with store := c.store.changeAll changes }, (d.call i).frame⟩ ∧
      (d.call i).context = { d with store := d.store.changeAll changes } := by
  have everywhere (x : Action Completed) : ∀ a ∈ x.trace c.store.view, a.Within fun _ => True := by
    intro a _
    cases a with
    | scan start => exact fun _ _ => trivial
    | get | has | set | erase => trivial
  obtain ⟨changes, -, called, store⟩ :=
    (i.at c.block.time).call_of_alikeOn (fun x _ => everywhere x) (Store.alikeOn_of_view_eq view)
  refine ⟨changes, ?_, ?_⟩
  · rw [call_eq, call_eq, ← block, called]
  · rw [call_eq, ← block, store]

theorem callAll_of_view_eq (calls : List Invocation) {c d : Context}
    (view : c.store.view = d.store.view) (block : c.block = d.block) :
    ∃ changes,
      c.callAll calls =
        ⟨(d.callAll calls).ends, { c with store := c.store.changeAll changes }⟩ ∧
      (d.callAll calls).context = { d with store := d.store.changeAll changes } := by
  induction calls generalizing c d with
  | nil => exact ⟨[], rfl, rfl⟩
  | cons i rest ih =>
    obtain ⟨first, called, left⟩ := call_of_view_eq view block i
    have next : (c.store.changeAll first).view = (d.call i).context.store.view := by
      rw [left, Store.view_changeAll, Store.view_changeAll, view]
    obtain ⟨others, ran, ended⟩ :=
      ih (c := { c with store := c.store.changeAll first }) next (by rw [left, block])
    refine ⟨first ++ others, ?_, ?_⟩
    · rw [callAll, called, callAll]
      simp only [ran, Store.changeAll_append]
    · simp only [callAll]
      rw [ended, left, Store.changeAll_append]

/-- Calls within any number of branches of a context, on whatever meter, end as they do in the context
itself. Kept from the innermost outwards, the branches leave the same store; left behind, they leave the
store that was there. No call touches the meter of the context that it is made in. -/
theorem callAll_nest (c : Context) (m : Meter) (n : Nat) (calls : List Invocation) :
    let direct := c.callAll calls
    let nested := fun k => { c.nest k with meter := m }.callAll calls
    (nested n).ends = direct.ends ∧
      (nested n).context.store.commitAll? n = some direct.context.store ∧
      (nested (n + 1)).context.store.discardAll? (n + 1) = some c.store ∧
      (nested n).context.meter = m ∧ direct.context.meter = c.meter := by
  intro direct nested
  have goes (k : Nat) : ∃ changes,
      nested k = ⟨direct.ends, { c with store := (c.store.nest k).changeAll changes, meter := m }⟩ ∧
      direct.context = { c with store := c.store.changeAll changes } := by
    have inner : { c.nest k with meter := m } = { c with store := c.store.nest k, meter := m } := by
      rw [nest_eq]
    simp only [nested, inner]
    exact callAll_of_view_eq calls (Store.view_nest c.store k) rfl
  obtain ⟨changes, ran, ended⟩ := goes n
  obtain ⟨others, left, -⟩ := goes (n + 1)
  rw [ran, ended, left]
  refine ⟨rfl, ?_, ?_, rfl, rfl⟩
  · exact Store.commitAll?_changeAll_nest c.store n changes
  · exact Store.discardAll?_changeAll_nest c.store n others

end Context

end LedgerBridge
