import LedgerBridge.Store.ByteMap

/-! A store of bytes by key with branches on top of it. A branch keeps its changes to itself until it
is written into what is below; what a reader sees is one plain map, `view`. -/
namespace LedgerBridge

/-- Changes by key: a new value, or none for a removal. -/
abbrev Changes := ByteMap (Option Bytes)

namespace Changes

def put (below : ByteMap Bytes) (key : Bytes) : Option Bytes → ByteMap Bytes
  | some value => below.insert key value
  | none => below.erase key

/-- The map that changes lead to. -/
def applyTo (changes : Changes) (below : ByteMap Bytes) : ByteMap Bytes :=
  changes.toList.foldl (fun m p => put m p.1 p.2) below

@[simp] theorem get?_put (below : ByteMap Bytes) (key other : Bytes) (change : Option Bytes) :
    (put below key change).get? other = if key = other then change else below.get? other := by
  cases change <;> simp [put]

theorem get?_foldl_put {l : List (Bytes × Option Bytes)} (h : l.Pairwise (·.1 < ·.1))
    (below : ByteMap Bytes) (key : Bytes) :
    (l.foldl (fun m p => put m p.1 p.2) below).get? key =
      (ByteMap.lookup key l).getD (below.get? key) := by
  induction l generalizing below with
  | nil => rfl
  | cons p rest ih =>
    obtain ⟨k, change⟩ := p
    obtain ⟨hk, hrest⟩ := List.pairwise_cons.mp h
    rw [List.foldl_cons, ih hrest]
    by_cases hkey : k = key
    · subst hkey
      simp [ByteMap.lookup, ByteMap.lookup_eq_none_of_lt hk]
    · simp [ByteMap.lookup, hkey]

@[simp] theorem get?_applyTo (changes : Changes) (below : ByteMap Bytes) (key : Bytes) :
    (changes.applyTo below).get? key = (changes.get? key).getD (below.get? key) :=
  get?_foldl_put changes.sorted below key

end Changes

/-- Branches are listed innermost first. -/
structure Store where
  root : ByteMap Bytes
  branches : List Changes
  deriving Inhabited

namespace Store

def empty : Store := ⟨∅, []⟩

instance : EmptyCollection Store := ⟨empty⟩

def getIn (root : ByteMap Bytes) (key : Bytes) : List Changes → Option Bytes
  | [] => root.get? key
  | changes :: below =>
    match changes.get? key with
    | some change => change
    | none => getIn root key below

def get? (s : Store) (key : Bytes) : Option Bytes := getIn s.root key s.branches

def contains (s : Store) (key : Bytes) : Bool := (s.get? key).isSome

/-- Sets or removes a key in the innermost branch. -/
def change (s : Store) (key : Bytes) (value : Option Bytes) : Store :=
  match s.branches with
  | [] => { s with root := Changes.put s.root key value }
  | changes :: below => { s with branches := changes.insert key value :: below }

def put (s : Store) (key value : Bytes) : Store := s.change key (some value)

def erase (s : Store) (key : Bytes) : Store := s.change key none

def changeAll (s : Store) (changes : List (Bytes × Option Bytes)) : Store :=
  changes.foldl (fun s p => s.change p.1 p.2) s

def scanIn (root : ByteMap Bytes) (start : Bytes) : List Changes → ByteMap Bytes
  | [] => root.under start
  | changes :: below => Changes.applyTo (changes.under start) (scanIn root start below)

/-- The entries whose keys begin with `start`, in the order of keys. -/
def scan (s : Store) (start : Bytes) : List (Bytes × Bytes) :=
  (scanIn s.root start s.branches).toList

def viewIn (root : ByteMap Bytes) : List Changes → ByteMap Bytes
  | [] => root
  | changes :: below => changes.applyTo (viewIn root below)

/-- What a reader sees. -/
def view (s : Store) : ByteMap Bytes := viewIn s.root s.branches

def branch (s : Store) : Store := { s with branches := ∅ :: s.branches }

/-- Leaves the innermost branch without its changes; none if there is no branch. -/
def discard? (s : Store) : Option Store :=
  match s.branches with
  | [] => none
  | _ :: below => some { s with branches := below }

/-- Leaves the innermost branch after its changes are made below it; none if there is no branch. -/
def commit? (s : Store) : Option Store :=
  match s.branches with
  | [] => none
  | changes :: below => some (changeAll { s with branches := below } changes.toList)

/-- Makes the innermost branch's changes below it and goes on in the same branch. -/
def write (s : Store) : Store :=
  match s.commit? with
  | some below => below.branch
  | none => s

/-- How many keys each branch has changed, outermost first. -/
def dirty (s : Store) : List Nat := (s.branches.map ByteMap.size).reverse

/-! Operations in terms of the view. -/

theorem get?_viewIn (root : ByteMap Bytes) (key : Bytes) (branches : List Changes) :
    (viewIn root branches).get? key = getIn root key branches := by
  induction branches with
  | nil => rfl
  | cons changes below ih =>
    simp only [viewIn, Changes.get?_applyTo, getIn, ih]
    cases changes.get? key <;> rfl

@[simp] theorem get?_view (s : Store) (key : Bytes) : s.view.get? key = s.get? key :=
  get?_viewIn s.root key s.branches

@[simp] theorem view_change (s : Store) (key : Bytes) (value : Option Bytes) :
    (s.change key value).view = Changes.put s.view key value := by
  ext1 other
  obtain ⟨root, branches⟩ := s
  cases branches with
  | nil => rfl
  | cons changes below =>
    by_cases h : key = other <;> simp [change, view, viewIn, h]

@[simp] theorem view_branch (s : Store) : s.branch.view = s.view := by
  ext1 key
  simp [branch, view, viewIn]

end Store

end LedgerBridge
