import LedgerBridge.Bytes

/-! Finite maps from byte strings, listed in the order of their keys. Two maps with the same look-ups
are equal, and so are their listings. -/
namespace LedgerBridge

structure ByteMap (α : Type) where
  toList : List (Bytes × α)
  sorted : toList.Pairwise (·.1 < ·.1)

namespace ByteMap

def empty : ByteMap α := ⟨[], .nil⟩

instance : EmptyCollection (ByteMap α) := ⟨empty⟩
instance : Inhabited (ByteMap α) := ⟨empty⟩

def lookup (key : Bytes) : List (Bytes × α) → Option α
  | [] => none
  | (k, a) :: rest => if k = key then some a else lookup key rest

def get? (m : ByteMap α) (key : Bytes) : Option α := lookup key m.toList

def contains (m : ByteMap α) (key : Bytes) : Bool := (m.get? key).isSome

def size (m : ByteMap α) : Nat := m.toList.length

def isEmpty (m : ByteMap α) : Bool := m.toList.isEmpty

def insertList (key : Bytes) (a : α) : List (Bytes × α) → List (Bytes × α)
  | [] => [(key, a)]
  | (k, b) :: rest =>
    if key < k then (key, a) :: (k, b) :: rest
    else if key = k then (key, a) :: rest
    else (k, b) :: insertList key a rest

theorem mem_insertList {key : Bytes} {a : α} {l : List (Bytes × α)} {p : Bytes × α}
    (h : p ∈ insertList key a l) : p.1 = key ∨ p ∈ l := by
  induction l with
  | nil => simp [insertList] at h; exact .inl (by rw [h])
  | cons q rest ih =>
    obtain ⟨k, b⟩ := q
    unfold insertList at h
    split at h
    · rcases List.mem_cons.mp h with rfl | h
      · exact .inl rfl
      · exact .inr h
    · split at h
      · rcases List.mem_cons.mp h with rfl | h
        · exact .inl rfl
        · exact .inr (List.mem_cons_of_mem _ h)
      · rcases List.mem_cons.mp h with rfl | h
        · exact .inr List.mem_cons_self
        · exact (ih h).imp_right (List.mem_cons_of_mem _)

theorem sorted_insertList (key : Bytes) (a : α) {l : List (Bytes × α)}
    (h : l.Pairwise (·.1 < ·.1)) : (insertList key a l).Pairwise (·.1 < ·.1) := by
  induction l with
  | nil => simp [insertList]
  | cons q rest ih =>
    obtain ⟨k, b⟩ := q
    obtain ⟨hk, hrest⟩ := List.pairwise_cons.mp h
    unfold insertList
    split
    · rename_i hlt
      refine List.pairwise_cons.mpr ⟨fun p hp => ?_, h⟩
      rcases List.mem_cons.mp hp with rfl | hp
      · exact hlt
      · exact Bytes.lt_trans hlt (hk p hp)
    · split
      · rename_i heq
        subst heq
        exact List.pairwise_cons.mpr ⟨hk, hrest⟩
      · rename_i hlt hne
        refine List.pairwise_cons.mpr ⟨fun p hp => ?_, ih hrest⟩
        rcases mem_insertList hp with rfl | hp
        · rcases Bytes.lt_or_eq_or_lt p.1 k with h' | h' | h'
          · exact absurd h' hlt
          · exact absurd h' hne
          · exact h'
        · exact hk p hp

def insert (m : ByteMap α) (key : Bytes) (a : α) : ByteMap α :=
  ⟨insertList key a m.toList, sorted_insertList key a m.sorted⟩

/-- The entries whose keys pass the test. -/
def filter (m : ByteMap α) (test : Bytes → Bool) : ByteMap α :=
  ⟨m.toList.filter fun p => test p.1, m.sorted.filter _⟩

def erase (m : ByteMap α) (key : Bytes) : ByteMap α := m.filter (· ≠ key)

/-- The entries whose keys begin with `start`. They are found by a walk that sets out at `start` and
ends at the first key that does not begin with it. -/
def under (m : ByteMap α) (start : Bytes) : ByteMap α :=
  ⟨(m.toList.dropWhile fun p => p.1 < start).takeWhile fun p => start.isPrefixOf p.1,
    m.sorted.sublist ((List.takeWhile_sublist _).trans (List.dropWhile_sublist _))⟩

def ofList (entries : List (Bytes × α)) : ByteMap α :=
  entries.foldl (fun m p => m.insert p.1 p.2) ∅

def keys (m : ByteMap α) : List Bytes := m.toList.map (·.1)

def values (m : ByteMap α) : List α := m.toList.map (·.2)

/-! What each operation does to the look-ups. -/

@[simp] theorem get?_empty (key : Bytes) : (∅ : ByteMap α).get? key = none := rfl

theorem lookup_eq_none_of_lt {key : Bytes} {l : List (Bytes × α)} (h : ∀ p ∈ l, key < p.1) :
    lookup key l = none := by
  induction l with
  | nil => rfl
  | cons p rest ih =>
    have hp := h p List.mem_cons_self
    have hne : p.1 ≠ key := fun e => Bytes.lt_irrefl key (e ▸ hp)
    simp [lookup, hne, ih fun q hq => h q (List.mem_cons_of_mem _ hq)]

theorem lookup_insertList (key other : Bytes) (a : α) {l : List (Bytes × α)} :
    lookup other (insertList key a l) = if key = other then some a else lookup other l := by
  induction l with
  | nil => rfl
  | cons q rest ih =>
    obtain ⟨k, b⟩ := q
    unfold insertList
    split
    · rfl
    · split
      · rename_i heq; subst heq
        by_cases h : key = other <;> simp [lookup, h]
      · rename_i hne
        by_cases hk : k = other
        · have : key ≠ other := fun e => hne (e.trans hk.symm)
          simp [lookup, hk, this]
        · simp [lookup, hk, ih]

@[simp] theorem get?_insert (m : ByteMap α) (key other : Bytes) (a : α) :
    (m.insert key a).get? other = if key = other then some a else m.get? other :=
  lookup_insertList key other a

theorem lookup_filter (test : Bytes → Bool) (key : Bytes) (l : List (Bytes × α)) :
    lookup key (l.filter fun p => test p.1) = if test key then lookup key l else none := by
  induction l with
  | nil => simp [lookup]
  | cons p rest ih =>
    obtain ⟨k, b⟩ := p
    by_cases hk : k = key
    · subst hk
      by_cases ht : test k <;> simp_all [lookup]
    · by_cases ht : test k <;> simp_all [lookup]

@[simp] theorem get?_filter (m : ByteMap α) (test : Bytes → Bool) (key : Bytes) :
    (m.filter test).get? key = if test key then m.get? key else none :=
  lookup_filter test key m.toList

@[simp] theorem get?_erase (m : ByteMap α) (key other : Bytes) :
    (m.erase key).get? other = if key = other then none else m.get? other := by
  by_cases h : key = other
  · simp [erase, h]
  · simp [erase, h, Ne.symm h]

/-- Among keys in order from `start` on, those that begin with `start` come first. -/
theorem takeWhile_eq_filter {start : Bytes} {l : List (Bytes × α)} (h : l.Pairwise (·.1 < ·.1))
    (low : ∀ p ∈ l, ¬ p.1 < start) :
    l.takeWhile (fun p => start.isPrefixOf p.1) = l.filter fun p => start.isPrefixOf p.1 := by
  induction l with
  | nil => rfl
  | cons p rest ih =>
    obtain ⟨hp, hrest⟩ := List.pairwise_cons.mp h
    by_cases begins : start <+: p.1
    · rw [List.takeWhile_cons_of_pos (by simpa using begins),
        List.filter_cons_of_pos (by simpa using begins),
        ih hrest fun q hq => low q (List.mem_cons_of_mem _ hq)]
    · have later : ∀ q ∈ p :: rest, ¬ start <+: q.1 := by
        intro q hq later
        rcases List.mem_cons.mp hq with rfl | hq
        · exact begins later
        · exact begins (Bytes.isPrefix_of_between (low p List.mem_cons_self) (hp q hq) later)
      rw [List.takeWhile_cons_of_neg (by simpa using begins)]
      symm
      apply List.filter_eq_nil_iff.mpr
      simpa using later

theorem walk_eq_filter (start : Bytes) {l : List (Bytes × α)} (h : l.Pairwise (·.1 < ·.1)) :
    (l.dropWhile fun p => p.1 < start).takeWhile (fun p => start.isPrefixOf p.1) =
      l.filter fun p => start.isPrefixOf p.1 := by
  induction l with
  | nil => rfl
  | cons p rest ih =>
    obtain ⟨hp, hrest⟩ := List.pairwise_cons.mp h
    by_cases below : p.1 < start
    · rw [List.dropWhile_cons_of_pos (by simpa using below), ih hrest, List.filter_cons_of_neg]
      simpa using Bytes.not_isPrefix_of_lt below
    · rw [List.dropWhile_cons_of_neg (by simpa using below)]
      apply takeWhile_eq_filter h
      intro q hq less
      rcases List.mem_cons.mp hq with rfl | hq
      · exact below less
      · exact below (Bytes.lt_trans (hp q hq) less)

/-- The walk misses nothing. -/
theorem under_eq_filter (m : ByteMap α) (start : Bytes) :
    m.under start = m.filter start.isPrefixOf := by
  simp only [under, filter, mk.injEq]
  exact walk_eq_filter start m.sorted

@[simp] theorem get?_under (m : ByteMap α) (start key : Bytes) :
    (m.under start).get? key = if start.isPrefixOf key then m.get? key else none := by
  rw [under_eq_filter, get?_filter]

theorem lookup_eq_some_iff {l : List (Bytes × α)} (h : l.Pairwise (·.1 < ·.1)) {key : Bytes}
    {a : α} : lookup key l = some a ↔ (key, a) ∈ l := by
  induction l with
  | nil => simp [lookup]
  | cons p rest ih =>
    obtain ⟨k, b⟩ := p
    obtain ⟨hk, hrest⟩ := List.pairwise_cons.mp h
    by_cases hkey : k = key
    · subst hkey
      have : (k, a) ∉ rest := fun hm => Bytes.lt_irrefl k (hk _ hm)
      simp [lookup, this, eq_comm]
    · have : key ≠ k := Ne.symm hkey
      simp [lookup, hkey, this, ih hrest]

/-- The listing holds exactly what look-ups find. -/
theorem mem_toList_iff (m : ByteMap α) {key : Bytes} {a : α} :
    (key, a) ∈ m.toList ↔ m.get? key = some a := (lookup_eq_some_iff m.sorted).symm

theorem toList_ext {l₁ l₂ : List (Bytes × α)} (h₁ : l₁.Pairwise (·.1 < ·.1))
    (h₂ : l₂.Pairwise (·.1 < ·.1)) (h : ∀ key, lookup key l₁ = lookup key l₂) : l₁ = l₂ := by
  induction l₁ generalizing l₂ with
  | nil =>
    cases l₂ with
    | nil => rfl
    | cons p _ => have := h p.1; simp [lookup] at this
  | cons p rest₁ ih =>
    obtain ⟨k, a⟩ := p
    obtain ⟨hk, hrest₁⟩ := List.pairwise_cons.mp h₁
    cases l₂ with
    | nil => have := h k; simp [lookup] at this
    | cons q rest₂ =>
      obtain ⟨j, b⟩ := q
      obtain ⟨hj, hrest₂⟩ := List.pairwise_cons.mp h₂
      have hkj : k = j := by
        rcases Bytes.lt_or_eq_or_lt k j with hlt | heq | hlt
        · have hnone : lookup k ((j, b) :: rest₂) = none := lookup_eq_none_of_lt fun p hp => by
            rcases List.mem_cons.mp hp with rfl | hp
            · exact hlt
            · exact Bytes.lt_trans hlt (hj p hp)
          have := h k
          rw [hnone, lookup, if_pos rfl] at this
          cases this
        · exact heq
        · have hnone : lookup j ((k, a) :: rest₁) = none := lookup_eq_none_of_lt fun p hp => by
            rcases List.mem_cons.mp hp with rfl | hp
            · exact hlt
            · exact Bytes.lt_trans hlt (hk p hp)
          have := h j
          rw [hnone, lookup, if_pos rfl] at this
          cases this
      subst hkj
      have hab : a = b := by have := h k; simpa [lookup] using this
      subst hab
      congr 1
      refine ih hrest₁ hrest₂ fun key => ?_
      by_cases hkey : k = key
      · subst hkey
        rw [lookup_eq_none_of_lt hk, lookup_eq_none_of_lt hj]
      · have := h key
        simpa [lookup, hkey] using this

@[ext] theorem ext {m₁ m₂ : ByteMap α} (h : ∀ key, m₁.get? key = m₂.get? key) : m₁ = m₂ := by
  cases m₁; cases m₂
  congr
  exact toList_ext ‹_› ‹_› h

/-! Entries that are put in one after another. -/

theorem get?_foldl_insert (entries : List (Bytes × α)) (m : ByteMap α) (key : Bytes) :
    (entries.foldl (fun m p => m.insert p.1 p.2) m).get? key =
      ((ofList entries).get? key).or (m.get? key) := by
  rw [ofList]
  induction entries generalizing m with
  | nil => rfl
  | cons p rest ih =>
    rw [List.foldl_cons, List.foldl_cons, ih (m.insert p.1 p.2), ih (insert ∅ p.1 p.2),
      get?_insert, get?_insert, get?_empty, Option.or_assoc]
    split <;> rfl

theorem get?_ofList_cons (p : Bytes × α) (rest : List (Bytes × α)) (key : Bytes) :
    (ofList (p :: rest)).get? key =
      ((ofList rest).get? key).or (if p.1 = key then some p.2 else none) := by
  have first := get?_foldl_insert rest (insert ∅ p.1 p.2) key
  rwa [get?_insert, get?_empty] at first

theorem get?_ofList_append (l m : List (Bytes × α)) (key : Bytes) :
    (ofList (l ++ m)).get? key = ((ofList m).get? key).or ((ofList l).get? key) := by
  rw [ofList, List.foldl_append, get?_foldl_insert]
  rfl

theorem get?_ofList_eq_none {entries : List (Bytes × α)} {key : Bytes}
    (absent : ∀ p ∈ entries, p.1 ≠ key) : (ofList entries).get? key = none := by
  induction entries with
  | nil => rfl
  | cons p rest ih =>
    rw [get?_ofList_cons, ih fun q member => absent q (List.mem_cons_of_mem _ member),
      if_neg (absent p List.mem_cons_self)]
    rfl

theorem get?_ofList_of_sorted {entries : List (Bytes × α)} (sorted : entries.Pairwise (·.1 < ·.1))
    (key : Bytes) : (ofList entries).get? key = lookup key entries := by
  induction entries with
  | nil => rfl
  | cons p rest ih =>
    obtain ⟨above, sorted⟩ := List.pairwise_cons.mp sorted
    rw [get?_ofList_cons, ih sorted]
    by_cases same : p.1 = key
    · subst same
      simp [lookup, lookup_eq_none_of_lt above]
    · simp [lookup, same]

@[simp] theorem ofList_toList (m : ByteMap α) : ofList m.toList = m :=
  ext fun key => get?_ofList_of_sorted m.sorted key

/-- Where no key is in both lists, it does not matter which comes first. -/
theorem ofList_append_comm {l m : List (Bytes × α)}
    (apart : ∀ p ∈ l, ∀ q ∈ m, p.1 ≠ q.1) : ofList (l ++ m) = ofList (m ++ l) := by
  ext1 key
  rw [get?_ofList_append, get?_ofList_append]
  by_cases inside : ∃ p ∈ l, p.1 = key
  · obtain ⟨p, member, rfl⟩ := inside
    have absent : (ofList m).get? p.1 = none :=
      get?_ofList_eq_none fun q other => (apart p member q other).symm
    rw [absent]
    exact (Option.or_none).symm
  · have absent : (ofList l).get? key = none :=
      get?_ofList_eq_none fun p member same => inside ⟨p, member, same⟩
    rw [absent]
    exact Option.or_none

end ByteMap

end LedgerBridge
