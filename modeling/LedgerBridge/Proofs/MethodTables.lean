import LedgerBridge.Proofs.PaidCalls
import LedgerBridge.Proofs.Registries

/-! Tables of methods. A table is made of any methods whose selectors differ, in whatever order they
come, and from then on a selector stands for its one method: in the listing, in what a call is said to
require, and in the call itself. -/
namespace LedgerBridge

/-- The method as it is listed. -/
def Method.info (m : Method ω) : MethodInfo := ⟨m.selector, m.signature, m.kind, m.gas⟩

namespace MethodTable

variable {table other : MethodTable ω} {methods others : List (Method ω)} {m : Method ω}

/-- The table has these methods, each under a selector that no other has. -/
structure Holds (table : MethodTable ω) (methods : List (Method ω)) : Prop where
  distinct : (methods.map Method.selector).Nodup
  get?_eq_some_iff (key : Bytes) (m : Method ω) :
    table.get? key = some m ↔ m ∈ methods ∧ m.selector = key

theorem selector_ne_of_mem (free : m.selector ∉ methods.map Method.selector) {n : Method ω}
    (member : n ∈ methods) : n.selector ≠ m.selector := fun same =>
  free (same ▸ List.mem_map_of_mem member)

theorem holds_empty : Holds (∅ : MethodTable ω) [] := ⟨List.nodup_nil, by simp⟩

namespace Holds

/-- A selector is free exactly if none of the methods has it. -/
theorem get?_eq_none_iff (h : table.Holds methods) {key : Bytes} :
    table.get? key = none ↔ key ∉ methods.map Method.selector := by
  rw [Option.eq_none_iff_forall_ne_some, List.mem_map]
  constructor
  · rintro none ⟨m, member, same⟩
    exact none m ((h.get?_eq_some_iff key m).mpr ⟨member, same⟩)
  · rintro none m found
    exact none ⟨m, (h.get?_eq_some_iff key m).mp found⟩

/-- The table is known from the set of its methods. -/
theorem unique (h : table.Holds methods) (h' : other.Holds others)
    (same : ∀ m, m ∈ others ↔ m ∈ methods) : other = table := by
  ext key m
  rw [h.get?_eq_some_iff, h'.get?_eq_some_iff, same]

theorem of_mem_iff (h : table.Holds methods) (same : ∀ m, m ∈ others ↔ m ∈ methods)
    (distinct : (others.map Method.selector).Nodup) : table.Holds others :=
  ⟨distinct, fun key m => by rw [h.get?_eq_some_iff, same]⟩

theorem insert (h : table.Holds methods) (free : m.selector ∉ methods.map Method.selector) :
    Holds (ByteMap.insert table m.selector m) (methods ++ [m]) where
  distinct := (nodup_map_concat ..).mpr ⟨free, h.distinct⟩
  get?_eq_some_iff key n := by
    rw [ByteMap.get?_insert, List.mem_append, List.mem_singleton]
    have apart := selector_ne_of_mem free (n := n)
    by_cases here : m.selector = key
    · rw [if_pos here]
      grind
    · rw [if_neg here, h.get?_eq_some_iff]
      grind

/-- Without its last method a table has the others. -/
theorem erase (h : table.Holds (methods ++ [m])) :
    Holds (ByteMap.erase table m.selector) methods where
  distinct := ((nodup_map_concat ..).mp h.distinct).2
  get?_eq_some_iff key n := by
    have apart := selector_ne_of_mem ((nodup_map_concat ..).mp h.distinct).1 (n := n)
    rw [ByteMap.get?_erase]
    by_cases here : m.selector = key
    · rw [if_pos here]
      grind
    · rw [if_neg here, h.get?_eq_some_iff, List.mem_append, List.mem_singleton]
      grind

end Holds

/-- A method is added unless its selector is taken. -/
theorem Holds.add?_eq_ok_iff (h : table.Holds methods) :
    table.add? m = .ok other ↔ other.Holds (methods ++ [m]) := by
  have taken : table.contains m.selector = true ↔ ¬ m.selector ∉ methods.map Method.selector := by
    rw [ByteMap.contains, Option.isSome_iff_ne_none, Ne, h.get?_eq_none_iff]
  rw [add?]
  split <;> rename_i found
  · rw [taken] at found
    simp only [reduceCtorEq, false_iff]
    exact fun held => found ((nodup_map_concat ..).mp held.distinct).1
  · rw [taken, not_not] at found
    simp only [Except.ok.injEq]
    constructor
    · rintro rfl
      exact h.insert found
    · exact fun held => held.unique (h.insert found) fun _ => Iff.rfl

/-- One method after another is added: what comes of it has them all, or two have one selector. -/
theorem ofMethods?_eq_ok_iff : ofMethods? methods = .ok table ↔ table.Holds methods := by
  -- From the end: a method meets the table that those in front of it have made.
  induction methods using List.reverseRecOn generalizing table with
  | nil =>
    constructor
    · intro built
      cases built
      exact holds_empty
    · exact fun held => congrArg Except.ok (held.unique holds_empty fun _ => Iff.rfl)
  | append_singleton methods m ih =>
    rw [ofMethods?, List.foldlM_append, ← ofMethods?, bind_eq_ok]
    simp only [ih, List.foldlM_cons, List.foldlM_nil, bind_pure]
    constructor
    · rintro ⟨before, held, added⟩
      exact held.add?_eq_ok_iff.mp added
    · exact fun held => ⟨_, held.erase, held.erase.add?_eq_ok_iff.mpr held⟩

/-- Where the selectors differ, they need not be looked at. -/
theorem holds_ofMethods (distinct : (methods.map Method.selector).Nodup) :
    (ofMethods methods).Holds methods := by
  induction methods using List.reverseRecOn with
  | nil => exact holds_empty
  | append_singleton methods m ih =>
    obtain ⟨free, distinct⟩ := (nodup_map_concat ..).mp distinct
    rw [ofMethods, List.foldl_append, ← ofMethods]
    exact (ih distinct).insert free

/-- Methods make a table exactly if their selectors differ. -/
theorem exists_holds_iff :
    (∃ table : MethodTable ω, table.Holds methods) ↔ (methods.map Method.selector).Nodup :=
  ⟨fun ⟨_, held⟩ => held.distinct, fun distinct => ⟨_, holds_ofMethods distinct⟩⟩

namespace Holds

theorem selector_of_mem_toList (h : table.Holds methods) {entry : Bytes × Method ω}
    (member : entry ∈ table.toList) : entry.1 = entry.2.selector :=
  ((h.get?_eq_some_iff entry.1 entry.2).mp ((ByteMap.mem_toList_iff table).mp member)).2.symm

theorem mem_values_iff (h : table.Holds methods) : m ∈ table.values ↔ m ∈ methods := by
  rw [ByteMap.values, List.mem_map]
  constructor
  · rintro ⟨entry, member, rfl⟩
    exact ((h.get?_eq_some_iff entry.1 entry.2).mp ((ByteMap.mem_toList_iff table).mp member)).1
  · intro member
    exact ⟨(m.selector, m), (ByteMap.mem_toList_iff table).mpr
      ((h.get?_eq_some_iff _ m).mpr ⟨member, rfl⟩), rfl⟩

theorem values_sorted (h : table.Holds methods) :
    table.values.Pairwise (·.selector < ·.selector) := by
  rw [ByteMap.values, List.pairwise_map]
  refine table.sorted.imp_of_mem fun {a b} memberA memberB less => ?_
  rwa [h.selector_of_mem_toList memberA, h.selector_of_mem_toList memberB] at less

/-- The methods are gone through one by one, and none twice. -/
theorem values_perm (h : table.Holds methods) : table.values.Perm methods := by
  have single : table.values.Nodup := by
    refine h.values_sorted.imp fun {a b} less same => ?_
    subst same
    exact Bytes.lt_irrefl _ less
  exact (List.perm_ext_iff_of_nodup single h.distinct.of_map).mpr fun _ => h.mem_values_iff

theorem list_eq (h : table.Holds methods) : table.list = table.values.map Method.info := by
  rw [list, ByteMap.values, List.map_map]
  refine List.map_congr_left fun entry member => ?_
  rw [Function.comp, Method.info, ← h.selector_of_mem_toList member]

theorem find?_eq_some_iff (h : table.Holds methods) {input : Bytes} :
    table.find? input = some m ↔ m ∈ methods ∧ Abi.selector m.signature = input.take 4 := by
  rw [find?]
  split
  · rename_i short
    simp only [reduceCtorEq, false_iff, not_and]
    intro _ same
    -- A selector is longer than the whole input.
    have length := congrArg List.length same
    rw [Abi.length_selector, List.length_take] at length
    omega
  · exact h.get?_eq_some_iff ..

/-- What is listed under the first bytes of an input is what the input calls. -/
theorem mem_list_iff (h : table.Holds methods) {input : Bytes} {info : MethodInfo} :
    info ∈ table.list ∧ info.selector = input.take 4 ↔
      ∃ m, table.find? input = some m ∧ m.info = info := by
  simp only [h.list_eq, List.mem_map, h.mem_values_iff, h.find?_eq_some_iff]
  constructor
  · rintro ⟨⟨m, member, rfl⟩, same⟩
    exact ⟨m, ⟨member, same⟩, rfl⟩
  · rintro ⟨m, ⟨member, same⟩, rfl⟩
    exact ⟨⟨m, member, rfl⟩, same⟩

end Holds

/-- Calls are routed by selector, in one way wherever an input is looked at. -/
structure Routes (table : MethodTable ω) (methods : List (Method ω)) : Prop where
  iterated : table.values.Perm methods
  sorted : table.values.Pairwise (·.selector < ·.selector)
  listed : table.list = table.values.map Method.info
  found (key : Bytes) (m : Method ω) :
    table.get? key = some m ↔ m ∈ methods ∧ m.selector = key
  /-- An input that no method stands for requires nothing and is refused by its first bytes. -/
  unknown (f : Frame) (readOnly : Bool) :
    (f.input.length < 4 ∨ ∀ m ∈ methods, m.selector ≠ f.input.take 4) →
      (∀ info ∈ table.list, info.selector ≠ f.input.take 4) ∧
      table.requiredGas f.input = 0 ∧
      Precompile.decode table f readOnly =
        .error (.refused (.unknownMethod (Hex.encodeMarked (f.input.take 4))))
  /-- Every other input calls the method that its first bytes are the hash of. What that method
  requires is what a frame that may call it has to have. -/
  known (f : Frame) (readOnly : Bool) :
    ¬ (f.input.length < 4 ∨ ∀ m ∈ methods, m.selector ≠ f.input.take 4) →
      ∃ m ∈ methods, Abi.selector m.signature = f.input.take 4 ∧
        (∀ info, info ∈ table.list ∧ info.selector = f.input.take 4 ↔ info = m.info) ∧
        table.requiredGas f.input = m.gas ∧
        (∀ called args, Precompile.decode table f readOnly = .ok (called, args) → called = m) ∧
        (¬ (readOnly = true ∧ m.kind = .transaction) →
          (Precompile.decode table f readOnly = .error .outOfGas ↔
            f.gas < table.requiredGas f.input))

namespace Holds

theorem find?_eq_none_iff (h : table.Holds methods) {input : Bytes} :
    table.find? input = none ↔
      input.length < 4 ∨ ∀ m ∈ methods, m.selector ≠ input.take 4 := by
  rw [find?]
  split
  · simp [*]
  · simp [*, h.get?_eq_none_iff]

theorem routes (h : table.Holds methods) : table.Routes methods where
  iterated := h.values_perm
  sorted := h.values_sorted
  listed := h.list_eq
  found := h.get?_eq_some_iff
  unknown f readOnly absent := by
    rw [← h.find?_eq_none_iff] at absent
    refine ⟨fun info member same => ?_, by simp [requiredGas, absent],
      by simp [Precompile.decode, absent]⟩
    obtain ⟨m, found, -⟩ := h.mem_list_iff.mp ⟨member, same⟩
    rw [absent] at found
    cases found
  known f readOnly present := by
    rw [← h.find?_eq_none_iff, ← Ne, Option.ne_none_iff_exists'] at present
    obtain ⟨m, found⟩ := present
    have required : table.requiredGas f.input = m.gas := by simp [requiredGas, found]
    obtain ⟨member, same⟩ := h.find?_eq_some_iff.mp found
    refine ⟨m, member, same, fun info => ?_, required, fun called args decoded => ?_,
      fun permitted => ⟨Precompile.lt_requiredGas_of_decode, fun short => ?_⟩⟩
    · rw [h.mem_list_iff, found]
      simp [eq_comm]
    · have called := (Precompile.decode_eq_ok.mp decoded).1
      rw [found] at called
      exact (Option.some.inj called).symm
    · rw [Precompile.decode_of_find? found, if_neg permitted, if_pos (required ▸ short)]

end Holds

end MethodTable

theorem TokenContract.holds_table : table.Holds methods := by
  apply MethodTable.holds_ofMethods
  rw [List.map_congr_left selector_eq]
  decide

theorem Outpost.holds_table : table.Holds methods :=
  MethodTable.holds_ofMethods (List.nodup_singleton _)

/-- Methods make a table exactly if no two have one selector. The table is that of their set, calls are
routed by it, and every contract has such a table. -/
theorem tables_route (methods : List (Method ω)) :
    ((∃ table, MethodTable.ofMethods? methods = .ok table) ↔
      (methods.map Method.selector).Nodup) ∧
    (∀ table, MethodTable.ofMethods? methods = .ok table → table.Routes methods ∧
      ∀ others : List (Method ω), (∀ m, m ∈ others ↔ m ∈ methods) →
        (others.map Method.selector).Nodup → MethodTable.ofMethods? others = .ok table) ∧
    ∀ p : Precompile, ∃ (υ : Type) (own : List (Method υ)) (table : MethodTable υ)
      (operate : υ → Call → Action Completed),
      MethodTable.ofMethods? own = .ok table ∧
      p.requiredGas = table.requiredGas ∧ p.methods = table.list ∧
      ∀ time s f origin readOnly, p.run time s f origin readOnly =
        Precompile.runWith table operate p.address time s f origin readOnly := by
  simp only [MethodTable.ofMethods?_eq_ok_iff]
  refine ⟨MethodTable.exists_holds_iff, fun table held => ⟨held.routes, fun others same distinct =>
    held.of_mem_iff same distinct⟩, fun p => ?_⟩
  cases p with
  | token t =>
    exact ⟨_, _, _, t.operate, TokenContract.holds_table, rfl, rfl, fun _ _ _ _ _ => rfl⟩
  | outpost o =>
    exact ⟨_, _, _, o.operate, Outpost.holds_table, rfl, rfl, fun _ _ _ _ _ => rfl⟩

/-- A query of a token's name with too little gas. -/
theorem tables_route_name :
    TokenContract.table.requiredGas [0x06, 0xFD, 0xDE, 0x03] = 3421 ∧
    Precompile.decode TokenContract.table ⟨Outpost.address, [0x06, 0xFD, 0xDE, 0x03], 3420⟩ true =
      .error .outOfGas := by
  have built := MethodTable.ofMethods?_eq_ok_iff.mpr TokenContract.holds_table
  have routes := ((tables_route TokenContract.methods).2.1 _ built).1
  have listed : ⟨.name, "name()", [], .query, 3421⟩ ∈ TokenContract.methods := by decide
  obtain ⟨m, member, same, -, required, -, threshold⟩ :=
    routes.known ⟨Outpost.address, [0x06, 0xFD, 0xDE, 0x03], 3420⟩ true (by
      rintro (short | unlisted)
      · exact absurd short (by decide)
      · exact unlisted _ listed (TokenContract.selector_eq _ listed))
  have only : ∀ m ∈ TokenContract.methods, m.op.selector = [0x06, 0xFD, 0xDE, 0x03] →
      m.kind = .query ∧ m.gas = 3421 := by decide
  obtain ⟨query, gas⟩ := only m member ((TokenContract.selector_eq m member).symm.trans same)
  rw [gas] at required
  exact ⟨required, (threshold (by simp [query])).mpr (by rw [required]; decide)⟩

end LedgerBridge
