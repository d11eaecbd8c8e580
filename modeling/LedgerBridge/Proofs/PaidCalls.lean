import LedgerBridge.Proofs.Budgets
import LedgerBridge.Proofs.CallData
import LedgerBridge.Proofs.Traces

/-! Calls that are given enough gas. What an operation costs in a store does not depend on the gas, so
each call has a budget from which on the gas plays no part: the call does what its operation does on the
map that the store shows. -/
namespace LedgerBridge

/-! The methods of token contracts by selector. Selectors are hashes; they are computed once, and a call
is then found by its first four bytes. -/

namespace TokenContract

def Operation.selector : Operation → Bytes
  | .transfer => [0xA9, 0x05, 0x9C, 0xBB]
  | .transferFrom => [0x23, 0xB8, 0x72, 0xDD]
  | .approve => [0x09, 0x5E, 0xA7, 0xB3]
  | .increaseAllowance => [0x39, 0x50, 0x93, 0x51]
  | .decreaseAllowance => [0xA4, 0x57, 0xC2, 0xD7]
  | .mint => [0x40, 0xC1, 0x0F, 0x19]
  | .burn => [0x42, 0x96, 0x6C, 0x68]
  | .name => [0x06, 0xFD, 0xDE, 0x03]
  | .symbol => [0x95, 0xD8, 0x9B, 0x41]
  | .decimals => [0x31, 0x3C, 0xE5, 0x67]
  | .totalSupply => [0x18, 0x16, 0x0D, 0xDD]
  | .balanceOf => [0x70, 0xA0, 0x82, 0x31]
  | .allowance => [0xDD, 0x62, 0xED, 0x3E]

theorem length_selector (op : Operation) : op.selector.length = 4 := by cases op <;> rfl

theorem selector_eq : ∀ m ∈ methods, m.selector = m.op.selector := by decide +kernel

theorem table_eq : table = .ofList (methods.map fun m => (m.op.selector, m)) := by
  have keys : methods.map (fun m => (m.selector, m)) = methods.map fun m => (m.op.selector, m) :=
    List.map_congr_left fun m member => by rw [selector_eq m member]
  rw [← keys, ByteMap.ofList, List.foldl_map]
  rfl

/-- A method is found by its selector, whatever comes behind it. -/
theorem find?_selector_append {m : Method Operation} (member : m ∈ methods) (data : Bytes) :
    table.find? (m.op.selector ++ data) = some m := by
  have found : ∀ m ∈ methods,
      (ByteMap.ofList (methods.map fun m => (m.op.selector, m))).get? m.op.selector = some m := by
    decide +kernel
  have long : ¬ (m.op.selector ++ data).length < 4 := by simp [length_selector]
  rw [MethodTable.find?, if_neg long, List.take_left' (length_selector _), table_eq]
  exact found m member

end TokenContract

namespace Precompile

variable {f : Frame} {readOnly : Bool} {args : Arguments}

/-- A call of a token contract once its input is read. -/
theorem run_token {t : TokenContract} {m : Method TokenContract.Operation}
    (read : decode TokenContract.table f readOnly = .ok (m, args)) (time : UInt64) (s : Store)
    (origin : Address) :
    (token t).run time s f origin readOnly =
      execute (t.operate m.op ⟨f.caller, origin, t.pair.address, time, args⟩) s f := by
  simp only [run, runWith, read, address]

end Precompile

end LedgerBridge

namespace LedgerBridge.Precompile

open Metered

/-- The call did what the computation does on the map: all of it, or nothing if that fails. -/
def Mirrors (r : CallResult) (x : Action Completed) (v : Contents) : Prop :=
  match x.evaluate v with
  | (.ok completed, w) =>
    (∃ out, r.result = .ok out ∧ out.toCompleted = completed) ∧ r.store.contents = w
  | (.error why, _) => r.result = .error (.refused why) ∧ r.store.contents = v

section

variable {r : CallResult} {x : Action Completed} {v w : Contents}

theorem Mirrors.cases (h : Mirrors r x v) :
    (∃ out, r.result = .ok out ∧ x.Gives v out.toCompleted r.store.contents) ∨
      ∃ why, r.result = .error (.refused why) ∧ (x.evaluate v).1 = .error why := by
  simp only [Mirrors] at h
  split at h
  · rename_i completed w ended
    obtain ⟨⟨out, result, rfl⟩, rfl⟩ := h
    exact .inl ⟨out, result, ended⟩
  · rename_i why w ended
    exact .inr ⟨why, h.1, by rw [ended]⟩

theorem Mirrors.gives (h : Mirrors r x v) {out : CallOutput} (succeeded : r.result = .ok out) :
    x.Gives v out.toCompleted r.store.contents := by
  rcases h.cases with ⟨_, result, gives⟩ | ⟨_, result, -⟩
  · cases result.symm.trans succeeded
    exact gives
  · cases result.symm.trans succeeded

theorem Mirrors.exists_ok (h : Mirrors r x v) {done : Completed} (gives : x.Gives v done w) :
    ∃ out, r.result = .ok out := by
  rcases h.cases with ⟨out, result, -⟩ | ⟨why, -, failed⟩
  · exact ⟨out, result⟩
  · rw [gives] at failed
    cases failed

theorem Mirrors.refused (h : Mirrors r x v) {why : Refusal} (failed : (x.evaluate v).1 = .error why) :
    r.result = .error (.refused why) := by
  rcases h.cases with ⟨out, -, gives⟩ | ⟨_, result, because⟩
  · rw [gives] at failed
    cases failed
  · cases because.symm.trans failed
    exact result

end

variable {x : Action Completed} {s : Store} {f : Frame}

theorem mirrors_execute (enough : price x s ≤ f.gas) : Mirrors (execute x s f) x s.contents := by
  have view := perform_view x s.branch
  rw [Store.view_branch] at view
  simp only [Mirrors, ← view]
  cases ended : (x.perform s.branch).1 with
  | error why =>
    rw [execute_of_failed enough ended]
    exact ⟨rfl, rfl⟩
  | ok done =>
    obtain ⟨kept, commit, same⟩ := (perform_isBranchOf x (Store.isBranchOf_branch s)).commit
    rw [execute_of_done enough ended, commit]
    exact ⟨⟨_, rfl, rfl⟩, same⟩

/-- From some budget on, an operation is paid for. -/
theorem exists_enough (x : Action Completed) (s : Store) {required : Nat}
    (small : required ≤ Meter.cap) :
    ∃ enough ≤ Meter.cap, required ≤ enough ∧
      ∀ f : Frame, enough ≤ f.gas → Mirrors (execute x s f) x s.contents := by
  refine ⟨max required (price x s), Nat.max_le.mpr ⟨small, Nat.min_le_right _ _⟩,
    Nat.le_max_left _ _, fun f enough => ?_⟩
  exact mirrors_execute (Nat.le_trans (Nat.le_max_right _ _) enough)

/-- From some budget on, a call whose input is found to name a method does what the method does. -/
theorem exists_enough_runWith {ω : Type} {table : MethodTable ω} {m : Method ω} {input : Bytes}
    {args : Arguments} (small : m.gas ≤ Meter.cap) (found : table.find? input = some m)
    (values : Abi.decode m.inputs (input.drop 4) = .ok args) (operate : ω → Call → Action Completed)
    (address : Address) (time : UInt64) (s : Store) (caller origin : Address) :
    ∃ enough ≤ Meter.cap, ∀ gas, enough ≤ gas →
      Mirrors (runWith table operate address time s ⟨caller, input, gas⟩ origin false)
        (operate m.op ⟨caller, origin, address, time, args⟩) s.contents := by
  obtain ⟨enough, capped, required, mirrors⟩ :=
    exists_enough (operate m.op ⟨caller, origin, address, time, args⟩) s small
  refine ⟨enough, capped, fun gas paid => ?_⟩
  have read : decode table ⟨caller, input, gas⟩ false = .ok (m, args) :=
    decode_eq_ok.mpr ⟨found, nofun, Nat.le_trans required paid, values⟩
  simp only [runWith, read]
  exact mirrors _ paid

section

variable {m : Method TokenContract.Operation} {args : Arguments}

theorem encodeCall_eq (member : m ∈ TokenContract.methods) :
    Abi.encodeCall m.signature args = m.op.selector ++ Abi.encode args := by
  rw [← TokenContract.selector_eq m member]
  rfl

theorem find?_encodeCall (member : m ∈ TokenContract.methods) :
    TokenContract.table.find? (Abi.encodeCall m.signature args) = some m := by
  rw [encodeCall_eq member]
  exact TokenContract.find?_selector_append member _

theorem decode_encodeCall (member : m ∈ TokenContract.methods) (conform : Abi.Conform m.inputs args)
    (bound : (Abi.encode args).length < UInt64.size) :
    Abi.decode m.inputs ((Abi.encodeCall m.signature args).drop 4) = .ok args := by
  have read := Abi.decode_encode_append conform [] (by simpa using bound)
  rw [encodeCall_eq member, List.drop_left' (TokenContract.length_selector _)]
  rwa [List.append_nil] at read

/-- From some budget on, a call of a token contract's method does what the method does. -/
theorem exists_enough_token (member : m ∈ TokenContract.methods) (conform : Abi.Conform m.inputs args)
    (bound : (Abi.encode args).length < UInt64.size) (t : TokenContract) (time : UInt64) (s : Store)
    (caller origin : Address) :
    ∃ enough ≤ Meter.cap, ∀ gas, enough ≤ gas →
      Mirrors ((token t).run time s ⟨caller, Abi.encodeCall m.signature args, gas⟩ origin false)
        (t.operate m.op ⟨caller, origin, t.pair.address, time, args⟩) s.contents := by
  have small : ∀ m ∈ TokenContract.methods, m.gas ≤ Meter.cap := by decide
  exact exists_enough_runWith (small m member) (find?_encodeCall member)
    (decode_encodeCall member conform bound) t.operate t.pair.address time s caller origin

end

end LedgerBridge.Precompile
