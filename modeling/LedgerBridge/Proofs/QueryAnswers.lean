import LedgerBridge.Proofs.CallData
import LedgerBridge.Proofs.Spending

/-! Queries change nothing, and what they return reads as what the ledger holds. -/
namespace LedgerBridge

namespace MethodTable

variable {table : MethodTable ω} {methods : List (Method ω)} {m : Method ω} {key : Bytes}

theorem mem_of_get?_foldl
    (h : ByteMap.get? (methods.foldl (fun table m => table.insert m.selector m) table) key = some m) :
    m ∈ methods ∨ table.get? key = some m := by
  induction methods generalizing table with
  | nil => exact .inr h
  | cons first rest ih =>
    rcases ih h with member | inserted
    · exact .inl (List.mem_cons_of_mem _ member)
    · rw [ByteMap.get?_insert] at inserted
      split at inserted
      · cases inserted
        exact .inl List.mem_cons_self
      · exact .inr inserted

/-- Only methods that are in the table are found there. -/
theorem mem_of_find? {input : Bytes} (h : (ofMethods methods).find? input = some m) :
    m ∈ methods := by
  simp only [find?] at h
  split at h
  · cases h
  · rcases mem_of_get?_foldl h with member | there
    · exact member
    · cases there

end MethodTable

namespace TokenContract

def Operation.kind : Operation → MethodKind
  | .name | .symbol | .decimals | .totalSupply | .balanceOf | .allowance => .query
  | _ => .transaction

theorem kind_eq : ∀ m ∈ methods, m.kind = m.op.kind := by decide

/-- How the coins are shown: as the ledger knows them, or else as the contract does. -/
def shown (t : TokenContract) (v : Contents) : Metadata :=
  (v.record? Metadata.codec (.metadata t.denom)).getD t.metadata

/-- What a query is answered with. An allowance is what a send grant that has not expired leaves. -/
inductive Reports (t : TokenContract) (v : Contents) (time : UInt64) :
    Operation → Arguments → Abi.Value → Prop
  | name : t.Reports v time .name [] (.text (t.shown v).name)
  | symbol : t.Reports v time .symbol [] (.text (t.shown v).symbol)
  | decimals (n : Word) (same : n.toNat = (t.shown v).decimals.toNat) :
      t.Reports v time .decimals [] (.uint n)
  | totalSupply (n : Word) (same : n.toNat = (v.supply t.denom).toNat) :
      t.Reports v time .totalSupply [] (.uint n)
  | balanceOf (owner : Address) (n : Word) (same : n.toNat = (v.balance owner t.denom).toNat) :
      t.Reports v time .balanceOf [.address owner] (.uint n)
  | own (owner : Address) (n : Word) (same : n.toNat = 2 ^ 256 - 1) :
      t.Reports v time .allowance [.address owner, .address owner] (.uint n)
  | granted (owner spender : Address) (n : Word) (limits : Limits) (expiration : Option UInt64)
      (others : owner ≠ spender)
      (stored : v.grant? owner spender Message.sendType = some ⟨.send limits, expiration⟩)
      (live : Grant.isExpired ⟨.send limits, expiration⟩ time = false)
      (same : n.toNat = (limits.limit t.denom).toNat) :
      t.Reports v time .allowance [.address owner, .address spender] (.uint n)
  | ungranted (owner spender : Address) (others : owner ≠ spender)
      (nothing : ∀ limits expiration,
        v.grant? owner spender Message.sendType = some ⟨.send limits, expiration⟩ →
          Grant.isExpired ⟨.send limits, expiration⟩ time = true) :
      t.Reports v time .allowance [.address owner, .address spender] (.uint 0)

open Metered

variable {t : TokenContract} {c : Call} {v w : Contents} {done : Completed} {op : Operation}

theorem answer_of_describe {part : Metadata → Abi.Value} (h : (t.describe part c).Gives v done w) :
    v = w ∧ c.arguments = [] ∧ done = .answer (part (t.shown v)) := by
  simp only [describe, Ledger.metadata?, gives_bind, gives_liftM, and_assoc, exists_and_left,
    exists_eq_left', Action.gives_ofLedger, Ledger.gives_read?, gives_pure] at h
  obtain ⟨_, counted, -, rfl, rfl⟩ := h
  exact ⟨rfl, List.length_eq_zero_iff.mp (Arguments.expectCount_eq_ok.mp counted), rfl⟩

theorem answer_of_totalSupply (h : (t.totalSupply c).Gives v done w) :
    v = w ∧ ∃ value, done = .answer value ∧ t.Reports v c.time .totalSupply c.arguments value := by
  simp only [totalSupply, gives_bind, gives_liftM, and_assoc, exists_and_left, exists_eq_left',
    Action.gives_ofLedger, Ledger.gives_supply, gives_pure] at h
  obtain ⟨_, counted, -, rfl, rfl⟩ := h
  rw [List.length_eq_zero_iff.mp (Arguments.expectCount_eq_ok.mp counted)]
  exact ⟨rfl, _, rfl, .totalSupply _ (Word.toNat_eq_iff.mpr rfl).symm⟩

theorem answer_of_balanceOf (h : (t.balanceOf c).Gives v done w) :
    v = w ∧ ∃ value, done = .answer value ∧ t.Reports v c.time .balanceOf c.arguments value := by
  simp only [balanceOf, gives_bind, gives_liftM, and_assoc, exists_and_left, exists_eq_left',
    Action.gives_ofLedger, Ledger.gives_balance, gives_pure] at h
  obtain ⟨_, counted, owner, named, -, rfl, rfl⟩ := h
  obtain ⟨first, args⟩ := List.length_eq_one_iff.mp (Arguments.expectCount_eq_ok.mp counted)
  rw [args] at named ⊢
  cases Arguments.address_eq_ok.mp named
  exact ⟨rfl, _, rfl, .balanceOf owner _ (Word.toNat_eq_iff.mpr rfl).symm⟩

theorem reports_of_allowance {owner spender : Address} {found : Allowance} {time : UInt64}
    (h : (Ledger.allowance time owner spender t.denom).Gives v found w) :
    t.Reports v time .allowance [.address owner, .address spender] (.uint found.word) := by
  simp only [Ledger.allowance] at h
  split at h
  · rename_i same
    obtain ⟨rfl, rfl⟩ := gives_pure.mp h
    subst same
    exact .own owner _ (BitVec.toNat_allOnes ..)
  · rename_i others
    simp only [gives_bind, Ledger.gives_grant?] at h
    obtain ⟨grant, u, ⟨-, live, rfl⟩, told⟩ := h
    split at told
    · rename_i limits expiration
      obtain ⟨rfl, rfl⟩ := gives_pure.mp told
      obtain ⟨stored, unexpired⟩ := Option.filter_eq_some_iff.mp live
      exact .granted owner spender _ limits expiration others stored (by simpa using unexpired)
        (Word.toNat_eq_iff.mpr rfl).symm
    · rename_i nothing
      obtain ⟨rfl, rfl⟩ := gives_pure.mp told
      refine .ungranted owner spender others fun limits expiration stored => ?_
      by_contra unexpired
      exact nothing limits expiration (live.symm.trans
        (Option.filter_eq_some_iff.mpr ⟨stored, by simpa using unexpired⟩))

theorem answer_of_allowance (h : (t.allowance c).Gives v done w) :
    v = w ∧ ∃ value, done = .answer value ∧ t.Reports v c.time .allowance c.arguments value := by
  simp only [allowance, gives_bind, gives_liftM, and_assoc, exists_and_left, exists_eq_left',
    Action.gives_ofLedger, gives_pure] at h
  obtain ⟨_, counted, owner, named, spender, spends, found, _, looked, rfl, rfl⟩ := h
  have same := (Ledger.reads_allowance _ _ _ _).eq_of_gives looked
  obtain ⟨first, second, args⟩ := List.length_eq_two.mp (Arguments.expectCount_eq_ok.mp counted)
  rw [args] at named spends ⊢
  cases Arguments.address_eq_ok.mp named
  cases Arguments.address_eq_ok.mp spends
  exact ⟨same.symm, _, rfl, reports_of_allowance looked⟩

/-- A query that succeeds has only looked, and returns what it saw. -/
theorem answer_of_operate (query : op.kind = .query) (h : (t.operate op c).Gives v done w) :
    v = w ∧ ∃ value, done = .answer value ∧ t.Reports v c.time op c.arguments value := by
  obtain ⟨-, h⟩ := gives_operate.mp h
  cases op <;> simp only [enabledOperation] at h
  case name =>
    obtain ⟨same, none, rfl⟩ := answer_of_describe h
    rw [none]
    exact ⟨same, _, rfl, .name⟩
  case symbol =>
    obtain ⟨same, none, rfl⟩ := answer_of_describe h
    rw [none]
    exact ⟨same, _, rfl, .symbol⟩
  case decimals =>
    obtain ⟨same, none, rfl⟩ := answer_of_describe h
    rw [none]
    refine ⟨same, _, rfl, .decimals _ ?_⟩
    rw [BitVec.toNat_ofNat]
    exact Nat.mod_eq_of_lt (Nat.lt_trans (UInt8.toNat_lt _) (by decide))
  case totalSupply => exact answer_of_totalSupply h
  case balanceOf => exact answer_of_balanceOf h
  case allowance => exact answer_of_allowance h
  all_goals cases query

end TokenContract

/-- Outposts have no queries. -/
theorem Outpost.kind_eq : ∀ m ∈ methods, m.kind = .transaction := by decide

namespace Precompile

variable {table : MethodTable ω} {m : Method ω} {args : Arguments} {f : Frame} {readOnly : Bool}

/-- A call that may only look, or that calls a query, calls a query if it gets to its operation. -/
theorem query_of_decode (looks : readOnly = true ∨ (table.find? f.input).map Method.kind = some .query)
    (h : decode table f readOnly = .ok (m, args)) : m.kind = .query := by
  obtain ⟨found, allowed, -⟩ := decode_eq_ok.mp h
  rcases looks with protect | named
  · cases kind : m.kind with
    | query => rfl
    | transaction => exact absurd ⟨protect, kind⟩ allowed
  · simpa [found] using named

variable {p : Precompile} {time : UInt64} {s : Store} {origin : Address}

/-- What a call leaves and returns that may only look, or that calls a query. -/
theorem answer_of_run {out : CallOutput}
    (looks : readOnly = true ∨ p.kind? f.input = some .query)
    (h : (p.run time s f origin readOnly).result = .ok out) :
    (p.run time s f origin readOnly).store.contents = s.contents ∧
      ∃ t m args value, p = .token t ∧ decode TokenContract.table f readOnly = .ok (m, args) ∧
        t.Reports s.contents time m.op args value ∧ out.toCompleted = .answer value := by
  obtain ⟨x, operation, gives⟩ := gives_of_run h
  cases p with
  | token t =>
    obtain ⟨⟨m, args⟩, read, rfl⟩ := map_eq_ok.mp operation
    have query := query_of_decode looks read
    rw [TokenContract.kind_eq m (MethodTable.mem_of_find? (decode_eq_ok.mp read).1)] at query
    obtain ⟨same, value, answer, reports⟩ := TokenContract.answer_of_operate query gives
    exact ⟨same.symm, t, m, args, value, rfl, read, reports, answer⟩
  | outpost o =>
    obtain ⟨⟨m, args⟩, read, rfl⟩ := map_eq_ok.mp operation
    have query := query_of_decode looks read
    rw [Outpost.kind_eq m (MethodTable.mem_of_find? (decode_eq_ok.mp read).1)] at query
    cases query

theorem run_of_protected (named : p.kind? f.input = some .transaction) :
    p.run time s f origin true = ⟨.error (.refused .writeProtection), s, f⟩ := by
  cases p with
  | token t =>
    obtain ⟨m, found, kind⟩ := Option.map_eq_some_iff.mp named
    rw [run, runWith, decode_of_find? found, if_pos ⟨rfl, kind⟩]
  | outpost o =>
    obtain ⟨m, found, kind⟩ := Option.map_eq_some_iff.mp named
    rw [run, runWith, decode_of_find? found, if_pos ⟨rfl, kind⟩]

/-- A call that may only look, and a call of a query, leaves all records as they were, whether it
succeeds or not. If it succeeds, it has no logs and no balance changes, and what it returns reads as
what it reports of the ledger. Transactions are refused to a call that may only look. -/
theorem query_reports (p : Precompile) (time : UInt64) (s : Store) (f : Frame) (origin : Address)
    (readOnly : Bool) :
    (readOnly = true ∨ p.kind? f.input = some .query →
      (p.run time s f origin readOnly).store.contents = s.contents ∧
      ∀ out, (p.run time s f origin readOnly).result = .ok out →
        out.logs = [] ∧ out.changes = [] ∧
        ∃ t m args value, p = .token t ∧ decode TokenContract.table f readOnly = .ok (m, args) ∧
          t.Reports s.contents time m.op args value ∧ out.data = Abi.encode [value] ∧
          ∀ kind : Abi.Kind, kind.admits value → out.data.length < UInt64.size →
            Abi.decode [kind] out.data = .ok [value]) ∧
    (readOnly = true → p.kind? f.input = some .transaction →
      p.run time s f origin readOnly = ⟨.error (.refused .writeProtection), s, f⟩) := by
  refine ⟨fun looks => ⟨?_, fun out succeeded => ?_⟩, ?_⟩
  · cases ended : (p.run time s f origin readOnly).result with
    | error e => rw [store_of_run_error ended]
    | ok out => exact (answer_of_run looks ended).1
  · obtain ⟨-, t, m, args, value, contract, read, reports, answer⟩ := answer_of_run looks succeeded
    obtain ⟨⟨data, logs, changes⟩, gasUsed⟩ := out
    cases answer
    refine ⟨rfl, rfl, t, m, args, value, contract, read, reports, rfl, fun kind admits bound => ?_⟩
    simpa using Abi.decode_encode_append (.cons admits .nil) [] (by simpa using bound)
  · rintro rfl named
    exact run_of_protected named

end Precompile

namespace Request

/-- The grantee asks what it may spend. -/
def askedByGrantee : Request where
  precompile := .token Config.granted
  time := 1700000000
  frame := ⟨Config.grantee, TokenContract.Operation.selector .allowance ++
    (Abi.addressTopic Config.granter ++ Abi.addressTopic Config.grantee), 10000⟩
  origin := Config.grantee
  readOnly := true

theorem decode_askedByGrantee :
    Precompile.decode TokenContract.table askedByGrantee.frame true =
      .ok (⟨.allowance, "allowance(address,address)", [.address, .address], .query, 3246⟩,
        [.address Config.granter, .address Config.grantee]) :=
  Precompile.decode_eq_ok.mpr
    ⟨TokenContract.find?_selector_append (m := ⟨.allowance, _, _, _, _⟩) (by decide) _, by simp,
      by decide, by decide +kernel⟩

/-- A hundred is what the grantee is told, and what the ledger says. -/
theorem query_reports_of_grantee :
    ∃ s out value, Config.granting.initialStore = .ok s ∧
      (askedByGrantee.call s).result = .ok out ∧
      (askedByGrantee.call s).store.contents = s.contents ∧ out.logs = [] ∧
      Config.granted.Reports s.contents 1700000000 .allowance
        [.address Config.granter, .address Config.grantee] value ∧
      Abi.decode [.uint256] out.data = .ok [value] ∧ value = .uint 100 := by
  have called (s : Store) : askedByGrantee.call s =
      Precompile.execute (Config.granted.operate .allowance ⟨Config.grantee, Config.grantee,
        .ofToken "ubridge", 1700000000, [.address Config.granter, .address Config.grantee]⟩) s
        askedByGrantee.frame :=
    Precompile.run_token decode_askedByGrantee askedByGrantee.time s askedByGrantee.origin
  have known : (Config.granting.initialStore.toOption.any fun s =>
      (askedByGrantee.call s).result.toOption.any fun out =>
        out.data == Abi.encode [.uint 100]) = true := by
    simp only [called]
    decide +kernel
  obtain ⟨s, started, known⟩ := exists_of_any_toOption known
  obtain ⟨out, succeeded, told⟩ := exists_of_any_toOption known
  have data := beq_iff_eq.mp told
  obtain ⟨same, reported⟩ := (Precompile.query_reports askedByGrantee.precompile
    askedByGrantee.time s askedByGrantee.frame askedByGrantee.origin true).1 (.inl rfl)
  obtain ⟨quiet, -, t, m, args, value, contract, read, reports, -, reads⟩ :=
    reported out succeeded
  cases contract
  cases read.symm.trans decode_askedByGrantee
  have admits : Abi.Kind.uint256.admits value := by cases reports <;> rfl
  have decoded := reads .uint256 admits (by rw [data]; decide +kernel)
  have hundred : Abi.decode [.uint256] out.data = .ok [.uint 100] := by
    rw [data]
    decide +kernel
  cases hundred.symm.trans decoded
  exact ⟨s, out, _, started, succeeded, same, quiet, reports, decoded, rfl⟩

end Request

end LedgerBridge
