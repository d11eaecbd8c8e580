import LedgerBridge.Node.Genesis
import LedgerBridge.Proofs.CallData
import LedgerBridge.Proofs.Histories
import LedgerBridge.Proofs.Operations
import LedgerBridge.Proofs.Settlement
import LedgerBridge.Vm
import Mathlib.Algebra.GroupWithZero.Nat

/-! Balances rebuilt from the logs of token contracts. Each call that succeeds logs the one movement
that it makes, under the contract's own address. So for every account but the one that tokens are
minted into and burnt from, what the logs say that it received and sent is the change of its balance. -/
namespace LedgerBridge

/-- A transfer of tokens as a log tells of it. -/
structure ToldTransfer where
  sender : Address
  recipient : Address
  amount : Nat
  deriving DecidableEq, Repr

namespace Log

/-- The transfer that a log tells of, read from the topics behind the first and from the data. -/
def transfer? (l : Log) : Option ToldTransfer :=
  match l.topics with
  | [event, sender, recipient] =>
    if event = Abi.eventTopic "Transfer(address,address,uint256)" then
      match Abi.decode [.address, .address, .uint256] (sender ++ recipient ++ l.data) with
      | .ok [.address sender, .address recipient, .uint amount] =>
        some ⟨sender, recipient, amount.toNat⟩
      | _ => none
    else none
  | _ => none

def transfers (logs : List Log) : List ToldTransfer := logs.filterMap transfer?

/-- What the logs say that an account was sent in all. -/
def received (logs : List Log) (owner : Address) : Nat :=
  ((transfers logs).map fun e => if e.recipient = owner then e.amount else 0).sum

/-- What the logs say that an account sent in all. -/
def sent (logs : List Log) (owner : Address) : Nat :=
  ((transfers logs).map fun e => if e.sender = owner then e.amount else 0).sum

theorem received_append (l m : List Log) (owner : Address) :
    received (l ++ m) owner = received l owner + received m owner := by
  simp [received, transfers]

theorem sent_append (l m : List Log) (owner : Address) :
    sent (l ++ m) owner = sent l owner + sent m owner := by
  simp [sent, transfers]

theorem transfer?_transferLog (contract sender recipient : Address) (amount : Amount) :
    (TokenContract.transferLog contract sender recipient amount).transfer? =
      some ⟨sender, recipient, amount.toNat⟩ := by
  have written : Abi.addressTopic sender ++ Abi.addressTopic recipient ++
      Abi.encode [.ofAmount amount] =
        Abi.encode [.address sender, .address recipient, .ofAmount amount] := by
    simp [Abi.encode, Abi.heads, Abi.head, Abi.tail, Abi.Value.ofAmount]
  have conform : Abi.Conform [.address, .address, .uint256]
      [.address sender, .address recipient, .ofAmount amount] :=
    .cons rfl (.cons rfl (.cons rfl .nil))
  have bound : (Abi.encode [.address sender, .address recipient, .ofAmount amount] ++ []).length <
      UInt64.size := by
    simp [Abi.encode, Abi.tail, Abi.Value.ofAmount, Abi.wordSize, UInt64.size]
  have read := Abi.decode_encode_append conform [] bound
  rw [List.append_nil] at read
  have whole : (Word.ofAmount amount).toNat = amount.toNat := (Word.toNat_eq_iff.mpr rfl).symm
  simp only [transfer?, TokenContract.transferLog, if_pos, written, read]
  simp [Abi.Value.ofAmount, whole]

theorem transfer?_approvalLog (contract owner spender : Address) (value : Word) :
    (TokenContract.approvalLog contract owner spender value).transfer? = none := by
  have apart : Abi.eventTopic "Approval(address,address,uint256)" ≠
      Abi.eventTopic "Transfer(address,address,uint256)" := by decide +kernel
  simp only [transfer?, TokenContract.approvalLog, if_neg apart]

end Log

open Log TokenContract

/-- The logs account for the balances of a denomination, and no other balance was changed. Nothing is
said of the account that tokens come from and go to. -/
def Contents.Told (v : Contents) (denom : String) (logs : List Log) (w : Contents) : Prop :=
  ∀ owner, owner ≠ .ofModule moduleName → ∀ other,
    (w.balance owner other).toNat + (if other = denom then sent logs owner else 0) =
      (v.balance owner other).toNat + if other = denom then received logs owner else 0

namespace Contents

variable {v w : Contents} {denom : String} {logs : List Log}

theorem told_of_balance_eq (same : ∀ owner other, w.balance owner other = v.balance owner other)
    (silent : transfers logs = []) : v.Told denom logs w := by
  intro owner _ other
  simp [same, sent, received, silent]

/-- A log tells of a movement if it names the module's account in place of the outside. -/
theorem told_of_moved {coin : Coin} {source target : Option Address}
    (moved : v.Moved coin source target w)
    (log : transfers logs =
      [⟨source.getD (.ofModule moduleName), target.getD (.ofModule moduleName),
        coin.amount.toNat⟩]) :
    v.Told coin.denom logs w := by
  intro owner others other
  have change := moved.balance owner other
  have place (o : Option Address) : o.getD (.ofModule moduleName) = owner ↔ o = some owner := by
    cases o with
    | none => simp [Ne.symm others]
    | some a => simp
  simp only [sent, received, log, List.map_cons, List.map_nil, List.sum_cons, List.sum_nil,
    Nat.add_zero, place]
  simp only [Coin.share] at change
  by_cases same : other = coin.denom
  · simpa [same] using change
  · simpa [same, Ne.symm same] using change

end Contents

namespace TokenContract

variable {t : TokenContract} {c : Call} {v w : Contents} {done : Completed}

/-- An operation that succeeds logs what it moved, and logs it as its own contract. -/
theorem told_of_operate {op : Operation} (h : (t.operate op c).Gives v done w) :
    v.Told t.denom done.logs w ∧ ∀ l ∈ done.logs, l.address = c.address := by
  have quiet (rest : v.AtRest done w ∧ done.logs = []) :
      v.Told t.denom done.logs w ∧ ∀ l ∈ done.logs, l.address = c.address := by
    obtain ⟨rest, none⟩ := rest
    exact ⟨Contents.told_of_balance_eq rest.balance (by rw [none]; rfl), by simp [none]⟩
  have approved (rest : v.AtRest done w ∧
        ∃ spender value, done.logs = [approvalLog c.address c.caller spender value]) :
      v.Told t.denom done.logs w ∧ ∀ l ∈ done.logs, l.address = c.address := by
    obtain ⟨rest, spender, value, one⟩ := rest
    refine ⟨Contents.told_of_balance_eq rest.balance ?_, by simp [one, approvalLog]⟩
    simp [one, transfers, transfer?_approvalLog]
  obtain ⟨-, h⟩ := gives_operate.mp h
  cases op <;> simp only [enabledOperation] at h
  case transfer =>
    obtain ⟨recipient, amount, explains, one⟩ := explains_transfer h
    refine ⟨Contents.told_of_moved explains.moved ?_, by simp [one, transferLog]⟩
    simp [one, transfers, transfer?_transferLog]
  case transferFrom =>
    obtain ⟨sender, recipient, amount, -, -, explains, -, left, two⟩ := explains_transferFrom h
    refine ⟨Contents.told_of_moved explains.moved ?_, by simp [two, transferLog, approvalLog]⟩
    simp [two, transfers, transfer?_transferLog, transfer?_approvalLog]
  case approve => exact approved (atRest_approve h)
  case increaseAllowance => exact approved (atRest_approve h)
  case decreaseAllowance => exact approved (atRest_approve h)
  case mint =>
    obtain ⟨recipient, amount, -, -, -, explains, one⟩ := explains_mint h
    refine ⟨Contents.told_of_moved explains.moved ?_, by simp [one, transferLog]⟩
    simp [one, transfers, transfer?_transferLog]
  case burn =>
    obtain ⟨amount, -, -, explains, one⟩ := explains_burn h
    refine ⟨Contents.told_of_moved explains.moved ?_, by simp [one, transferLog]⟩
    simp [one, transfers, transfer?_transferLog]
  case name => exact quiet (atRest_describe h)
  case symbol => exact quiet (atRest_describe h)
  case decimals => exact quiet (atRest_describe h)
  case totalSupply => exact quiet (atRest_totalSupply h)
  case balanceOf => exact quiet (atRest_balanceOf h)
  case allowance => exact quiet (atRest_allowance h)

end TokenContract

/-- The logs in the output of a call, if it has one. -/
def CallResult.logs (r : CallResult) : List Log :=
  match r.result with
  | .ok out => out.logs
  | .error _ => []

namespace Request

/-- All logs of calls that are made in turn, each with the precompile in whose output it is. -/
def emitted (s : Store) : List Request → List (Precompile × Log)
  | [] => []
  | q :: rest => (q.call s).logs.map (q.precompile, ·) ++ emitted (q.call s).store rest

/-- Of the logs of calls, those that some contracts have made, as their addresses tell. -/
def logsOf (s : Store) (requests : List Request) (contracts : Address → Bool) : List Log :=
  ((emitted s requests).map Prod.snd).filter fun l => contracts l.address

variable {s : Store}

theorem told_of_call {q : Request} {t : TokenContract} (token : q.precompile = .token t) :
    s.contents.Told t.denom (q.call s).logs (q.call s).store.contents ∧
      ∀ l ∈ (q.call s).logs, l.address = q.precompile.address := by
  rw [CallResult.logs]
  cases ended : (q.call s).result with
  | error e =>
    have unchanged : (q.call s).store = s := Precompile.store_of_run_error ended
    rw [unchanged]
    exact ⟨Contents.told_of_balance_eq (fun _ _ => rfl) rfl, by simp⟩
  | ok out =>
    obtain ⟨x, read, gives⟩ := Precompile.gives_of_run ended
    rw [token] at read
    obtain ⟨⟨m, args⟩, -, rfl⟩ := map_eq_ok.mp read
    rw [token]
    exact told_of_operate gives

/-- Over calls to token contracts, the logs of the contracts of a denomination account for what the
calls made of its balances. -/
theorem told_of_callAll {contracts : Address → Bool} {denom : String} (requests : List Request)
    (tokens : ∀ q ∈ requests, ∃ t, q.precompile = .token t ∧
      (contracts t.pair.address = true ↔ t.denom = denom))
    (owner : Address) (others : owner ≠ .ofModule moduleName) :
    ((callAll s requests).contents.balance owner denom).toNat +
        sent (logsOf s requests contracts) owner =
      (s.contents.balance owner denom).toNat + received (logsOf s requests contracts) owner := by
  induction requests generalizing s with
  | nil => rfl
  | cons q rest ih =>
    obtain ⟨⟨t, token, picks⟩, tokens⟩ := List.forall_mem_cons.mp tokens
    obtain ⟨told, own⟩ := told_of_call (s := s) token
    have first := told owner others denom
    have later := ih (s := (q.call s).store) tokens
    -- Either all logs of the call count, or none does.
    have counted : logsOf s (q :: rest) contracts =
        (if denom = t.denom then (q.call s).logs else []) ++
          logsOf (q.call s).store rest contracts := by
      have each : (q.call s).logs.filter (fun l => contracts l.address) =
          if denom = t.denom then (q.call s).logs else [] := by
        rw [token] at own
        split
        · rename_i same
          exact List.filter_eq_self.mpr fun l member => by
            rw [own l member]
            exact picks.mpr same.symm
        · rename_i apart
          exact List.filter_eq_nil_iff.mpr fun l member picked => by
            rw [own l member] at picked
            exact apart (picks.mp picked).symm
      simp [logsOf, emitted, Function.comp_def, each]
    rw [counted, received_append, sent_append, callAll_cons]
    by_cases same : denom = t.denom
    · simp only [if_pos same] at first ⊢
      omega
    · simp only [if_neg same] at first ⊢
      simp only [sent, received, transfers, List.filterMap_nil, List.map_nil, List.sum_nil]
        at later ⊢
      omega

theorem address_of_emitted {requests : List Request}
    (tokens : ∀ q ∈ requests, ∃ t, q.precompile = .token t) {p : Precompile} {l : Log}
    (member : (p, l) ∈ emitted s requests) :
    l.address = p.address ∧ ∃ q ∈ requests, q.precompile = p := by
  induction requests generalizing s with
  | nil => cases member
  | cons q rest ih =>
    obtain ⟨⟨t, token⟩, tokens⟩ := List.forall_mem_cons.mp tokens
    rcases List.mem_append.mp member with first | later
    · obtain ⟨l, logged, same⟩ := List.mem_map.mp first
      cases same
      exact ⟨(told_of_call token).2 l logged, q, List.mem_cons_self, rfl⟩
    · obtain ⟨address, q, called, same⟩ := ih tokens later
      exact ⟨address, q, List.mem_cons_of_mem _ called, same⟩

end Request

namespace PrecompileSet

/-- The sets that precompiles are put into one after another. -/
inductive Registered : PrecompileSet → Prop
  | empty : Registered ∅
  | add {set wider : PrecompileSet} {p : Precompile} (before : Registered set)
    (added : set.add? p = .ok wider) : Registered wider

/-- The denomination of the token contract at an address. -/
def denomAt? (set : PrecompileSet) (a : Address) : Option String :=
  match set.at? a with
  | some (.token t) => some t.denom
  | _ => none

theorem mem_list {set : PrecompileSet} {p : Precompile} :
    p ∈ set.list ↔ ∃ key, set.get? key = some p := by
  simp only [list, ByteMap.values, List.mem_map, Prod.exists, exists_eq_right,
    ByteMap.mem_toList_iff]

theorem add?_eq_ok_iff {set wider : PrecompileSet} {p : Precompile} :
    set.add? p = .ok wider ↔
      set.contains p.address.bytes = false ∧ set.insert p.address.bytes p = wider := by
  cases taken : set.contains p.address.bytes <;> simp [add?, taken]

theorem Registered.bytes_eq {set : PrecompileSet} (registered : set.Registered) {key : Bytes}
    {p : Precompile} (found : set.get? key = some p) : p.address.bytes = key := by
  induction registered with
  | empty => cases found
  | @add set wider added _ put ih =>
    obtain ⟨-, rfl⟩ := add?_eq_ok_iff.mp put
    rw [ByteMap.get?_insert] at found
    split at found
    · rename_i same
      cases found
      exact same
    · exact ih found

/-- Every precompile of a set is found at its address. -/
theorem Registered.at?_address {set : PrecompileSet} (registered : set.Registered)
    {p : Precompile} (member : p ∈ set.list) : set.at? p.address = some p := by
  obtain ⟨key, found⟩ := mem_list.mp member
  cases registered.bytes_eq found
  exact found

theorem Registered.eq_of_address_eq {set : PrecompileSet} (registered : set.Registered)
    {p other : Precompile} (member : p ∈ set.list) (member' : other ∈ set.list)
    (same : p.address = other.address) : p = other := by
  have first := registered.at?_address member
  rw [same, registered.at?_address member'] at first
  exact (Option.some.inj first).symm

theorem Registered.denomAt?_address {set : PrecompileSet} (registered : set.Registered)
    {t : TokenContract} (member : .token t ∈ set.list) :
    set.denomAt? t.pair.address = some t.denom := by
  have found : set.at? t.pair.address = some (.token t) := registered.at?_address member
  rw [denomAt?, found]

theorem mem_of_add? {set wider : PrecompileSet} {p other : Precompile}
    (added : set.add? p = .ok wider) :
    other ∈ wider.list ↔ other = p ∨ other ∈ set.list := by
  obtain ⟨absent, rfl⟩ := add?_eq_ok_iff.mp added
  simp only [mem_list, ByteMap.get?_insert]
  constructor
  · rintro ⟨key, found⟩
    split at found
    · exact .inl (Option.some.inj found).symm
    · exact .inr ⟨key, found⟩
  · rintro (rfl | ⟨key, found⟩)
    · exact ⟨other.address.bytes, if_pos rfl⟩
    · have apart : p.address.bytes ≠ key := by
        rintro rfl
        simp [ByteMap.contains, found] at absent
      exact ⟨key, by rw [if_neg apart, found]⟩

/-- Every token contract of the set is at the address that belongs to its denomination. -/
def Derived (set : PrecompileSet) : Prop :=
  ∀ t, .token t ∈ set.list → t.pair.address = .ofToken t.denom

end PrecompileSet

namespace Config

open PrecompileSet

theorem registered_of_pairs {c : Config} {pairs : List PairConfig} {set wider : PrecompileSet}
    (built : pairs.foldlM (fun set p => do add? set (.token (← c.tokenContract p))) set = .ok wider)
    (registered : set.Registered) (derived : set.Derived) : wider.Registered ∧ wider.Derived := by
  induction pairs generalizing set with
  | nil =>
    cases built
    exact ⟨registered, derived⟩
  | cons p rest ih =>
    simp only [List.foldlM_cons, bind_eq_ok] at built
    obtain ⟨next, ⟨t, made, added⟩, built⟩ := built
    have own : t.pair.address = .ofToken t.denom := by
      simp only [tokenContract, TokenContract.new?, bind_eq_ok, pure_eq_ok] at made
      obtain ⟨_, -, rfl⟩ := made
      rfl
    refine ih built (.add registered added) fun t' member => ?_
    rcases (mem_of_add? added).mp member with same | member
    · cases same
      exact own
    · exact derived t' member

/-- The contracts of a chain are at addresses of their own, and no denomination has two of them. -/
theorem registered_precompiles {c : Config} {set : PrecompileSet} (built : c.precompiles = .ok set) :
    set.Registered ∧ set.Derived := by
  simp only [precompiles, bind_eq_ok, mapError_eq_ok] at built
  obtain ⟨tokens, pairs, added⟩ := built
  obtain ⟨registered, derived⟩ := registered_of_pairs pairs .empty fun t member => by
    obtain ⟨key, found⟩ := mem_list.mp member
    cases found
  refine ⟨.add registered added, fun t member => ?_⟩
  rcases (mem_of_add? added).mp member with same | member
  · cases same
  · exact derived t member

end Config

namespace PrecompileSet

/-- Over calls to token contracts of a set, the balance of every account but the one that tokens come
from and go to is what it was, plus what the logs of its denomination's contracts say it received, less
what they say it sent. One contract's logs tell it all where no other has the denomination, as in every
set that a chain starts with. Logs with a contract's address are in no output but its own. -/
theorem Registered.balance_told {set : PrecompileSet} (registered : set.Registered)
    (requests : List Request)
    (members : ∀ q ∈ requests, ∃ t, q.precompile = .token t ∧ .token t ∈ set.list) (s : Store) :
    (∀ t, .token t ∈ set.list → ∀ owner, owner ≠ .ofModule moduleName →
      let before := (s.contents.balance owner t.denom).toNat
      let after := ((Request.callAll s requests).contents.balance owner t.denom).toNat
      let all := Request.logsOf s requests fun a => set.denomAt? a = some t.denom
      let own := Request.logsOf s requests fun a => a = t.pair.address
      after + sent all owner = before + received all owner ∧
        ((∀ t', .token t' ∈ set.list → t'.denom = t.denom → t' = t) →
          after + sent own owner = before + received own owner)) ∧
    (∀ p l, (p, l) ∈ Request.emitted s requests → ∀ other ∈ set.list,
      l.address = other.address → p = other) ∧
    ∀ c : Config, c.precompiles = .ok set → ∀ t t', .token t ∈ set.list → .token t' ∈ set.list →
      t'.denom = t.denom → t' = t := by
  refine ⟨fun t member owner others => ⟨?_, fun alone => ?_⟩, ?_, ?_⟩
  · apply Request.told_of_callAll requests _ owner others
    intro q asked
    obtain ⟨t', token, member'⟩ := members q asked
    refine ⟨t', token, ?_⟩
    simp [registered.denomAt?_address member']
  · apply Request.told_of_callAll requests _ owner others
    intro q asked
    obtain ⟨t', token, member'⟩ := members q asked
    refine ⟨t', token, ?_⟩
    simp only [decide_eq_true_eq]
    constructor
    · intro same
      cases registered.eq_of_address_eq member' member same
      rfl
    · intro same
      rw [alone t' member' same]
  · intro p l emitted other member same
    have tokens : ∀ q ∈ requests, ∃ t, q.precompile = .token t := fun q asked =>
      (members q asked).imp fun _ => And.left
    obtain ⟨address, q, asked, rfl⟩ := Request.address_of_emitted tokens emitted
    obtain ⟨t, token, member'⟩ := members q asked
    rw [token] at address ⊢
    exact registered.eq_of_address_eq member' member (address.symm.trans same)
  · intro c built t t' member member' same
    have derived := (Config.registered_precompiles built).2
    have address : t'.pair.address = t.pair.address := by
      rw [derived t member, derived t' member', same]
    have one : Precompile.token t' = .token t := registered.eq_of_address_eq member' member address
    cases one
    rfl

/-- A contract for the token, wherever it is. -/
def contractAt (a : Address) : TokenContract :=
  ⟨⟨a, "ubridge", true, none⟩, ⟨"ubridge", "Bridge", "BRIDGE", 6⟩, "abridge", 0⟩

/-- The contract at the address that belongs to the token, and another one. -/
def first : TokenContract := contractAt (.ofToken "ubridge")

def twin : TokenContract := contractAt ⟨List.replicate 20 5, rfl⟩

def single : PrecompileSet := ByteMap.insert ∅ first.pair.address.bytes (.token first)

def twins : PrecompileSet := single.insert twin.pair.address.bytes (.token twin)

def holder : Address := ⟨List.replicate 20 6, rfl⟩

/-- The holder transfers thirty at the second contract. -/
def throughTwin : Request where
  precompile := .token twin
  time := 1000
  frame := ⟨holder, [0xA9, 0x05, 0x9C, 0xBB] ++ Abi.addressTopic ⟨List.replicate 20 8, rfl⟩ ++
    List.replicate 31 0 ++ [30], 3000000⟩
  origin := holder
  readOnly := false

/-- The holder has a hundred. -/
def endowed : Store := ((Ledger.endow holder ⟨"ubridge", 100⟩).run ∅ .unbounded).store

theorem twin_apart : twin.pair.address.bytes ≠ first.pair.address.bytes := by decide +kernel

theorem registered_twins : twins.Registered := by
  have free : single.contains twin.pair.address.bytes = false := by
    rw [single, ByteMap.contains, ByteMap.get?_insert, if_neg twin_apart.symm]
    rfl
  have one : (∅ : PrecompileSet).add? (.token first) = .ok single :=
    add?_eq_ok_iff.mpr ⟨rfl, rfl⟩
  have two : single.add? (.token twin) = .ok twins := add?_eq_ok_iff.mpr ⟨free, rfl⟩
  exact .add (.add .empty one) two

theorem mem_twins : .token first ∈ twins.list ∧ .token twin ∈ twins.list := by
  refine ⟨mem_list.mpr ⟨first.pair.address.bytes, ?_⟩,
    mem_list.mpr ⟨twin.pair.address.bytes, ?_⟩⟩
  · rw [twins, ByteMap.get?_insert, if_neg twin_apart, single, ByteMap.get?_insert, if_pos rfl]
  · rw [twins, ByteMap.get?_insert, if_pos rfl]

theorem throughTwin_members : ∀ q ∈ [throughTwin], ∃ t, q.precompile = .token t ∧
    .token t ∈ twins.list := by
  intro q member
  cases List.mem_singleton.mp member
  exact ⟨twin, rfl, mem_twins.2⟩

/-- Of the thirty that leave, the first contract logs nothing. -/
theorem throughTwin_logs :
    let all := Request.logsOf endowed [throughTwin] fun a => twins.denomAt? a = some twin.denom
    let own := Request.logsOf endowed [throughTwin] fun a => a = first.pair.address
    (sent all holder = 30 ∧ received all holder = 0) ∧ sent own holder = 0 ∧
      received own holder = 0 ∧ (endowed.contents.balance holder first.denom).toNat = 100 ∧
      ((Request.callAll endowed [throughTwin]).contents.balance holder first.denom).toNat = 70 := by
  decide +kernel

theorem holder_ne_module : holder ≠ .ofModule moduleName := by decide +kernel

/-- The logs of both contracts together tell of the thirty. -/
theorem balance_told_of_twins :
    let all := Request.logsOf endowed [throughTwin] fun a => twins.denomAt? a = some twin.denom
    twins.Registered ∧
      (∀ q ∈ [throughTwin], ∃ t, q.precompile = .token t ∧ .token t ∈ twins.list) ∧
      sent all holder = 30 ∧ received all holder = 0 ∧
      ((Request.callAll endowed [throughTwin]).contents.balance holder twin.denom).toNat +
          sent all holder =
        (endowed.contents.balance holder twin.denom).toNat + received all holder := by
  intro all
  obtain ⟨⟨left, back⟩, -⟩ := throughTwin_logs
  have told := (registered_twins.balance_told [throughTwin] throughTwin_members endowed).1 twin
    mem_twins.2 holder holder_ne_module
  exact ⟨registered_twins, throughTwin_members, left, back, told.1⟩

/-- The logs of one contract alone need not tell of all that happens to its token. -/
theorem not_balance_told_by_one :
    ¬ ∀ set : PrecompileSet, set.Registered → ∀ requests : List Request,
      (∀ q ∈ requests, ∃ t, q.precompile = .token t ∧ .token t ∈ set.list) →
      ∀ s, Reached s → ∀ t, .token t ∈ set.list → ∀ owner, owner ≠ .ofModule moduleName →
        let own := Request.logsOf s requests fun a => a = t.pair.address
        ((Request.callAll s requests).contents.balance owner t.denom).toNat + sent own owner =
          (s.contents.balance owner t.denom).toNat + received own owner := by
  intro told
  have reached : Reached endowed := .operation .empty (.endow ..) .unbounded rfl (Nat.zero_le _)
  have unlogged := told twins registered_twins [throughTwin] throughTwin_members endowed reached _
    mem_twins.1 holder holder_ne_module
  obtain ⟨-, left, back, before, after⟩ := throughTwin_logs
  simp only [left, back, before, after] at unlogged
  cases unlogged

end PrecompileSet

end LedgerBridge
