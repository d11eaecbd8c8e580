import LedgerBridge.Proofs.Independence
import LedgerBridge.Proofs.PaidCalls

/-! Moving one's own tokens through the entry meant for those of others. It is the plain transfer with
one more log: no grant is looked for, so none is charged for, used up or missed. -/
namespace LedgerBridge

def Completed.withLog (done : Completed) (log : Log) : Completed :=
  { done with logs := done.logs ++ [log] }

def CallOutput.withLog (out : CallOutput) (log : Log) : CallOutput :=
  { out with toCompleted := out.toCompleted.withLog log }

/-- The second call ends as the first, but for a log that it adds behind the others if it succeeds. -/
structure CallResult.EndsAlike (plain own : CallResult) (log : Log) : Prop where
  result : own.result = plain.result.map (·.withLog log)
  store : own.store = plain.store
  gas : own.frame.gas = plain.frame.gas

/-- A log that is added behind an operation makes no difference to anything else, and the input that the
operation was found by makes none at all. -/
theorem Precompile.execute_endsAlike (x : Action Completed) (s : Store) (f : Frame) (input : Bytes)
    (log : Log) :
    (execute x s f).EndsAlike (execute ((·.withLog log) <$> x) s { f with input }) log := by
  simp only [execute_eq, Metered.run_map, Frame.meter]
  rcases x.run s.branch (.new f.gas) with ⟨stop | done, after, meter⟩
  · cases stop <;> exact ⟨rfl, rfl, rfl⟩
  · simp only [Except.map, Except.mapError, Frame.settle, Frame.pay?]
    by_cases short : f.gas < meter.used
    · simp only [if_pos short]
      exact ⟨rfl, rfl, rfl⟩
    · simp only [if_neg short]
      exact ⟨rfl, rfl, rfl⟩

/-- Everything but grants. -/
def Area.besideGrants : Area := fun bytes =>
  ∀ granter grantee type, (Key.grant granter grantee type).bytes ≠ bytes

namespace TokenContract

open LedgerBridge.Action

variable {t : TokenContract} {c : Call} {recipient : Address} {amount : Word}

/-- Who moves its own tokens needs no grant, and uses up none. -/
theorem move_own (t : TokenContract) (c : Call) (recipient : Address) (amount : Amount) :
    t.move c c.caller recipient amount = do
      (SendMessage.mk c.caller recipient [⟨t.denom, amount⟩]).check.mapError Refusal.ofLedger
      ofTokenLedger (Ledger.send c.caller recipient [⟨t.denom, amount⟩])
      return .own := by
  have own (m : Message) : ofTokenLedger (Ledger.authorize c.time c.caller c.caller m) =
      pure Authority.own := by
    simp only [Ledger.authorize, if_pos]
    rfl
  have settled : ofLedger (Ledger.settle c.time .own) = pure () := rfl
  simp only [move, own, pure_bind, settled]

/-- The transfer from oneself is the plain transfer, and then logs an allowance without a limit. -/
theorem transferFrom_own_eq
    (stated : c.arguments = [.address c.caller, .address recipient, .uint amount]) :
    t.transferFrom c =
      (·.withLog (approvalLog c.address c.caller c.caller (.allOnes 256))) <$>
        t.transfer { c with arguments := [.address recipient, .uint amount] } := by
  obtain ⟨caller, origin, contract, time, arguments⟩ := c
  simp only at stated
  subst stated
  let from' : Call :=
    ⟨caller, origin, contract, time, [.address caller, .address recipient, .uint amount]⟩
  let plain : Call := ⟨caller, origin, contract, time, [.address recipient, .uint amount]⟩
  -- Both read the amount last and under the same name, so they fail alike where it is none.
  let read : Action Amount := liftM (plain.arguments.amount 1 "amount")
  change (read >>= fun n => t.move from' caller recipient n >>= fun authority =>
      pure (t.moved caller recipient n [transferLog contract caller recipient n,
        approvalLog contract caller caller (authority.allowance t.denom).word])) =
    (fun done : Completed => done.withLog (approvalLog contract caller caller (.allOnes 256))) <$>
      (read >>= fun n => discard (t.move plain caller recipient n) >>= fun _ =>
        pure (t.moved caller recipient n [transferLog contract caller recipient n]))
  have own (n : Amount) := t.move_own from' recipient n
  have own' (n : Amount) := t.move_own plain recipient n
  simp only [from', plain] at own own'
  rw [map_bind]
  refine congrArg (read >>= ·) (funext fun n => ?_)
  have dropped (x : Action Authority) : discard x = x >>= fun _ => pure () := rfl
  simp only [from', plain, own, own', dropped, bind_assoc, pure_bind, map_bind, map_pure]
  rfl

theorem operate_transferFrom_own
    (stated : c.arguments = [.address c.caller, .address recipient, .uint amount]) :
    t.operate .transferFrom c =
      (·.withLog (approvalLog c.address c.caller c.caller (.allOnes 256))) <$>
        t.operate .transfer { c with arguments := [.address recipient, .uint amount] } := by
  simp only [operate]
  split
  · exact transferFrom_own_eq stated
  · rfl

theorem logs_of_transfer {v w : Contents} {done : Completed}
    (stated : c.arguments = [.address recipient, .uint amount])
    (h : (t.operate .transfer c).Gives v done w) :
    ∃ n : Amount, amount = .ofAmount n ∧ done.logs = [transferLog c.address c.caller recipient n] := by
  have run := (gives_operate.mp h).2
  simp only [enabledOperation, transfer, Metered.gives_bind, Metered.gives_liftM, and_assoc,
    exists_and_left, exists_eq_left', Metered.gives_discard, Metered.gives_pure,
    Arguments.address_eq_ok, Arguments.amount_eq_ok, stated] at run
  obtain ⟨_, -, payee, named, n, said, _, _, -, rfl, -⟩ := run
  cases named
  cases said
  exact ⟨n, rfl, rfl⟩

open Metered

/-- Moving one's own tokens does not look at grants, and leaves them alone. -/
theorem staysIn_move_own (t : TokenContract) (c : Call) (recipient : Address) (amount : Amount) :
    StaysIn .besideGrants (t.move c c.caller recipient amount) := by
  have balance (owner : Address) (denom : String) :
      Area.besideGrants (Key.balance owner denom).bytes :=
    fun _ _ _ => Key.bytes_ne_of_kind_ne nofun
  rw [move_own]
  refine (staysIn_liftM _).bind fun _ => StaysIn.bind (.mapError ?_ _) fun _ => staysIn_pure _
  exact Ledger.staysIn_send (balance c.caller) (balance recipient)

theorem staysIn_transfer_own (t : TokenContract) (c : Call) :
    StaysIn .besideGrants (t.operate .transfer c) := by
  simp only [operate]
  split
  · refine (staysIn_liftM _).bind fun _ => (staysIn_liftM _).bind fun recipient =>
      (staysIn_liftM _).bind fun amount => ?_
    exact (staysIn_move_own t c recipient amount).discard.bind fun _ => staysIn_pure _
  · exact staysIn_fail _

theorem staysIn_transferFrom_own
    (stated : c.arguments = [.address c.caller, .address recipient, .uint amount]) :
    StaysIn .besideGrants (t.operate .transferFrom c) := by
  rw [operate_transferFrom_own stated, map_eq_pure_bind]
  exact (staysIn_transfer_own t _).bind fun _ => staysIn_pure _

end TokenContract

namespace Precompile

open LedgerBridge.Action LedgerBridge.TokenContract Metered

variable {t : TokenContract} {time : UInt64} {s : Store} {caller recipient origin : Address}
  {amount : Word} {gas : Nat} {readOnly : Bool}

/-- A call whose input is encoded as its method states it is refused for its cost or its kind only. -/
theorem operation_encodeCall {m : Method TokenContract.Operation} {args : Arguments}
    (member : m ∈ TokenContract.methods) (conform : Abi.Conform m.inputs args)
    (bound : (Abi.encode args).length < UInt64.size) :
    (token t).operation time ⟨caller, Abi.encodeCall m.signature args, gas⟩ origin readOnly =
      if readOnly ∧ m.kind = .transaction then .error (.refused .writeProtection)
      else if gas < m.gas then .error .outOfGas
      else .ok (t.operate m.op ⟨caller, origin, t.pair.address, time, args⟩) := by
  have read : decode TokenContract.table ⟨caller, Abi.encodeCall m.signature args, gas⟩ readOnly =
      if readOnly ∧ m.kind = .transaction then .error (.refused .writeProtection)
      else if gas < m.gas then .error .outOfGas
      else .ok (m, args) := by
    rw [decode_of_find? (f := ⟨caller, Abi.encodeCall m.signature args, gas⟩)
      (find?_encodeCall member), decode_encodeCall member conform bound]
    rfl
  rw [operation, read]
  split
  · rfl
  · split <;> rfl

/-- The input that transfers the caller's own tokens. -/
def transferInput (recipient : Address) (amount : Word) : Bytes :=
  Abi.encodeCall "transfer(address,uint256)" [.address recipient, .uint amount]

/-- The input that transfers tokens of `owner`. -/
def transferFromInput (owner recipient : Address) (amount : Word) : Bytes :=
  Abi.encodeCall "transferFrom(address,address,uint256)"
    [.address owner, .address recipient, .uint amount]

/-- Whether the operation runs depends on the gas and on the mode, by the same bound for both inputs. -/
theorem operation_transferInput :
    (token t).operation time ⟨caller, transferInput recipient amount, gas⟩ origin readOnly =
      if readOnly then .error (.refused .writeProtection)
      else if gas < 3000000 then .error .outOfGas
      else .ok (t.operate .transfer
        ⟨caller, origin, t.pair.address, time, [.address recipient, .uint amount]⟩) := by
  rw [transferInput, operation_encodeCall
    (m := ⟨.transfer, "transfer(address,uint256)", [.address, .uint256], .transaction, 3000000⟩)
    (by decide) (by simp [Abi.Kind.admits])
    (by simp [Abi.encode, Abi.tail, Abi.wordSize, UInt64.size])]
  simp only [and_true]

theorem operation_transferFromInput {owner : Address} :
    (token t).operation time ⟨caller, transferFromInput owner recipient amount, gas⟩ origin
        readOnly =
      if readOnly then .error (.refused .writeProtection)
      else if gas < 3000000 then .error .outOfGas
      else .ok (t.operate .transferFrom ⟨caller, origin, t.pair.address, time,
        [.address owner, .address recipient, .uint amount]⟩) := by
  rw [transferFromInput, operation_encodeCall
    (m := ⟨.transferFrom, "transferFrom(address,address,uint256)",
      [.address, .address, .uint256], .transaction, 3000000⟩)
    (by decide) (by simp [Abi.Kind.admits])
    (by simp [Abi.encode, Abi.tail, Abi.wordSize, UInt64.size])]
  simp only [and_true]

theorem endsAlike_own (t : TokenContract) (time : UInt64) (s : Store) (caller recipient : Address)
    (amount : Word) (gas : Nat) (origin : Address) (readOnly : Bool) :
    ((token t).run time s ⟨caller, transferInput recipient amount, gas⟩ origin readOnly).EndsAlike
      ((token t).run time s ⟨caller, transferFromInput caller recipient amount, gas⟩ origin readOnly)
      (approvalLog t.pair.address caller caller (.allOnes 256)) := by
  simp only [run_eq, operation_transferInput, operation_transferFromInput]
  by_cases protect : readOnly = true
  · simp only [if_pos protect]
    exact ⟨rfl, rfl, rfl⟩
  · by_cases short : gas < 3000000
    · simp only [if_neg protect, if_pos short]
      exact ⟨rfl, rfl, rfl⟩
    · simp only [if_neg protect, if_neg short]
      rw [TokenContract.operate_transferFrom_own rfl]
      exact execute_endsAlike _ s ⟨caller, transferInput recipient amount, gas⟩ _ _

/-- Transferring one's own tokens from oneself ends as the plain transfer does, within every budget:
the store, the changes, the data and the gas are the same, and so is the error of a failure. A success
logs the transfer alike, and an allowance without a limit behind it. No grant is looked at or changed. -/
theorem transferFrom_own (t : TokenContract) (time : UInt64) (s : Store) (caller recipient : Address)
    (amount : Word) (gas : Nat) (origin : Address) (readOnly : Bool) :
    let plain := (token t).run time s ⟨caller, transferInput recipient amount, gas⟩ origin readOnly
    let frame : Frame := ⟨caller, transferFromInput caller recipient amount, gas⟩
    plain.EndsAlike ((token t).run time s frame origin readOnly)
        (approvalLog t.pair.address caller caller (.allOnes 256)) ∧
      (∀ out, plain.result = .ok out → ∃ n : Amount, amount = .ofAmount n ∧
        out.logs = [transferLog t.pair.address caller recipient n]) ∧
      ∀ x, (token t).operation time frame origin readOnly = .ok x → StaysIn .besideGrants x := by
  refine ⟨endsAlike_own t time s caller recipient amount gas origin readOnly,
    fun out succeeded => ?_, fun x read => ?_⟩
  · obtain ⟨x, read, gives⟩ := gives_of_run succeeded
    rw [operation_transferInput] at read
    split_ifs at read
    cases read
    exact TokenContract.logs_of_transfer rfl gives
  · rw [operation_transferFromInput] at read
    split_ifs at read
    cases read
    exact TokenContract.staysIn_transferFrom_own rfl

end Precompile

end LedgerBridge
