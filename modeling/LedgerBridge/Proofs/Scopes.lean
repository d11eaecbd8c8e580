import LedgerBridge.Proofs.ChannelKeys
import LedgerBridge.Proofs.Footprints
import LedgerBridge.Proofs.Spending

/-! The scope of a call that succeeds: coins of one denomination, one grant, and for a swap the queue
of one channel. Keys are made of parts of any length, so that the rest of the store stays as it is also
takes that no record outside of the scope has the key of one inside. -/
namespace LedgerBridge

/-- Coins of a denomination, some grants, and what is queued on some channels. -/
structure Scope where
  denom : String
  granted : (granter grantee : Address) → (type : String) → Prop
  queued : (port channel : String) → Prop

namespace Scope

def Covers (scope : Scope) : Key → Prop
  | .balance _ denom => denom = scope.denom
  | .supply denom => denom = scope.denom
  | .grant granter grantee type => scope.granted granter grantee type
  | .sequence port channel => scope.queued port channel
  | .packet port channel _ => scope.queued port channel
  | _ => False

/-- The channels of the scope have names without slashes. -/
def IsPlain (scope : Scope) : Prop :=
  ∀ port channel, scope.queued port channel → Identifier.IsPlain port ∧ Identifier.IsPlain channel

variable {scope : Scope} {key other : Key}

/-- Records inside and outside of a scope have different keys. The names of other channels may be any,
slashes and all. -/
theorem bytes_ne_of_covers (plain : scope.IsPlain) (inside : scope.Covers other)
    (outside : ¬ scope.Covers key) : other.bytes ≠ key.bytes := by
  intro same
  have otherPlain : other.IsPlain := by
    cases other with
    | sequence port channel | packet port channel n => exact plain port channel inside
    | channel => exact inside.elim
    | balance | supply | metadata | grant | pair | pairAddress | stakingParams => trivial
  obtain rfl := Key.eq_of_bytes_eq otherPlain same.symm
  exact outside inside

end Scope

namespace Contents

/-- The same bytes stand under the key, or none do. -/
def SameAt (v w : Contents) (key : Key) : Prop := w.get? key.bytes = v.get? key.bytes

/-- All records outside of the scope are as they were. -/
structure UnchangedBut (v : Contents) (scope : Scope) (w : Contents) : Prop where
  balance : ∀ owner denom, denom ≠ scope.denom → v.SameAt w (.balance owner denom)
  supply : ∀ denom, denom ≠ scope.denom → v.SameAt w (.supply denom)
  grant : ∀ granter grantee type, ¬ scope.granted granter grantee type →
    v.SameAt w (.grant granter grantee type)
  sequence : ∀ port channel, ¬ scope.queued port channel → v.SameAt w (.sequence port channel)
  packet : ∀ port channel n, ¬ scope.queued port channel → v.SameAt w (.packet port channel n)
  metadata : ∀ denom, v.SameAt w (.metadata denom)
  pair : ∀ denom, v.SameAt w (.pair denom)
  pairAddress : ∀ address, v.SameAt w (.pairAddress address)
  stakingParams : v.SameAt w .stakingParams
  channel : ∀ port channel, v.SameAt w (.channel port channel)
  /-- What is the key of no record is touched by nothing. -/
  foreign : ∀ bytes, (∀ key : Key, key.bytes ≠ bytes) → w.get? bytes = v.get? bytes

variable {v w : Contents} {scope : Scope}

theorem ChangedWithin.unchangedBut (h : v.ChangedWithin scope.Covers w) (plain : scope.IsPlain) :
    v.UnchangedBut scope w := by
  have same (key : Key) (outside : ¬ scope.Covers key) : v.SameAt w key :=
    h.get?_eq fun _ inside => Scope.bytes_ne_of_covers plain inside outside
  exact {
    balance := fun owner denom apart => same (.balance owner denom) apart
    supply := fun denom apart => same (.supply denom) apart
    grant := fun granter grantee type apart => same (.grant granter grantee type) apart
    sequence := fun port channel apart => same (.sequence port channel) apart
    packet := fun port channel n apart => same (.packet port channel n) apart
    metadata := fun denom => same (.metadata denom) id
    pair := fun denom => same (.pair denom) id
    pairAddress := fun address => same (.pairAddress address) id
    stakingParams := same .stakingParams id
    channel := fun port channel => same (.channel port channel) id
    foreign := fun _ apart => h.get?_eq fun key _ => apart key }

end Contents

open Metered

/-- Coins of the token, and the send grant that the operation is about. -/
def TokenContract.scope (t : TokenContract) (op : Operation) (caller : Address) (args : Arguments) :
    Scope where
  denom := t.denom
  granted owner spender type :=
    type = Message.sendType ∧ op.concerns caller args owner spender = true
  queued _ _ := False

/-- Coins of what is swapped, the origin's transfer grant to the caller, and the outpost's channel. -/
def Outpost.scope (o : Outpost) (denom : String) (origin caller : Address) : Scope where
  denom := denom
  granted granter grantee type := granter = origin ∧ grantee = caller ∧ type = Message.transferType
  queued port channel := port = o.config.port ∧ channel = o.config.channel

variable {v w : Contents} {c : Call} {done : Completed}

theorem TokenContract.unchangedBut_operate {t : TokenContract} {op : Operation}
    (h : (t.operate op c).Gives v done w) :
    v.UnchangedBut (t.scope op c.caller c.arguments) w := by
  have within : v.ChangedWithin (t.scope op c.caller c.arguments).Covers w := by
    apply ((t.changesWithin_operate op c).of_gives h).mono
    intro key inside
    cases key with
    | balance | supply | grant => exact inside
    | _ => exact inside.elim
  exact within.unchangedBut fun _ _ => False.elim

/-- A transfer that succeeds goes over a channel whose name is well-formed. -/
theorem Outpost.unchangedBut_swap {o : Outpost} (h : (o.swap c).Gives v done w) :
    ∃ token denom, c.arguments[1]? = some (.address token) ∧ v.denomAt? token = some denom ∧
      v.UnchangedBut (o.scope denom c.origin c.caller) w := by
  obtain ⟨r, authority, sequence, u, settled, asked, allowed, left, settles, -⟩ := parts_of_swap h
  obtain ⟨token, -, named, -, -, -, registered, -⟩ := exists_of_request? asked
  refine ⟨token, r.inputDenom, named, registered, ?_⟩
  have sending : ChangesWithin (o.scope r.inputDenom c.origin c.caller).Covers
      (Ledger.transfer (o.message r c.origin)) :=
    Ledger.changesWithin_transfer (fun _ => rfl) rfl (fun _ => ⟨rfl, rfl⟩) ⟨rfl, rfl⟩
  have settling : ChangesWithin (o.scope r.inputDenom c.origin c.caller).Covers
      (Ledger.settle c.time authority) :=
    Ledger.changesWithin_settle_of_authorize allowed fun _ => ⟨rfl, rfl, rfl⟩
  apply ((sending.of_gives left).trans (settling.of_gives settles)).unchangedBut
  rintro _ _ ⟨rfl, rfl⟩
  obtain ⟨_, _, checked, -⟩ := Ledger.parts_of_transfer left
  exact TransferMessage.isPlain_of_check checked

namespace Precompile

/-- What a call that succeeds may have changed, by the method that it called: for a token contract its
own coins and a grant, for an outpost what it swapped. -/
inductive HasScope (p : Precompile) (f : Frame) (origin : Address) (readOnly : Bool) (v : Contents) :
    Scope → Prop
  | token (t : TokenContract) (m : Method TokenContract.Operation) (args : Arguments)
      (contract : p = .token t) (call : decode TokenContract.table f readOnly = .ok (m, args)) :
      HasScope p f origin readOnly v (t.scope m.op f.caller args)
  | outpost (o : Outpost) (m : Method Outpost.Operation) (args : Arguments) (token : Address)
      (denom : String) (contract : p = .outpost o)
      (call : decode Outpost.table f readOnly = .ok (m, args))
      (input : args[1]? = some (.address token) ∧ v.denomAt? token = some denom) :
      HasScope p f origin readOnly v (o.scope denom origin f.caller)

/-- A call that succeeds leaves all records as they were but those in its scope. -/
theorem run_keeps_to_scope {p : Precompile} {time : UInt64} {s : Store} {f : Frame}
    {origin : Address} {readOnly : Bool} {out : CallOutput}
    (h : (p.run time s f origin readOnly).result = .ok out) :
    ∃ scope, p.HasScope f origin readOnly s.contents scope ∧
      s.contents.UnchangedBut scope (p.run time s f origin readOnly).store.contents := by
  obtain ⟨x, operation, gives⟩ := gives_of_run h
  cases p with
  | token t =>
    obtain ⟨⟨m, args⟩, read, rfl⟩ := map_eq_ok.mp operation
    exact ⟨_, .token t m args rfl read, TokenContract.unchangedBut_operate gives⟩
  | outpost o =>
    obtain ⟨⟨⟨op, signature, inputs, kind, gas⟩, args⟩, read, rfl⟩ := map_eq_ok.mp operation
    cases op
    obtain ⟨token, denom, named, registered, unchanged⟩ := Outpost.unchangedBut_swap gives
    exact ⟨_, .outpost o _ args token denom rfl read ⟨named, registered⟩, unchanged⟩

end Precompile

namespace Request

/-- The grantee's call, which moves one kind of coin under one grant. -/
theorem run_keeps_to_scope_of_grantee :
    ∃ s out scope, Config.granting.initialStore = .ok s ∧ (ofGrantee.call s).result = .ok out ∧
      ofGrantee.precompile.HasScope ofGrantee.frame Config.grantee false s.contents scope ∧
      scope.denom = "ubridge" ∧
      (∀ owner spender type, scope.granted owner spender type ↔
        owner = Config.granter ∧ spender = Config.grantee ∧ type = Message.sendType) ∧
      s.contents.UnchangedBut scope (ofGrantee.call s).store.contents := by
  have known : (Config.granting.initialStore.toOption.any fun s =>
      (ofGrantee.call s).result.toOption.isSome) = true := by
    simp only [call_ofGrantee]
    decide +kernel
  obtain ⟨s, started, known⟩ := exists_of_any_toOption known
  obtain ⟨out, ended⟩ := Option.isSome_iff_exists.mp known
  have succeeded := toOption_eq_some.mp ended
  obtain ⟨scope, hasScope, unchanged⟩ := Precompile.run_keeps_to_scope succeeded
  have same : scope = Config.granted.scope .transferFrom Config.grantee
      [.address Config.granter, .address Config.grantee, .uint 30] := by
    cases hasScope with
    | token t m args contract call =>
      cases contract
      cases call.symm.trans decode_ofGrantee
      rfl
    | outpost o m args token denom contract => cases contract
  refine ⟨s, out, scope, started, succeeded, hasScope, by rw [same]; rfl, ?_, unchanged⟩
  intro owner spender type
  rw [same]
  simp only [TokenContract.scope, TokenContract.Operation.concerns, List.getElem?_cons_zero,
    Option.some.injEq, Abi.Value.address.injEq, decide_eq_true_eq]
  constructor
  · rintro ⟨sends, spends, owns⟩
    exact ⟨owns.symm, spends, sends⟩
  · rintro ⟨owns, spends, sends⟩
    exact ⟨sends, spends, owns.symm⟩

end Request

end LedgerBridge
