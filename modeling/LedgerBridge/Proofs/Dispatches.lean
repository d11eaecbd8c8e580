import LedgerBridge.Proofs.Footprints
import LedgerBridge.Proofs.Genesis
import LedgerBridge.Proofs.PacketLogs
import LedgerBridge.Proofs.Settlement

/-! Transfers over channels, made directly or by swaps. Each that succeeds adds one packet to the log of
its channel, and whatever fails adds none; so the log of a channel tells what was sent over it. -/
namespace LedgerBridge

open Metered

/-- A run that fails has changed no records but those of the area. -/
def Metered.FailsWithin (area : Key → Prop) (x : Metered ε α) : Prop :=
  ∀ v e w, x.evaluate v = (.error e, w) → v.ChangedWithin area w

namespace Metered

variable {area : Key → Prop} {x : Metered ε α}

theorem ChangesWithin.failsWithin (h : ChangesWithin area x) : FailsWithin area x := by
  intro v e w failed
  have changed := h v
  rw [failed] at changed
  exact changed

theorem ChangesWithin.bind_failsWithin {f : α → Metered ε β} (first : ChangesWithin area x)
    (rest : ∀ a, FailsWithin area (f a)) : FailsWithin area (x >>= f) := by
  intro v e w failed
  have before := first v
  rw [evaluate_bind] at failed
  split at failed
  · rename_i a u run
    rw [run] at before
    exact before.trans (rest a u e w failed)
  · rename_i why u run
    rw [run] at before
    cases failed
    exact before

theorem FailsWithin.bind_succeeds {f : α → Metered ε β} (first : FailsWithin area x)
    (rest : ∀ a, Succeeds (f a)) : FailsWithin area (x >>= f) := by
  intro v e w failed
  rw [evaluate_bind] at failed
  split at failed
  · rename_i a u run
    obtain ⟨b, u', ends⟩ := rest a u
    rw [ends] at failed
    cases failed
  · rename_i why u run
    cases failed
    exact first v e w run

end Metered

namespace Ledger

/-- What leaves is paid for in balances, and no packet is there yet. -/
theorem isLocal_release (m : TransferMessage) : ChangesWithin Key.IsLocal (release m) :=
  changesWithin_release (fun _ => Key.isLocal_balance _ _) (Key.isLocal_supply _)

theorem failsWithin_write {area : Key → Prop} (c : Codec α) (key : Key) (a : α) :
    FailsWithin area (write c key a) := by
  simp only [write]
  split
  · intro v e w failed
    cases failed
  · exact (changesWithin_fail _).failsWithin

/-- A transfer that fails has queued nothing and counted nothing. -/
theorem failsWithin_transfer (m : TransferMessage) : FailsWithin Key.IsLocal (transfer m) := by
  refine (changesWithin_liftM _).bind_failsWithin fun _ =>
    (reads_read? _ _).changesWithin.bind_failsWithin fun _ => ?_
  split
  · exact (changesWithin_fail _).failsWithin
  · refine (isLocal_release m).bind_failsWithin fun _ =>
      (reads_nextSequence _ _).changesWithin.bind_failsWithin fun n =>
        (failsWithin_write _ _ _).bind_succeeds fun _ => ?_
    -- Once the packet is written, counting it cannot fail.
    intro v
    exact ⟨n, _, gives_bind.mpr ⟨(), _, gives_write.mpr ⟨rfl, rfl⟩, rfl⟩⟩

theorem queued_of_transfer {m : TransferMessage} {n : UInt64} {v w : Contents}
    (h : (transfer m).Gives v n w) :
    ∃ u, m.check = .ok () ∧ v.ChangedWithin Key.IsLocal u ∧
      (nextSequence m.port m.channel).Gives u n u ∧ (m.packet n).Fits ∧ w = u.queue m n := by
  obtain ⟨u, released, checked, took, next, writable, rfl⟩ := parts_of_transfer h
  exact ⟨u, checked, (isLocal_release m).of_gives took, next,
    (Packet.lawful_codec.writable_iff _).mp writable, rfl⟩

end Ledger

/-- A transfer that was made, with the number of its packet. -/
structure Dispatch where
  message : TransferMessage
  number : UInt64
  deriving DecidableEq

namespace Dispatch

/-- What is recorded of it. -/
def packet (d : Dispatch) : Packet := d.message.packet d.number

@[simp] theorem sequence_packet (d : Dispatch) : d.packet.sequence = d.number := rfl

def isOn (port channel : String) (d : Dispatch) : Bool :=
  d.message.port = port ∧ d.message.channel = channel

/-- What is made by a transfer that ends in this way. -/
def ofResult (m : TransferMessage) : Except ε UInt64 → List Dispatch
  | .ok n => [⟨m, n⟩]
  | .error _ => []

@[simp] theorem ofResult_mapError (m : TransferMessage) (f : ε → ε') (result : Except ε UInt64) :
    ofResult m (result.mapError f) = ofResult m result := by
  cases result <;> rfl

end Dispatch

namespace Contents

/-- At most one transfer was made, with the number that came next; all other changes are elsewhere. -/
inductive Sends (v : Contents) : List Dispatch → Contents → Prop
  | nothing {w : Contents} (change : v.ChangedWithin Key.IsLocal w) : Sends v [] w
  | packet {u w : Contents} {m : TransferMessage} {n : UInt64} (checked : m.check = .ok ())
    (before : v.ChangedWithin Key.IsLocal u)
    (next : (Ledger.nextSequence m.port m.channel).Gives u n u) (fits : (m.packet n).Fits)
    (after : (u.queue m n).ChangedWithin Key.IsLocal w) : Sends v [⟨m, n⟩] w

variable {v w : Contents} {port channel : String} {ps : List Packet}

theorem Logs.of_changedWithin (h : v.Logs port channel ps) (change : v.ChangedWithin Key.IsLocal w) :
    w.Logs port channel ps := by
  induction change with
  | same => exact h
  | put _ key inside change _ ih => exact ih.put inside.isApart change

/-- What is sent over a channel is added to its log. -/
theorem Logs.of_sends {sent : List Dispatch} (h : v.Logs port channel ps) (sends : v.Sends sent w)
    (few : ps.length + (sent.filter (·.isOn port channel)).length < UInt64.size) :
    w.Logs port channel (ps ++ (sent.filter (·.isOn port channel)).map Dispatch.packet) := by
  cases sends with
  | nothing change => simpa using h.of_changedWithin change
  | @packet u w m n checked before next fits after =>
    have logs := h.of_changedWithin before
    obtain ⟨plainPort, plainChannel⟩ := TransferMessage.isPlain_of_check checked
    apply Logs.of_changedWithin _ after
    by_cases same : m.port = port ∧ m.channel = channel
    · obtain ⟨rfl, rfl⟩ := same
      have one : [(⟨m, n⟩ : Dispatch)].filter (·.isOn m.port m.channel) = [⟨m, n⟩] := by
        simp [Dispatch.isOn]
      rw [one] at few ⊢
      have counted := next.unique logs.gives_nextSequence
      exact logs.queue_same plainPort plainChannel few counted fits
    · simpa [Dispatch.isOn, same] using logs.queue_other plainPort plainChannel same n

/-- As long as there are numbers, the log of the channel is what was sent over it. -/
def Tells (v : Contents) (port channel : String) (sent : List Dispatch) : Prop :=
  (sent.filter (·.isOn port channel)).length < UInt64.size →
    v.Logs port channel ((sent.filter (·.isOn port channel)).map Dispatch.packet)

theorem Tells.sends {sent more : List Dispatch} (h : v.Tells port channel sent)
    (sends : v.Sends more w) : w.Tells port channel (sent ++ more) := by
  intro few
  rw [List.filter_append, List.length_append] at few
  rw [List.filter_append, List.map_append]
  exact (h (by omega)).of_sends sends (by rwa [List.length_map])

end Contents

open Contents

theorem Ledger.sends_transfer (m : TransferMessage) (s : Store) (meter : Meter)
    (limit : meter.limit = Meter.cap) (used : meter.used ≤ Meter.cap) :
    s.contents.Sends (Dispatch.ofResult m ((transfer m).run s meter).result)
      ((transfer m).run s meter).store.contents := by
  have same := perform_view (transfer m) s
  rw [run_of_limit_eq_cap (transfer m) s meter limit used, Dispatch.ofResult_mapError]
  rcases ended : (transfer m).evaluate s.contents with ⟨e | n, w⟩
  · have view := Prod.mk.inj (same.trans ended)
    simp only [view]
    exact .nothing (failsWithin_transfer m _ e w ended)
  · have view := Prod.mk.inj (same.trans ended)
    simp only [view]
    obtain ⟨u, checked, before, next, fits, rfl⟩ := queued_of_transfer ended
    exact .packet checked before next fits .same

/-- A swap that succeeds makes the transfer that it asks for. After that no more than the grant that
allowed it is changed. -/
theorem Outpost.transfer_of_swap {o : Outpost} {c : Call} {v w : Contents} {done : Completed}
    (h : (o.swap c).Gives v done w) :
    ∃ r n u, o.request? v c.arguments = some r ∧
      (Ledger.transfer (o.message r c.origin)).Gives v n u ∧
      u.ChangedWithin (fun key => key.kind = .grant) w := by
  obtain ⟨r, authority, n, u, settled, asked, allowed, left, settles, -⟩ := parts_of_swap h
  have after : ChangesWithin (fun key => key.kind = .grant) (Ledger.settle c.time authority) :=
    Ledger.changesWithin_settle_of_authorize allowed fun _ => rfl
  exact ⟨r, n, u, asked, left, after.of_gives settles⟩

theorem TokenContract.isLocal_of_mayChange {t : TokenContract} {op : Operation} {c : Call} {key : Key}
    (h : t.mayChange op c key) : key.IsLocal := by
  cases key with
  | balance | supply | grant => exact ⟨nofun, nofun⟩
  | _ => exact False.elim h

namespace Request

/-- The transfer that a call asks for, as it is read in a map. -/
def message? (q : Request) (v : Contents) : Option TransferMessage :=
  match q.precompile with
  | .token _ => none
  | .outpost o =>
    match Precompile.decode Outpost.table q.frame q.readOnly with
    | .ok (_, args) => (o.request? v args).map fun r => o.message r q.origin
    | .error _ => none

/-- The transfers that a call makes. Nothing that happens in a swap before its transfer decides what
number that has. -/
def dispatches (q : Request) (s : Store) : List Dispatch :=
  match (q.call s).result, q.message? s.contents with
  | .ok _, some m => Dispatch.ofResult m ((Ledger.transfer m).perform s).1
  | _, _ => []

theorem transfer_of_outpost {q : Request} {s : Store} {o : Outpost} {out : CallOutput}
    (swaps : q.precompile = .outpost o) (ended : (q.call s).result = .ok out) :
    ∃ r n u, q.dispatches s = [⟨o.message r q.origin, n⟩] ∧
      (Ledger.transfer (o.message r q.origin)).Gives s.contents n u ∧
      u.ChangedWithin (fun key => key.kind = .grant) (q.call s).store.contents := by
  obtain ⟨p, time, f, origin, readOnly⟩ := q
  cases swaps
  obtain ⟨x, operation, gives⟩ := Precompile.gives_of_run ended
  obtain ⟨⟨⟨op, signature, inputs, kind, gas⟩, args⟩, read, rfl⟩ := map_eq_ok.mp operation
  cases op
  obtain ⟨r, n, u, asked, made, after⟩ := Outpost.transfer_of_swap gives
  refine ⟨r, n, u, ?_, made, after⟩
  simp only [dispatches, ended, message?, read, asked, Option.map_some, perform_of_gives made,
    Dispatch.ofResult]

/-- A swap that succeeds makes one transfer. -/
theorem sends_of_outpost {q : Request} {s : Store} {o : Outpost} {out : CallOutput}
    (swaps : q.precompile = .outpost o) (ended : (q.call s).result = .ok out) :
    ∃ d, q.dispatches s = [d] ∧ s.contents.Sends [d] (q.call s).store.contents := by
  obtain ⟨r, n, u, made, left, after⟩ := transfer_of_outpost swaps ended
  obtain ⟨u', checked, before, next, fits, rfl⟩ := Ledger.queued_of_transfer left
  have aside (key : Key) (grant : key.kind = .grant) : key.IsLocal := by
    simp [Key.IsLocal, grant]
  exact ⟨_, made, .packet checked before next fits (after.mono aside)⟩

theorem sends_call (q : Request) (s : Store) :
    s.contents.Sends (q.dispatches s) (q.call s).store.contents := by
  cases ended : (q.call s).result with
  | error e =>
    have unchanged : (q.call s).store = s := Precompile.store_of_run_error ended
    rw [unchanged]
    simp only [dispatches, ended]
    exact .nothing .same
  | ok out =>
    cases called : q.precompile with
    | token t =>
      obtain ⟨x, operation, gives⟩ := Precompile.gives_of_run ended
      rw [called] at operation
      obtain ⟨⟨m, args⟩, -, rfl⟩ := map_eq_ok.mp operation
      simp only [dispatches, message?, called, ended]
      exact .nothing (((t.changesWithin_operate _ _).of_gives gives).mono
        fun _ => TokenContract.isLocal_of_mayChange)
    | outpost o =>
      obtain ⟨d, made, sends⟩ := sends_of_outpost called ended
      rwa [made]

end Request

end LedgerBridge
