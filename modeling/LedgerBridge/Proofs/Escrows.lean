import LedgerBridge.Proofs.Departures
import Mathlib.Algebra.GroupWithZero.Nat

/-! The accounts of channels. What is sent over a channel in coins of this ledger is locked in the
channel's account, so that account gains just what the packets of the channel tell of. It is so for one
transfer, and over every run in which nobody else touches the account. -/
namespace LedgerBridge

open Metered Contents

/-- What packets tell of a denomination, all in all. -/
def Packet.total (denom : String) (ps : List Packet) : Nat :=
  ((ps.filter (·.denom = denom)).map (·.amount.toNat)).sum

/-- The packets of the transfers that were made over a channel. -/
def Dispatch.packetsOn (port channel : String) (made : List Dispatch) : List Packet :=
  (made.filter (·.isOn port channel)).map packet

namespace Packet

variable {denom : String}

@[simp] theorem total_nil : total denom [] = 0 := rfl

@[simp] theorem total_append (ps more : List Packet) :
    total denom (ps ++ more) = total denom ps + total denom more := by
  simp [total]

@[simp] theorem total_singleton (p : Packet) :
    total denom [p] = if p.denom = denom then p.amount.toNat else 0 := by
  by_cases same : p.denom = denom <;> simp [total, same]

end Packet

namespace Dispatch

variable {port channel : String}

@[simp] theorem packetsOn_append (made more : List Dispatch) :
    packetsOn port channel (made ++ more) =
      packetsOn port channel made ++ packetsOn port channel more := by
  simp [packetsOn]

theorem packetsOn_eq_nil {made : List Dispatch} (none : ∀ d ∈ made, d.isOn port channel = false) :
    packetsOn port channel made = [] := by
  simpa [packetsOn] using none

@[simp] theorem packetsOn_singleton (m : TransferMessage) (n : UInt64) :
    packetsOn m.port m.channel [⟨m, n⟩] = [m.packet n] := by
  simp [packetsOn, isOn, packet]

end Dispatch

/-- One step of a ledger, with the transfers that are made in it: a transfer, a call, or anything else
that its keepers offer. -/
inductive Ledger.Step (s : Store) : Store → List Dispatch → Prop
  | operation {α : Type} {x : Ledger α} (offered : KeeperOperation x)
    (aside : ChangesWithin Key.IsLocal x) (meter : Meter) (limit : meter.limit = Meter.cap)
    (used : meter.used ≤ Meter.cap) : Step s (x.run s meter).store []
  | transfer (m : TransferMessage) (meter : Meter) (limit : meter.limit = Meter.cap)
    (used : meter.used ≤ Meter.cap) :
    Step s ((Ledger.transfer m).run s meter).store
      (Dispatch.ofResult m ((Ledger.transfer m).run s meter).result)
  | call (q : Request) : Step s (q.call s).store (q.dispatches s)

namespace Ledger.Step

variable {s s' : Store} {sent more : List Dispatch}

theorem reached (h : Step s s' more) (before : Reached s) : Reached s' := by
  cases h with
  | operation offered _ meter limit used => exact .operation before offered meter limit used
  | transfer m meter limit used => exact .operation before (.transfer m) meter limit used
  | call q => exact .call before q.precompile q.time q.frame q.origin q.readOnly

theorem dispatched (h : Step s s' more) (before : Dispatched s sent) :
    Dispatched s' (sent ++ more) := by
  cases h with
  | operation _ aside meter limit used =>
    rw [List.append_nil]
    exact before.operation aside meter limit used
  | transfer m meter limit used => exact before.transfer m meter limit used
  | call q => exact before.call q

end Ledger.Step

/-- A run in which the account of a channel is left to what is sent over that channel. Others may send
over the channel what they like, in transfers or swaps that succeed or fail; whatever else happens has
to leave the account as much of the denomination as it had. -/
inductive Escrowing (port channel denom : String) (start : Store) : Store → List Dispatch → Prop
  | start : Escrowing port channel denom start start []
  | transfer {s : Store} {made : List Dispatch} (before : Escrowing port channel denom start s made)
    (m : TransferMessage) (onChannel : m.port = port ∧ m.channel = channel)
    (stranger : m.sender ≠ .escrow port channel) (fits : Text.Fits m.receiver) (meter : Meter)
    (limit : meter.limit = Meter.cap) (used : meter.used ≤ Meter.cap) :
    Escrowing port channel denom start ((Ledger.transfer m).run s meter).store
      (made ++ Dispatch.ofResult m ((Ledger.transfer m).run s meter).result)
  | swap {s : Store} {made : List Dispatch} (before : Escrowing port channel denom start s made)
    (q : Request) (o : Outpost) (swaps : q.precompile = .outpost o)
    (onChannel : o.config.port = port ∧ o.config.channel = channel)
    (stranger : q.origin ≠ .escrow port channel) :
    Escrowing port channel denom start (q.call s).store (made ++ q.dispatches s)
  | aside {s s' : Store} {made more : List Dispatch}
    (before : Escrowing port channel denom start s made) (step : Ledger.Step s s' more)
    (elsewhere : ∀ d ∈ more, d.isOn port channel = false)
    (untouched : s'.contents.balance (.escrow port channel) denom =
      s.contents.balance (.escrow port channel) denom) :
    Escrowing port channel denom start s' (made ++ more)

namespace Escrowing

variable {port channel denom : String} {start s : Store} {sent made : List Dispatch}

theorem reached (h : Escrowing port channel denom start s made) (before : Reached start) :
    Reached s := by
  induction h with
  | start => exact before
  | transfer _ m _ _ _ meter limit used ih => exact (Ledger.Step.transfer m meter limit used).reached ih
  | swap _ q _ _ _ _ ih => exact (Ledger.Step.call q).reached ih
  | aside _ step _ _ ih => exact step.reached ih

theorem dispatched (h : Escrowing port channel denom start s made)
    (before : Dispatched start sent) : Dispatched s (sent ++ made) := by
  induction h with
  | start => rwa [List.append_nil]
  | transfer _ m _ _ _ meter limit used ih =>
    rw [← List.append_assoc]
    exact (Ledger.Step.transfer m meter limit used).dispatched ih
  | swap _ q _ _ _ _ ih =>
    rw [← List.append_assoc]
    exact (Ledger.Step.call q).dispatched ih
  | aside _ step _ _ ih =>
    rw [← List.append_assoc]
    exact step.dispatched ih

end Escrowing

namespace Contents

variable {u v w : Contents} {m : TransferMessage} {denom : String}

/-- The account of the channel gains what the packet tells of. -/
theorem Released.escrow_balance (h : v.Released m w) (native : Denom.isVoucher denom = false)
    (n : UInt64) :
    (w.balance (.escrow m.port m.channel) denom).toNat =
      (v.balance (.escrow m.port m.channel) denom).toNat +
        Packet.total denom (Dispatch.packetsOn m.port m.channel [⟨m, n⟩]) := by
  rw [Dispatch.packetsOn_singleton, Packet.total_singleton]
  by_cases same : m.token.denom = denom
  · subst same
    simpa [TransferMessage.packet] using (h.native native).1
  · have kept := (h.others denom (Ne.symm same)).2 (.escrow m.port m.channel)
    simp [TransferMessage.packet, same, kept]

end Contents

namespace Ledger

variable {s : Store} {v w : Contents} {m : TransferMessage} {n : UInt64} {meter : Meter}
  {denom : String}

theorem released_of_transfer (conserved : v.Conserved)
    (stranger : m.sender ≠ .escrow m.port m.channel) (h : (transfer m).Gives v n w) :
    v.Released m w :=
  conserved.released ((Contents.kept_conserved.transfer m).of_gives h conserved) (moved_of_transfer h) stranger

/-- A transfer that fails has changed nothing at all. -/
theorem contents_of_transfer_error (reached : Reached s) (fits : Text.Fits m.receiver)
    (limit : meter.limit = Meter.cap) (used : meter.used ≤ Meter.cap) {e : Stop LedgerError}
    (failed : ((transfer m).run s meter).result = .error e) :
    ((transfer m).run s meter).store.contents = s.contents := by
  obtain ⟨sent, dispatched⟩ := Dispatched.exists_of_reached reached
  have readable := dispatched.readable_sequence m.port m.channel
  have same := perform_view (transfer m) s
  rw [run_of_limit_eq_cap _ s meter limit used] at failed ⊢
  rcases ended : (transfer m).evaluate s.contents with ⟨e | n, w⟩
  · have clean := cleanFrom_transfer fits _ e w ⟨reached.conserved, readable⟩ ended
    exact (Prod.mk.inj (same.trans ended)).2.trans clean
  · rw [(Prod.mk.inj (same.trans ended)).1] at failed
    cases failed

theorem gives_channel?_of_perform {port channel : String} {far : Option ChannelEnd}
    (opened : ((channel? port channel).perform s).1 = .ok far) :
    (channel? port channel).Gives s.contents far s.contents := by
  have found := gives_of_perform opened
  have same : ((channel? port channel).perform s).2.view = s.contents :=
    (reads_read? _ _).eq_of_gives found
  rwa [same] at found

/-- A transfer of what is there over an open channel succeeds. -/
theorem result_of_transfer {far : ChannelEnd} (reached : Reached s) (checked : m.check = .ok ())
    (fits : Text.Fits m.receiver)
    (opened : ((channel? m.port m.channel).perform s).1 = .ok (some far))
    (enough : m.token.amount ≤ s.contents.balance m.sender m.token.denom)
    (limit : meter.limit = Meter.cap) (used : meter.used ≤ Meter.cap) :
    ∃ n, ((transfer m).run s meter).result = .ok n := by
  obtain ⟨sent, dispatched⟩ := Dispatched.exists_of_reached reached
  have readable := dispatched.readable_sequence m.port m.channel
  obtain ⟨n, w, ends⟩ := exists_transfer reached.conserved readable checked fits
    (gives_channel?_of_perform opened) enough
  refine ⟨n, ?_⟩
  rw [run_of_limit_eq_cap _ s meter limit used, perform_of_gives ends]
  rfl

/-- A transfer to a receiver that fits into no packet fails too late: the funds have left, and no packet
tells of them. -/
theorem released_of_unfit {far : ChannelEnd} (reached : Reached s) (checked : m.check = .ok ())
    (unfit : ¬ Text.Fits m.receiver)
    (opened : ((channel? m.port m.channel).perform s).1 = .ok (some far))
    (enough : m.token.amount ≤ s.contents.balance m.sender m.token.denom)
    (stranger : m.sender ≠ .escrow m.port m.channel) (limit : meter.limit = Meter.cap)
    (used : meter.used ≤ Meter.cap) :
    let done := (transfer m).run s meter
    done.result = .error (.failed (.storage .serialization "invalid data")) ∧
      s.contents.Released m done.store.contents ∧
      s.contents.ChangedWithin Key.IsLocal done.store.contents := by
  obtain ⟨sent, dispatched⟩ := Dispatched.exists_of_reached reached
  have readable := dispatched.readable_sequence m.port m.channel
  obtain ⟨u, released, ended⟩ := evaluate_transfer_of_unfit reached.conserved readable checked unfit
    (gives_channel?_of_perform opened) enough
  have after : u.Conserved := (kept_conserved.release m).of_gives released reached.conserved
  have paid := reached.conserved.released after (moved_of_release released) stranger
  have aside := (isLocal_release m).of_gives released
  obtain ⟨failed, left⟩ := Prod.mk.inj ((perform_view (transfer m) s).trans ended)
  have left : ((transfer m).perform s).2.contents = u := left
  simp only [run_of_limit_eq_cap _ s meter limit used, failed, left]
  exact ⟨rfl, paid, aside⟩

/-- Whether a transfer succeeds or fails, the account of its channel gains what it has recorded. -/
theorem escrow_transfer (reached : Reached s) (native : Denom.isVoucher denom = false)
    (stranger : m.sender ≠ .escrow m.port m.channel) (fits : Text.Fits m.receiver)
    (limit : meter.limit = Meter.cap) (used : meter.used ≤ Meter.cap) :
    (((transfer m).run s meter).store.contents.balance (.escrow m.port m.channel) denom).toNat =
      (s.contents.balance (.escrow m.port m.channel) denom).toNat +
        Packet.total denom (Dispatch.packetsOn m.port m.channel
          (Dispatch.ofResult m ((transfer m).run s meter).result)) := by
  cases ended : ((transfer m).run s meter).result with
  | error e =>
    rw [contents_of_transfer_error reached fits limit used ended]
    rfl
  | ok n =>
    have released := released_of_transfer reached.conserved stranger (gives_of_run_ok ended)
    exact released.escrow_balance native n

end Ledger

/-- The same is true of a swap. -/
theorem Request.escrow_call {q : Request} {o : Outpost} {s : Store} {denom : String}
    (reached : Reached s) (native : Denom.isVoucher denom = false) (swaps : q.precompile = .outpost o)
    (stranger : q.origin ≠ .escrow o.config.port o.config.channel) :
    ((q.call s).store.contents.balance (.escrow o.config.port o.config.channel) denom).toNat =
      (s.contents.balance (.escrow o.config.port o.config.channel) denom).toNat +
        Packet.total denom (Dispatch.packetsOn o.config.port o.config.channel (q.dispatches s)) := by
  cases ended : (q.call s).result with
  | error e =>
    have unchanged : (q.call s).store = s := Precompile.store_of_run_error ended
    have nothing : q.dispatches s = [] := by simp only [dispatches, ended]
    rw [unchanged, nothing]
    rfl
  | ok out =>
    obtain ⟨r, n, u, made, left, after⟩ := transfer_of_outpost swaps ended
    have released := Ledger.released_of_transfer reached.conserved stranger left
    rw [after.balance_eq fun key grant => by simp [grant], made]
    exact released.escrow_balance native n

theorem Escrowing.balance {port channel denom : String} {start s : Store} {made : List Dispatch}
    (h : Escrowing port channel denom start s made) (before : Reached start)
    (native : Denom.isVoucher denom = false) :
    (s.contents.balance (.escrow port channel) denom).toNat =
      (start.contents.balance (.escrow port channel) denom).toNat +
        Packet.total denom (Dispatch.packetsOn port channel made) := by
  induction h with
  | start => rfl
  | transfer run m onChannel stranger fits meter limit used ih =>
    obtain ⟨rfl, rfl⟩ := onChannel
    have gained := Ledger.escrow_transfer (run.reached before) native stranger fits limit used
    rw [gained, ih, Dispatch.packetsOn_append, Packet.total_append, Nat.add_assoc]
  | swap run q o swaps onChannel stranger ih =>
    obtain ⟨rfl, rfl⟩ := onChannel
    have gained := Request.escrow_call (run.reached before) native swaps stranger
    rw [gained, ih, Dispatch.packetsOn_append, Packet.total_append, Nat.add_assoc]
  | aside _ step elsewhere untouched ih =>
    rw [untouched, ih, Dispatch.packetsOn_append, Dispatch.packetsOn_eq_nil elsewhere,
      List.append_nil]

/-- Funds leave with a packet or not at all, and they leave if they are there and the channel is open. So
the account of a channel has got what the packets of its channel tell of. The receiver has to be a text
that a packet can hold, whose length has four bytes. That no packet is written over, and that the
channel's packets are the recorded ones, is so as long as there are numbers for them. -/
theorem Reached.transfers_backed {s : Store} {sent : List Dispatch} (reached : Reached s)
    (dispatched : Dispatched s sent) :
    (∀ (m : TransferMessage) (meter : Meter), meter.limit = Meter.cap → meter.used ≤ Meter.cap →
      m.sender ≠ .escrow m.port m.channel →
      let done := (Ledger.transfer m).run s meter
      (∀ n, done.result = .ok n →
        s.contents.Recorded (m.packet n) done.store.contents ∧
        s.contents.Released m done.store.contents ∧
        ((sent.filter (·.isOn m.port m.channel)).length < UInt64.size - 1 →
          s.contents.get? (Key.packet m.port m.channel n).bytes = none)) ∧
      (∀ e, done.result = .error e → Text.Fits m.receiver → done.store.contents = s.contents) ∧
      (∀ far, m.check = .ok () → Text.Fits m.receiver →
        ((Ledger.channel? m.port m.channel).perform s).1 = .ok (some far) →
        m.token.amount ≤ s.contents.balance m.sender m.token.denom →
        ∃ n, done.result = .ok n)) ∧
    ∀ (port channel denom : String), Denom.isVoucher denom = false → ∀ s' made,
      Escrowing port channel denom s s' made →
      let recorded := Dispatch.packetsOn port channel made
      (s'.contents.balance (.escrow port channel) denom).toNat =
        (s.contents.balance (.escrow port channel) denom).toNat + Packet.total denom recorded ∧
      (((sent ++ made).filter (·.isOn port channel)).length < UInt64.size →
        ∃ earlier, s.contents.Logs port channel earlier ∧
          s'.contents.Logs port channel (earlier ++ recorded)) := by
  refine ⟨fun m meter limit used stranger => ⟨fun n ended => ?_, fun e failed fits => ?_,
      fun far checked fits opened enough => ?_⟩,
    fun port channel denom native s' made run => ⟨run.balance reached native, fun few => ?_⟩⟩
  · have gives := gives_of_run_ok ended
    obtain ⟨u, -, before, next, -, same⟩ := Ledger.queued_of_transfer gives
    refine ⟨?_, Ledger.released_of_transfer reached.conserved stranger gives, fun few => ?_⟩
    · rw [same]
      exact recorded_queue before
    · exact (dispatched.tells m.port m.channel).get?_packet few before next
  · exact Ledger.contents_of_transfer_error reached fits limit used failed
  · exact Ledger.result_of_transfer reached checked fits opened enough limit used
  · refine ⟨Dispatch.packetsOn port channel sent, dispatched.tells port channel ?_, ?_⟩
    · rw [List.filter_append, List.length_append] at few
      omega
    · rw [← Dispatch.packetsOn_append]
      exact (run.dispatched dispatched).tells port channel few

namespace Config

/-- The developer sends more than there is. -/
def developerOverdraft : TransferMessage :=
  { developerTransfer "channel-0" with token := ⟨"abridge", 1000000000000000000000000000000⟩ }

/-- The developer sends ten, fails to send too much, and swaps five. -/
def developerEscrows (s : Store) : Store × List Dispatch :=
  let sent := (Ledger.transfer (developerTransfer "channel-0")).run s .unbounded
  let refused := (Ledger.transfer developerOverdraft).run sent.store .unbounded
  (((developerSwap 3000000).call refused.store).store,
    Dispatch.ofResult (developerTransfer "channel-0") sent.result ++
      Dispatch.ofResult developerOverdraft refused.result ++
      (developerSwap 3000000).dispatches refused.store)

theorem developer_ne_escrow : developer ≠ .escrow "transfer" "channel-0" := by decide +kernel

theorem fits_receiver : Text.Fits "osmo1receiver" := by
  rw [Text.Fits]
  decide

theorem escrowing_developerEscrows (s : Store) :
    Escrowing "transfer" "channel-0" "abridge" s (developerEscrows s).1 (developerEscrows s).2 := by
  have begun : Escrowing "transfer" "channel-0" "abridge" s s [] := .start
  have sent := begun.transfer (developerTransfer "channel-0") ⟨rfl, rfl⟩ developer_ne_escrow
    fits_receiver .unbounded rfl (Nat.zero_le _)
  have refused := sent.transfer developerOverdraft ⟨rfl, rfl⟩ developer_ne_escrow fits_receiver
    .unbounded rfl (Nat.zero_le _)
  have swapped := refused.swap (developerSwap 3000000) _ rfl ⟨rfl, rfl⟩ developer_ne_escrow
  rw [List.nil_append] at swapped
  simpa only [developerEscrows] using swapped

end Config

/-- The developer's ten and five are all that the account of the channel has. -/
theorem Reached.transfers_backed_by_developer :
    ∃ s s' made, Config.development.initialStore = .ok s ∧
      Config.developerEscrows s = (s', made) ∧
      let message := Config.developerTransfer "channel-0"
      let done := (Ledger.transfer message).run s .unbounded
      let refused := (Ledger.transfer Config.developerOverdraft).run s .unbounded
      message.check = .ok () ∧ message.token.amount ≤ s.contents.balance message.sender "abridge" ∧
      (∃ far, ((Ledger.channel? message.port message.channel).perform s).1 = .ok (some far)) ∧
      (∃ n, done.result = .ok n) ∧ done.result = .ok 1 ∧
      s.contents.Recorded (message.packet 1) done.store.contents ∧
      s.contents.Released message done.store.contents ∧
      s.contents.get? (Key.packet message.port message.channel 1).bytes = none ∧
      (∃ e, refused.result = .error e) ∧ refused.store.contents = s.contents ∧
      Escrowing "transfer" "channel-0" "abridge" s s' made ∧
      (s.contents.balance (.escrow "transfer" "channel-0") "abridge").toNat = 0 ∧
      (s'.contents.balance (.escrow "transfer" "channel-0") "abridge").toNat = 15 ∧
      ∃ earlier, s.contents.Logs "transfer" "channel-0" earlier ∧
        s'.contents.Logs "transfer" "channel-0"
          (earlier ++ Dispatch.packetsOn "transfer" "channel-0" made) := by
  have known : (Config.development.initialStore.toOption.any fun s =>
        let made := (Config.developerEscrows s).2
        decide ((10 : Amount) ≤ s.contents.balance Config.developer "abridge") &&
        ((Ledger.channel? "transfer" "channel-0").perform s).1.toOption ==
          some (some ⟨"transfer", "channel-0"⟩) &&
        ((Ledger.transfer (Config.developerTransfer "channel-0")).run s .unbounded
          ).result.toOption == some 1 &&
        ((Ledger.transfer Config.developerOverdraft).run s .unbounded).result.toOption == none &&
        (s.contents.balance (.escrow "transfer" "channel-0") "abridge").toNat == 0 &&
        Packet.total "abridge" (Dispatch.packetsOn "transfer" "channel-0" made) == 15 &&
        decide ((made.filter (·.isOn "transfer" "channel-0")).length < UInt64.size)) = true := by
    decide +kernel
  obtain ⟨s, started, known⟩ := exists_of_any_toOption known
  simp only [Bool.and_eq_true, beq_iff_eq, toOption_eq_some, toOption_eq_none,
    decide_eq_true_eq] at known
  obtain ⟨⟨⟨⟨⟨⟨enough, opened⟩, sent⟩, e, failed⟩, nothing⟩, told⟩, few⟩ := known
  obtain ⟨one, run⟩ := transfers_backed (.initialStore started)
    (Dispatched.empty.aside (Config.changedWithin_of_initialStore started))
  have stranger := Config.developer_ne_escrow
  have checked : (Config.developerTransfer "channel-0").check = .ok () := by decide +kernel
  obtain ⟨backed, -, succeeds⟩ := one (Config.developerTransfer "channel-0") .unbounded rfl
    (Nat.zero_le _) stranger
  obtain ⟨recorded, released, fresh⟩ := backed 1 sent
  have unchanged := (one Config.developerOverdraft .unbounded rfl (Nat.zero_le _) stranger).2.1 e
    failed Config.fits_receiver
  have escrows := Config.escrowing_developerEscrows s
  rcases ended : Config.developerEscrows s with ⟨s', made⟩
  rw [ended] at escrows told few
  obtain ⟨gained, logs⟩ := run "transfer" "channel-0" "abridge" rfl _ _ escrows
  rw [nothing, told] at gained
  have succeeded := succeeds _ checked Config.fits_receiver opened enough
  exact ⟨s, s', made, started, ended, checked, enough, ⟨_, opened⟩, succeeded, sent, recorded, released,
    fresh (by decide), ⟨e, failed⟩, unchanged, escrows, nothing, gained, logs few⟩

namespace Config

/-- The developer sends ten to someone whose name is longer than any text of a packet. -/
def developerMisdirected : TransferMessage :=
  { developerTransfer "channel-0" with receiver := .ofList (.replicate (2 ^ 32) 'a') }

theorem check_developerMisdirected : developerMisdirected.check = .ok () := by
  have checked := TransferMessage.check_eq_ok.mp
    (show (developerTransfer "channel-0").check = .ok () by decide +kernel)
  have named : Text.isBlank developerMisdirected.receiver = false :=
    Text.isBlank_replicate (by decide) 'a'
  exact TransferMessage.check_eq_ok.mpr ⟨checked.1, checked.2.1, checked.2.2.1, named,
    checked.2.2.2.2⟩

/-- The account of the first channel sends four over the second one. -/
def escrowTransfer : TransferMessage :=
  { developerTransfer "channel-1" with
    sender := .escrow "transfer" "channel-0", token := ⟨"abridge", 4⟩ }

/-- A second channel is opened. -/
def twoChannels (s : Store) : Store :=
  ((Ledger.openChannel "transfer" "channel-1" ⟨"transfer", "channel-9"⟩).run s .unbounded).store

/-- The developer sends ten over the first of two channels. -/
def deposited (s : Store) : Outcome LedgerError UInt64 :=
  (Ledger.transfer (developerTransfer "channel-0")).run (twoChannels s) .unbounded

/-- Then the account of that channel sends four of them over the other. -/
def withdrawn (s : Store) : Outcome LedgerError UInt64 :=
  (Ledger.transfer escrowTransfer).run (deposited s).store .unbounded

theorem logs_withdrawn {s : Store} (started : development.initialStore = .ok s)
    (first : (deposited s).result = .ok 1) (second : (withdrawn s).result = .ok 1) :
    (twoChannels s).contents.Logs "transfer" "channel-0" [] ∧
      (withdrawn s).store.contents.Logs "transfer" "channel-0"
        [(developerTransfer "channel-0").packet 1] := by
  have funded := Dispatched.empty.aside (changedWithin_of_initialStore started)
  have opened : Dispatched (twoChannels s) [] := funded.openChannel _ _ _
  have sent : Dispatched (deposited s).store
      (Dispatch.ofResult (developerTransfer "channel-0") (deposited s).result) :=
    opened.transfer _ .unbounded rfl (Nat.zero_le _)
  have spent : Dispatched (withdrawn s).store
      (Dispatch.ofResult (developerTransfer "channel-0") (deposited s).result ++
        Dispatch.ofResult escrowTransfer (withdrawn s).result) :=
    sent.transfer _ .unbounded rfl (Nat.zero_le _)
  rw [first, second] at spent
  exact ⟨opened.tells "transfer" "channel-0" (by decide),
    spent.tells "transfer" "channel-0" (by decide)⟩

end Config

/-- What a transfer has taken from its sender is gone although it has failed, if the name of the receiver
is of 2³² bytes. And the account of a channel has less than the packets of the channel tell of once it
has sent something itself, which it may over another channel. -/
theorem Reached.transfers_unbacked :
    ∃ s, Config.development.initialStore = .ok s ∧ Reached s ∧
      (let message := Config.developerMisdirected
        let done := (Ledger.transfer message).run s .unbounded
        message.sender ≠ .escrow message.port message.channel ∧
        (∃ e, done.result = .error e) ∧
        (s.contents.balance (.escrow "transfer" "channel-0") "abridge").toNat = 0 ∧
        (done.store.contents.balance (.escrow "transfer" "channel-0") "abridge").toNat = 10 ∧
        done.store.contents.Logs "transfer" "channel-0" []) ∧
      Reached (Config.twoChannels s) ∧
      Config.developer ≠ .escrow "transfer" "channel-0" ∧
      Config.escrowTransfer.sender ≠ .escrow "transfer" "channel-1" ∧
      (Config.deposited s).result = .ok 1 ∧ (Config.withdrawn s).result = .ok 1 ∧
      ((Config.twoChannels s).contents.balance (.escrow "transfer" "channel-0") "abridge").toNat = 0 ∧
      ((Config.withdrawn s).store.contents.balance (.escrow "transfer" "channel-0") "abridge"
        ).toNat = 6 ∧
      (Config.twoChannels s).contents.Logs "transfer" "channel-0" [] ∧
      (Config.withdrawn s).store.contents.Logs "transfer" "channel-0"
        [(Config.developerTransfer "channel-0").packet 1] ∧
      Packet.total "abridge" [(Config.developerTransfer "channel-0").packet 1] = 10 := by
  have known : (Config.development.initialStore.toOption.any fun s =>
        decide ((10 : Amount) ≤ s.contents.balance Config.developer "abridge") &&
        ((Ledger.channel? "transfer" "channel-0").perform s).1.toOption ==
          some (some ⟨"transfer", "channel-0"⟩) &&
        (s.contents.balance (.escrow "transfer" "channel-0") "abridge").toNat == 0 &&
        (Config.deposited s).result.toOption == some 1 &&
        (Config.withdrawn s).result.toOption == some 1 &&
        ((Config.twoChannels s).contents.balance (.escrow "transfer" "channel-0") "abridge"
          ).toNat == 0 &&
        ((Config.withdrawn s).store.contents.balance (.escrow "transfer" "channel-0") "abridge"
          ).toNat == 6) = true := by decide +kernel
  obtain ⟨s, started, known⟩ := exists_of_any_toOption known
  simp only [Bool.and_eq_true, beq_iff_eq, toOption_eq_some, decide_eq_true_eq] at known
  obtain ⟨⟨⟨⟨⟨⟨enough, opened⟩, nothing⟩, sent⟩, spent⟩, before⟩, after⟩ := known
  have reached : Reached s := .initialStore started
  have quiet : s.contents.Logs "transfer" "channel-0" [] :=
    (logs_empty _ _).of_changedWithin (Config.changedWithin_of_initialStore started)
  have stranger : Config.developerMisdirected.sender ≠ .escrow "transfer" "channel-0" :=
    Config.developer_ne_escrow
  obtain ⟨failed, released, aside⟩ := Ledger.released_of_unfit reached
    Config.check_developerMisdirected (Text.not_fits_replicate (by decide) 'a') opened enough
    stranger (rfl : Meter.unbounded.limit = Meter.cap) (Nat.zero_le _)
  have locked : (((Ledger.transfer Config.developerMisdirected).run s .unbounded
      ).store.contents.balance (.escrow "transfer" "channel-0") "abridge").toNat =
        (s.contents.balance (.escrow "transfer" "channel-0") "abridge").toNat + 10 :=
    (released.native rfl).1
  rw [nothing] at locked
  exact ⟨s, started, reached, ⟨stranger, ⟨_, failed⟩, nothing, locked, quiet.of_changedWithin aside⟩,
    .operation reached (.openChannel ..) _ rfl (Nat.zero_le _), Config.developer_ne_escrow,
    by decide +kernel, sent, spent, before, after,
    (Config.logs_withdrawn started sent spent).1, (Config.logs_withdrawn started sent spent).2, rfl⟩

end LedgerBridge
