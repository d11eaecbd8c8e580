import LedgerBridge.Proofs.Dispatches

/-! The packets of a channel over whole histories. Whatever is sent over other channels, whatever fails
and whatever else happens, they are those of the transfers that were made over it: none is missing, none
is changed, and their numbers have no gap. -/
namespace LedgerBridge

open Metered

/-- The stores that a ledger can get to from the empty one, with the transfers that were made on the way.
Transfers are made directly on a meter that never runs out, or in calls with whatever gas they are
given; in between, anything may happen that touches no packet and no count of packets. -/
inductive Dispatched : Store → List Dispatch → Prop
  | empty : Dispatched ∅ []
  | aside {s s' : Store} {sent : List Dispatch} (before : Dispatched s sent)
    (change : s.contents.ChangedWithin Key.IsLocal s'.contents) : Dispatched s' sent
  | transfer {s : Store} {sent : List Dispatch} (before : Dispatched s sent) (m : TransferMessage)
    (meter : Meter) (limit : meter.limit = Meter.cap) (used : meter.used ≤ Meter.cap) :
    Dispatched ((Ledger.transfer m).run s meter).store
      (sent ++ Dispatch.ofResult m ((Ledger.transfer m).run s meter).result)
  | call {s : Store} {sent : List Dispatch} (before : Dispatched s sent) (q : Request) :
    Dispatched (q.call s).store (sent ++ q.dispatches s)

namespace Ledger

open Key

/-- What keepers offer leaves packets alone unless it is a transfer. -/
theorem KeeperOperation.isLocal_or_transfer {x : Ledger α} (h : KeeperOperation x) :
    ChangesWithin Key.IsLocal x ∨
      ∃ m, ∀ s meter, (x.run s meter).store = ((Ledger.transfer m).run s meter).store := by
  cases h with
  | transfer m => exact .inr ⟨m, fun _ _ => rfl⟩
  | balance => exact .inl (reads_balance _ _).changesWithin
  | supply => exact .inl (reads_supply _).changesWithin
  | balances => exact .inl (reads_balances _).changesWithin
  | metadata? => exact .inl (reads_read? _ _).changesWithin
  | grant? => exact .inl (reads_grant? _ _ _ _).changesWithin
  | pairOf? => exact .inl (reads_read? _ _).changesWithin
  | pairAt? => exact .inl (reads_pairAt? _).changesWithin
  | pairs => exact .inl (reads_readAll _ _).changesWithin
  | bondDenom => exact .inl reads_bondDenom.changesWithin
  | channel? => exact .inl (reads_read? _ _).changesWithin
  | nextSequence => exact .inl (reads_nextSequence _ _).changesWithin
  | packet? => exact .inl (reads_read? _ _).changesWithin
  | packets => exact .inl (reads_readAll _ _).changesWithin
  | endow => exact .inl (changesWithin_endow (isLocal_balance _ _) (isLocal_supply _))
  | send => exact .inl (changesWithin_send fun _ _ => ⟨isLocal_balance _ _, isLocal_balance _ _⟩)
  | mint => exact .inl (changesWithin_mint fun _ _ => ⟨isLocal_balance _ _, isLocal_supply _⟩)
  | burn => exact .inl (changesWithin_burn fun _ _ => ⟨isLocal_balance _ _, isLocal_supply _⟩)
  | sendFromModule =>
    exact .inl (changesWithin_send fun _ _ => ⟨isLocal_balance _ _, isLocal_balance _ _⟩)
  | sendToModule =>
    exact .inl (changesWithin_send fun _ _ => ⟨isLocal_balance _ _, isLocal_balance _ _⟩)
  | setMetadata => exact .inl (changesWithin_setMetadata ⟨nofun, nofun⟩)
  | saveGrant => exact .inl (changesWithin_saveGrant ⟨nofun, nofun⟩)
  | removeGrant => exact .inl (changesWithin_removeGrant ⟨nofun, nofun⟩)
  | registerPair => exact .inl (changesWithin_registerPair ⟨nofun, nofun⟩ ⟨nofun, nofun⟩)
  | setBondDenom => exact .inl (changesWithin_setBondDenom ⟨nofun, nofun⟩ _)
  | openChannel => exact .inl (changesWithin_openChannel ⟨nofun, nofun⟩ _)

end Ledger

namespace Dispatched

variable {s : Store} {sent : List Dispatch}

/-- An operation may come in between that leaves packets alone. -/
theorem operation {x : Ledger α} (h : Dispatched s sent) (aside : ChangesWithin Key.IsLocal x)
    (m : Meter) (limit : m.limit = Meter.cap) (used : m.used ≤ Meter.cap) :
    Dispatched (x.run s m).store sent := by
  apply h.aside
  rw [run_of_limit_eq_cap x s m limit used]
  have changed := aside s.contents
  rw [← perform_view x s] at changed
  exact changed

theorem openChannel (h : Dispatched s sent) (port channel : String) (far : ChannelEnd) :
    Dispatched ((Ledger.openChannel port channel far).run s .unbounded).store sent :=
  h.operation (Ledger.changesWithin_openChannel ⟨nofun, nofun⟩ far) .unbounded rfl
    (Nat.zero_le _)

/-- Every store that can be reached has such a history. -/
theorem exists_of_reached (h : Reached s) : ∃ sent, Dispatched s sent := by
  induction h with
  | empty => exact ⟨[], .empty⟩
  | operation before offered m limit used ih =>
    obtain ⟨sent, dispatched⟩ := ih
    rcases offered.isLocal_or_transfer with aside | ⟨message, same⟩
    · exact ⟨sent, dispatched.operation aside m limit used⟩
    · rw [same]
      exact ⟨_, dispatched.transfer message m limit used⟩
  | call before p time f origin readOnly ih =>
    obtain ⟨sent, dispatched⟩ := ih
    exact ⟨_, dispatched.call ⟨p, time, f, origin, readOnly⟩⟩

theorem tells (h : Dispatched s sent) (port channel : String) :
    s.contents.Tells port channel sent := by
  induction h with
  | empty => exact fun _ => Contents.logs_empty port channel
  | aside _ change ih => exact fun few => (ih few).of_changedWithin change
  | transfer _ m meter limit used ih => exact ih.sends (Ledger.sends_transfer m _ meter limit used)
  | call _ q ih => exact ih.sends (q.sends_call _)

/-- The transfers that were made over a channel, directly or in swaps, have the numbers from 1 on in
order. The number after the last is the next one, and each of their packets is there as it was recorded,
and no other. A listing of the channel goes through just these packets. Names with a slash belong to no
channel, and only these are left out of the listing. -/
theorem packets_eq_sent (h : Dispatched s sent) (port channel : String)
    (few : (sent.filter (·.isOn port channel)).length < UInt64.size - 1) :
    let mine := sent.filter (·.isOn port channel)
    mine.map (·.number.toNat) = List.range' 1 mine.length ∧
    ((Ledger.nextSequence port channel).perform s).1 = .ok (.ofNat (mine.length + 1)) ∧
    (∀ n : UInt64, ((Ledger.packet? port channel n).perform s).1 =
      .ok (if n = 0 then none else mine[n.toNat - 1]?.map Dispatch.packet)) ∧
    (Identifier.IsPlain port → Identifier.IsPlain channel →
      ((Ledger.packets port channel).perform s).1 = .ok (mine.map Dispatch.packet)) ∧
    ∀ (q : Request) (o : Outpost) (out : CallOutput), q.precompile = .outpost o →
      (q.call s).result = .ok out → ∃ d, q.dispatches s = [d] := by
  intro mine
  have logs : s.contents.Logs port channel (mine.map Dispatch.packet) :=
    h.tells port channel (by omega)
  refine ⟨?numbers, ?next, fun n => ?packet, fun plainPort plainChannel => ?listing,
    fun q o out swaps ended => ?swap⟩
  case numbers => simpa [List.map_map, Function.comp_def] using logs.numbered
  case next =>
    have next := perform_of_gives logs.gives_nextSequence
    simpa using next
  case packet =>
    have found := perform_of_gives (logs.gives_packet? n)
    rwa [List.getElem?_map] at found
  case listing => exact perform_of_gives (logs.gives_packets plainPort plainChannel)
  case swap =>
    obtain ⟨d, made, -⟩ := Request.sends_of_outpost swaps ended
    exact ⟨d, made⟩

end Dispatched

namespace Config

/-- The developer sends ten. -/
def developerTransfer (channel : String) : TransferMessage where
  port := "transfer"
  channel := channel
  token := ⟨"abridge", 10⟩
  sender := developer
  receiver := "osmo1receiver"
  timeoutHeight := ⟨1, 1⟩
  timeoutTime := 0
  memo := ""

/-- The developer swaps five. -/
def developerSwap (gas : Nat) : Request where
  precompile := .outpost ⟨development.outpost, development.chain.evmDenom⟩
  time := 1700000000
  frame := ⟨developer, Abi.selector "swap(address,address,address,uint256,string)" ++
    Abi.encode [.address developer, .address (.ofToken "abridge"),
      .address (.ofToken (Denom.voucher "transfer" "channel-0" "uosmo")), .uint 5,
      .text "osmo1receiver"], gas⟩
  origin := developer
  readOnly := false

/-- What the swap sends out. -/
def developerSwapMessage : TransferMessage :=
  Outpost.message ⟨development.outpost, development.chain.evmDenom⟩
    ⟨"abridge", Denom.voucher "transfer" "channel-0" "uosmo", 5, "osmo1receiver", 5, 10⟩ developer

/-- What is sent out in the history of the developer. -/
def developerDispatches : List Dispatch :=
  [⟨developerTransfer "channel-0", 1⟩, ⟨developerTransfer "channel-1", 1⟩, ⟨developerSwapMessage, 2⟩]

/-- A second channel is opened, both are sent over directly, and a swap fails for lack of gas and is
made again with more. -/
def developerHistory (s : Store) : Store × List Dispatch :=
  let opened := (Ledger.openChannel "transfer" "channel-1" ⟨"transfer", "channel-9"⟩).run s .unbounded
  let first := (Ledger.transfer (developerTransfer "channel-0")).run opened.store .unbounded
  let second := (Ledger.transfer (developerTransfer "channel-1")).run first.store .unbounded
  let refused := (developerSwap 1000).call second.store
  let swapped := (developerSwap 3000000).call refused.store
  (swapped.store, Dispatch.ofResult (developerTransfer "channel-0") first.result ++
    Dispatch.ofResult (developerTransfer "channel-1") second.result ++
    (developerSwap 1000).dispatches second.store ++ (developerSwap 3000000).dispatches refused.store)

theorem dispatched_developerHistory {s : Store} (started : development.initialStore = .ok s) :
    Dispatched (developerHistory s).1 (developerHistory s).2 := by
  have funded := Dispatched.empty.aside (changedWithin_of_initialStore started)
  have opened := funded.openChannel "transfer" "channel-1" ⟨"transfer", "channel-9"⟩
  have first := opened.transfer (developerTransfer "channel-0") .unbounded rfl (Nat.zero_le _)
  have second := first.transfer (developerTransfer "channel-1") .unbounded rfl (Nat.zero_le _)
  have swapped := (second.call (developerSwap 1000)).call (developerSwap 3000000)
  rw [List.nil_append] at swapped
  simpa only [developerHistory] using swapped

end Config

/-- After one transfer and one swap that succeeded there are two packets, whatever was sent over another
channel and whatever failed. -/
theorem Dispatched.packets_eq_sent_of_developer :
    ∃ s s' sent, Config.development.initialStore = .ok s ∧ Config.developerHistory s = (s', sent) ∧
      Dispatched s' sent ∧ sent = Config.developerDispatches ∧
      (sent.filter (·.isOn "transfer" "channel-0")).length < UInt64.size - 1 ∧
      Identifier.IsPlain "transfer" ∧ Identifier.IsPlain "channel-0" ∧
      ((Ledger.nextSequence "transfer" "channel-0").perform s').1 = .ok 3 ∧
      ((Ledger.packet? "transfer" "channel-0" 2).perform s').1 =
        .ok (some (Config.developerSwapMessage.packet 2)) ∧
      ((Ledger.packet? "transfer" "channel-0" 3).perform s').1 = .ok none ∧
      ((Ledger.packets "transfer" "channel-0").perform s').1 =
        .ok [(Config.developerTransfer "channel-0").packet 1,
          Config.developerSwapMessage.packet 2] := by
  have known : (Config.development.initialStore.toOption.any fun s =>
      (Config.developerHistory s).2 == Config.developerDispatches) = true := by decide +kernel
  obtain ⟨s, started, known⟩ := exists_of_any_toOption known
  simp only [beq_iff_eq] at known
  have dispatched := Config.dispatched_developerHistory started
  rcases ended : Config.developerHistory s with ⟨s', sent⟩
  rw [ended] at known dispatched
  subst known
  have mine : Config.developerDispatches.filter (Dispatch.isOn "transfer" "channel-0") =
      [⟨Config.developerTransfer "channel-0", 1⟩, ⟨Config.developerSwapMessage, 2⟩] := rfl
  have few : (Config.developerDispatches.filter (Dispatch.isOn "transfer" "channel-0")).length <
      UInt64.size - 1 := by
    rw [mine]
    decide
  have plainPort : Identifier.IsPlain "transfer" := by simp [Identifier.IsPlain]
  have plainChannel : Identifier.IsPlain "channel-0" := by simp [Identifier.IsPlain]
  obtain ⟨-, next, packet, packets, -⟩ := packets_eq_sent dispatched "transfer" "channel-0" few
  have second := packet 2
  have third := packet 3
  have listed := packets plainPort plainChannel
  rw [mine] at next second third listed
  exact ⟨s, s', _, started, ended, dispatched, rfl, few, plainPort, plainChannel, next, second, third,
    listed⟩

end LedgerBridge
