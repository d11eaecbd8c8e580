import LedgerBridge.Proofs.ChannelHistories
import LedgerBridge.Proofs.Supplies

/-! What a transfer does as a whole. The funds go before the packet is written, and vouchers go by way
of a module; but once the sender has paid, nothing that comes after can fail, unless the name of the
receiver is too long for a packet. But for that a transfer that fails has done nothing, and one that
succeeds has taken just what its packet tells of. -/
namespace LedgerBridge

/-- A run that starts where the property holds and fails leaves no trace. -/
def Metered.CleanFrom (property : Contents → Prop) (x : Metered ε α) : Prop :=
  ∀ v e w, property v → x.evaluate v = (.error e, w) → w = v

namespace Metered

variable {property : Contents → Prop} {x : Metered ε α} {f : α → Metered ε β}

theorem Clean.cleanFrom (h : Clean x) : CleanFrom property x := fun v e w _ => h v e w

/-- What only looks around may come first. -/
theorem Reads.bind_cleanFrom (first : Reads x)
    (rest : ∀ v a, x.Gives v a v → CleanFrom property (f a)) : CleanFrom property (x >>= f) := by
  intro v e w start failed
  rw [evaluate_bind] at failed
  split at failed
  · rename_i a u run
    cases first.eq_of_gives run
    exact rest v a run v e w start failed
  · rename_i e' u run
    cases failed
    exact first.clean v e w run

/-- What cannot fail any more may come after. -/
theorem CleanFrom.bind_gives (first : CleanFrom property x)
    (rest : ∀ v a u, property v → x.Gives v a u → ∃ b w, (f a).Gives u b w) :
    CleanFrom property (x >>= f) := by
  intro v e w start failed
  rw [evaluate_bind] at failed
  split at failed
  · rename_i a u run
    obtain ⟨b, u', ends⟩ := rest v a u start run
    rw [ends] at failed
    cases failed
  · rename_i e' u run
    cases failed
    exact first v e w start run

theorem CleanFrom.mono {narrower : Contents → Prop} (h : CleanFrom property x)
    (within : ∀ v, narrower v → property v) : CleanFrom narrower x :=
  fun v e w start => h v e w (within v start)

end Metered

open Metered Contents

namespace Ledger

variable {v u : Contents} {m : TransferMessage}

/-- Sending a coin fails before anything is paid, or not at all. -/
theorem cleanFrom_send (sender recipient : Address) (coin : Coin) :
    CleanFrom Conserved (send sender recipient [coin]) := by
  have held : Reads ([coin].forM fun coin => discard (funds sender coin) : Ledger Unit) :=
    ((reads_funds sender coin).bind fun _ => reads_pure _).bind fun _ => reads_pure _
  have paid : CleanFrom Conserved (do
      debit sender coin
      credit recipient coin : Ledger Unit) := by
    refine (clean_debit sender coin).cleanFrom.bind_gives fun v _ u conserved paid => ?_
    obtain ⟨w, received⟩ := credit_of_debit conserved paid recipient
    exact ⟨(), w, received⟩
  refine (reads_liftM _).bind_cleanFrom fun _ _ _ => held.bind_cleanFrom fun _ _ _ => ?_
  exact paid.bind_gives fun _ _ u _ _ => ⟨(), u, gives_pure.mpr ⟨rfl, rfl⟩⟩

/-- A module can burn what it has. -/
theorem exists_burn {module : String} {coin : Coin} (conserved : v.Conserved)
    (checked : checkCoins [coin] = .ok ())
    (enough : coin.amount ≤ v.balance (.ofModule module) coin.denom) :
    ∃ w, (burn module [coin]).Gives v () w := by
  have destroyed : (debit (.ofModule module) coin).Gives v () _ :=
    gives_debit.mpr ⟨conserved.balance _ _, enough, rfl⟩
  have readable := (legible_of_debit destroyed conserved.toLegible).1.supply coin.denom
  simp only [burn, gives_bind, gives_liftM, gives_forM_cons, gives_forM_nil, gives_supply,
    gives_setSupply]
  exact ⟨_, (), _, ⟨checked, rfl⟩, _, ⟨(), _, destroyed, _, _, ⟨readable, rfl, rfl⟩, rfl⟩, rfl⟩

/-- A module that was just sent a coin has it. -/
theorem held_of_sendToModule {sender : Address} {module : String} {coin : Coin} {done : Unit}
    (h : (sendToModule sender module [coin]).Gives v done u) :
    checkCoins [coin] = .ok () ∧ coin.amount ≤ u.balance (.ofModule module) coin.denom := by
  have moved := moved_of_send h
  obtain ⟨_, _, checked, -⟩ := gives_bind.mp h
  refine ⟨(gives_liftM.mp checked).1, ?_⟩
  have covered := moved.covered sender rfl
  have balance := moved.balance (.ofModule module) coin.denom
  rw [BitVec.le_def]
  by_cases own : sender = .ofModule module
  · subst own
    rwa [Nat.add_right_cancel balance]
  · simp only [Coin.share, Option.some.injEq, own, false_and, if_false, and_self, if_true] at balance
    omega

/-- A coin that the sender has can be sent to anyone. -/
theorem exists_send {sender : Address} {coin : Coin} (conserved : v.Conserved)
    (checked : checkCoins [coin] = .ok ()) (enough : coin.amount ≤ v.balance sender coin.denom)
    (recipient : Address) : ∃ w, (send sender recipient [coin]).Gives v () w := by
  have readable := conserved.balance sender coin.denom
  have paid : (debit sender coin).Gives v () _ := gives_debit.mpr ⟨readable, enough, rfl⟩
  obtain ⟨w, received⟩ := credit_of_debit conserved paid recipient
  have held : (funds sender coin).Gives v _ v := gives_funds.mpr ⟨readable, enough, rfl, rfl⟩
  simp only [send, gives_bind, gives_liftM, gives_forM_cons, gives_forM_nil, gives_discard]
  exact ⟨w, (), v, ⟨checked, rfl⟩, (), v, ⟨v, ⟨_, held⟩, rfl⟩, w, ⟨(), _, paid, received⟩, rfl⟩

theorem exists_release (conserved : v.Conserved) (checked : checkCoins [m.token] = .ok ())
    (enough : m.token.amount ≤ v.balance m.sender m.token.denom) :
    ∃ w, (release m).Gives v () w := by
  simp only [release]
  split
  · exact exists_send conserved checked enough _
  · obtain ⟨u, sent⟩ := exists_send conserved checked enough (.ofModule transferModule)
    have after : u.Conserved := (keeps_send _ _ _).of_gives sent conserved
    obtain ⟨w, burned⟩ := exists_burn after checked (held_of_sendToModule sent).2
    exact ⟨w, gives_bind.mpr ⟨(), u, sent, burned⟩⟩

theorem cleanFrom_release (m : TransferMessage) : CleanFrom Conserved (release m) := by
  simp only [release]
  split
  · exact cleanFrom_send _ _ _
  · refine (cleanFrom_send _ _ _).bind_gives fun v _ u conserved sent => ?_
    obtain ⟨checked, held⟩ := held_of_sendToModule sent
    have after : u.Conserved := (keeps_send _ _ _).of_gives sent conserved
    obtain ⟨w, burned⟩ := exists_burn after checked held
    exact ⟨(), w, burned⟩

end Ledger

/-- A text of few characters has few bytes. -/
theorem Bytes.length_ofString_le (s : String) : (ofString s).length ≤ 4 * s.toList.length := by
  rw [ofString_eq_flatMap, List.length_flatMap]
  have each : ∀ n ∈ s.toList.map fun c => (String.utf8EncodeChar c).length, n ≤ 4 := by
    intro n member
    obtain ⟨c, -, rfl⟩ := List.mem_map.mp member
    rw [String.length_utf8EncodeChar]
    exact Char.utf8Size_le_four c
  have bound := List.sum_le_card_nsmul _ 4 each
  rw [List.length_map, Nat.nsmul_eq_mul, Nat.mul_comm] at bound
  exact bound

/-- Texts that are checked for their size fit. -/
theorem Text.fits_of_utf8ByteSize_le {s : String} (limit : Nat) (small : s.utf8ByteSize ≤ limit)
    (bound : limit < Bytes.capacity 4) : Text.Fits s := by
  have size : (Bytes.ofString s).length = s.utf8ByteSize := rfl
  exact Nat.lt_of_le_of_lt (size ▸ small) bound

/-- A text of as many characters as its length cannot count does not fit. -/
theorem Text.not_fits_replicate {n : Nat} (long : Bytes.capacity 4 ≤ n) (c : Char) :
    ¬ Text.Fits (.ofList (.replicate n c)) := by
  have size : n ≤ (Bytes.ofString (.ofList (.replicate n c))).length := by
    rw [Bytes.ofString_eq_flatMap, String.toList_ofList, List.length_flatMap, List.map_replicate,
      List.sum_replicate, String.length_utf8EncodeChar]
    exact Nat.le_mul_of_pos_right n c.utf8Size_pos
  exact Nat.not_lt.mpr (long.trans size)

theorem Text.isBlank_replicate {n : Nat} (some : n ≠ 0) (c : Char) :
    Text.isBlank (.ofList (.replicate n c)) = Text.isBlankChar c := by
  simp [isBlank, some]

theorem Identifier.fits_of_check {kind name : String} (h : check kind name = .ok ()) :
    Text.Fits name := by
  simp only [check] at h
  split at h
  · cases h
  · rename_i sized
    exact Text.fits_of_utf8ByteSize_le 64 (by omega) (by decide)

theorem Denom.fits_of_check {denom : String} (h : check denom = .ok ()) : Text.Fits denom := by
  simp only [check] at h
  split at h
  · cases h
  · rename_i sized
    exact Text.fits_of_utf8ByteSize_le 128 (by omega) (by decide)

theorem Address.fits_text (a : Address) : Text.Fits a.text := by
  have digits : a.text.toList.length = 42 := by
    simp [text, Hex.encodeMarked, Hex.encodeWith, List.length_flatMap, a.length_eq]
  have bound := Bytes.length_ofString_le a.text
  rw [digits] at bound
  exact Nat.lt_of_le_of_lt bound (by decide)

theorem Coin.checkPositive_eq_ok {coin : Coin} :
    coin.checkPositive = .ok () ↔ Denom.check coin.denom = .ok () ∧ 0 < coin.amount.toNat := by
  have isZero : (0 : Amount).toNat = 0 := rfl
  simp only [checkPositive, bind_eq_ok, mapError_eq_ok, Coin.check, isPositive, decide_eq_true_eq,
    BitVec.lt_def, isZero]
  by_cases positive : 0 < coin.amount.toNat
  · simp only [positive, and_true, if_true]
    exact Unique.exists_iff
  · simp [positive]

namespace TransferMessage

variable {m : TransferMessage}

theorem check_eq_ok : m.check = .ok () ↔
    (Identifier.check "port" m.port = .ok () ∧ Identifier.check "channel" m.channel = .ok ()) ∧
      (Denom.check m.token.denom = .ok () ∧ 0 < m.token.amount.toNat) ∧ m.sender ≠ .zero ∧
      Text.isBlank m.receiver = false ∧ m.memo.utf8ByteSize ≤ memoLimit ∧
      (m.timeoutHeight.isZero && decide (m.timeoutTime = 0)) = false := by
  have ends {e : Except LedgerError Unit} : (∃ x, e = .ok x) ↔ e = .ok () := Unique.exists_iff
  rw [← Coin.checkPositive_eq_ok, ← Nat.not_lt]
  simp only [check, bind_eq_ok]
  by_cases missing : m.sender = .zero
  · simp [missing]
  · by_cases long : memoLimit < m.memo.utf8ByteSize
    · cases Text.isBlank m.receiver <;> simp [missing, long]
    · cases Text.isBlank m.receiver <;>
        cases m.timeoutHeight.isZero && decide (m.timeoutTime = 0) <;>
          simp [missing, long, and_assoc, ends]

theorem parts_of_check (h : m.check = .ok ()) :
    Identifier.check "port" m.port = .ok () ∧ Identifier.check "channel" m.channel = .ok () ∧
      m.token.check = .ok () ∧ m.memo.utf8ByteSize ≤ memoLimit := by
  obtain ⟨⟨port, channel⟩, ⟨denom, -⟩, -, -, memo, -⟩ := check_eq_ok.mp h
  exact ⟨port, channel, denom, memo⟩

/-- All texts of the packet but the name of the receiver are checked for their size, or made here. -/
theorem fits_packet (h : m.check = .ok ()) (receiver : Text.Fits m.receiver) (n : UInt64) :
    (m.packet n).Fits := by
  obtain ⟨port, channel, denom, memo⟩ := parts_of_check h
  exact ⟨Identifier.fits_of_check port, Identifier.fits_of_check channel,
    Denom.fits_of_check denom, m.sender.fits_text, receiver,
    Text.fits_of_utf8ByteSize_le memoLimit memo (by decide)⟩

end TransferMessage

namespace Contents

variable {v w : Contents} {port channel : String}

/-- The count of packets can be read after what leaves it alone. -/
theorem Readable.of_changedWithin (h : v.Readable .u64 (.sequence port channel))
    (change : v.ChangedWithin Key.IsLocal w) : w.Readable .u64 (.sequence port channel) := by
  have same : w.get? (Key.sequence port channel).bytes = v.get? (Key.sequence port channel).bytes :=
    change.get?_eq fun other aside => Key.bytes_ne_of_kind_ne aside.1
  simpa only [Readable, same] using h

theorem Sends.readable_sequence {sent : List Dispatch} (sends : v.Sends sent w)
    (h : v.Readable .u64 (.sequence port channel)) : w.Readable .u64 (.sequence port channel) := by
  cases sends with
  | nothing change => exact h.of_changedWithin change
  | @packet u w m n checked before next fits after =>
    refine Readable.of_changedWithin ?_ after
    refine readable_put ?_ (readable_put_of_kind_ne (by simp) (h.of_changedWithin before))
    rintro _ ⟨⟩
    exact ⟨n + 1, Codec.lawful_u64.decodeAll_encode trivial⟩

end Contents

/-- However many transfers were made over a channel, their count can be read. -/
theorem Dispatched.readable_sequence {s : Store} {sent : List Dispatch} (h : Dispatched s sent)
    (port channel : String) : s.contents.Readable .u64 (.sequence port channel) := by
  induction h with
  | empty => nofun
  | aside _ change ih => exact ih.of_changedWithin change
  | transfer _ m meter limit used ih =>
    exact (Ledger.sends_transfer m _ meter limit used).readable_sequence ih
  | call _ q ih => exact (q.sends_call _).readable_sequence ih

namespace Ledger

variable {v u : Contents} {m : TransferMessage}

/-- A packet that fits can be queued where the count of packets can be read. -/
theorem exists_queue (counted : u.Readable .u64 (.sequence m.port m.channel))
    (packet : ∀ n, (m.packet n).Fits) :
    ∃ n w, (do
      let sequence ← nextSequence m.port m.channel
      write Packet.codec (.packet m.port m.channel sequence) (m.packet sequence)
      write .u64 (.sequence m.port m.channel) (sequence + 1)
      return sequence : Ledger UInt64).Gives u n w := by
  simp only [nextSequence, gives_bind, gives_read?, gives_write, gives_pure]
  exact ⟨_, _, _, _, ⟨_, _, ⟨counted, rfl, rfl⟩, rfl, rfl⟩, (), _,
    ⟨(Packet.lawful_codec.writable_iff _).mpr (packet _), rfl⟩, (), _, ⟨rfl, rfl⟩, rfl, rfl⟩

/-- A transfer whose receiver fits into a packet fails before anything is changed, or not at all. -/
theorem cleanFrom_transfer (fits : Text.Fits m.receiver) :
    CleanFrom (fun v => v.Conserved ∧ v.Readable .u64 (.sequence m.port m.channel))
      (transfer m) := by
  refine (reads_liftM _).bind_cleanFrom fun v _ checked => ?_
  have packet := TransferMessage.fits_packet (gives_liftM.mp checked).1 fits
  refine (reads_read? _ _).bind_cleanFrom fun _ far _ => ?_
  split
  · exact (reads_fail _).clean.cleanFrom
  · refine ((cleanFrom_release m).mono fun _ => And.left).bind_gives fun v _ u start released => ?_
    have counted : u.Readable .u64 (.sequence m.port m.channel) :=
      start.2.of_changedWithin ((isLocal_release m).of_gives released)
    exact exists_queue counted packet

/-- Once a transfer is checked, what the sender has can leave, and the count of packets is as it was. -/
theorem exists_paid (conserved : v.Conserved)
    (counted : v.Readable .u64 (.sequence m.port m.channel)) (checked : m.check = .ok ())
    (enough : m.token.amount ≤ v.balance m.sender m.token.denom) :
    ∃ u, (release m).Gives v () u ∧ u.Readable .u64 (.sequence m.port m.channel) := by
  have coin : checkCoins [m.token] = .ok () := by
    simp [checkCoins, require, (TransferMessage.parts_of_check checked).2.2.1]
  obtain ⟨u, released⟩ := exists_release conserved coin enough
  exact ⟨u, released, counted.of_changedWithin ((isLocal_release m).of_gives released)⟩

/-- What the sender has can be sent over a channel that is open. -/
theorem exists_transfer {far : ChannelEnd} (conserved : v.Conserved)
    (counted : v.Readable .u64 (.sequence m.port m.channel)) (checked : m.check = .ok ())
    (fits : Text.Fits m.receiver) (opened : (channel? m.port m.channel).Gives v (some far) v)
    (enough : m.token.amount ≤ v.balance m.sender m.token.denom) :
    ∃ n w, (transfer m).Gives v n w := by
  obtain ⟨u, released, counted'⟩ := exists_paid conserved counted checked enough
  obtain ⟨n, w, queued⟩ := exists_queue counted' (TransferMessage.fits_packet checked fits)
  refine ⟨n, w, gives_bind.mpr ⟨(), v, gives_liftM.mpr ⟨checked, rfl⟩, ?_⟩⟩
  exact gives_bind.mpr ⟨_, v, opened, gives_bind.mpr ⟨(), u, released, queued⟩⟩

/-- A receiver that fits into no packet is found out only when the funds have left. -/
theorem evaluate_transfer_of_unfit {far : ChannelEnd} (conserved : v.Conserved)
    (counted : v.Readable .u64 (.sequence m.port m.channel)) (checked : m.check = .ok ())
    (unfit : ¬ Text.Fits m.receiver) (opened : (channel? m.port m.channel).Gives v (some far) v)
    (enough : m.token.amount ≤ v.balance m.sender m.token.denom) :
    ∃ u, (release m).Gives v () u ∧
      (transfer m).evaluate v = (.error (.storage .serialization "invalid data"), u) := by
  have checks : (liftM m.check : Ledger Unit).Gives v () v := gives_liftM.mpr ⟨checked, rfl⟩
  obtain ⟨u, released, counted'⟩ := exists_paid conserved counted checked enough
  obtain ⟨n, next⟩ : ∃ n, (nextSequence m.port m.channel).Gives u n u := by
    simp only [nextSequence, gives_bind, gives_read?, gives_pure]
    exact ⟨_, _, _, ⟨counted', rfl, rfl⟩, rfl, rfl⟩
  have unwritable : ¬ Packet.codec.writable (m.packet n) := by
    rw [Packet.lawful_codec.writable_iff]
    exact fun fits => unfit fits.2.2.2.2.1
  refine ⟨u, released, ?_⟩
  rw [transfer, evaluate_bind_of_gives checks, evaluate_bind_of_gives opened]
  simp only [Option.isNone_some, Bool.false_eq_true, if_false]
  rw [evaluate_bind_of_gives released, evaluate_bind_of_gives next, write, if_neg unwritable]
  rfl

end Ledger

namespace Contents

/-- The coin of a transfer has left its sender: to the account of the channel, or for good. -/
structure Released (v : Contents) (m : TransferMessage) (w : Contents) : Prop where
  sender : (w.balance m.sender m.token.denom).toNat + m.token.amount.toNat =
    (v.balance m.sender m.token.denom).toNat
  native : Denom.isVoucher m.token.denom = false →
    (w.balance (.escrow m.port m.channel) m.token.denom).toNat =
        (v.balance (.escrow m.port m.channel) m.token.denom).toNat + m.token.amount.toNat ∧
      w.supply m.token.denom = v.supply m.token.denom
  voucher : Denom.isVoucher m.token.denom = true →
    (w.supply m.token.denom).toNat + m.token.amount.toNat = (v.supply m.token.denom).toNat ∧
      ∀ owner, (w.balance owner m.token.denom).toNat ≤ (v.balance owner m.token.denom).toNat
  others : ∀ denom, denom ≠ m.token.denom →
    w.supply denom = v.supply denom ∧ ∀ owner, w.balance owner denom = v.balance owner denom

/-- One packet is recorded, and every other one is as it was. -/
structure Recorded (v : Contents) (p : Packet) (w : Contents) : Prop where
  written : w.get? (Key.packet p.port p.channel p.sequence).bytes = some (Packet.codec.encode p)
  others : ∀ key, Key.Kind.packet.head <+: key →
    key ≠ (Key.packet p.port p.channel p.sequence).bytes → w.get? key = v.get? key

variable {v w : Contents} {m : TransferMessage}

/-- What leaves over a channel is still there if it is locked, and is gone if it is a voucher. -/
theorem Conserved.supply_left {coin : Coin} {owner : Address} {port channel : String}
    (before : v.Conserved) (after : w.Conserved)
    (moved : v.Moved coin (some owner) (Denom.exit? port channel coin.denom) w) :
    (Denom.isVoucher coin.denom = false → ∀ denom, w.supply denom = v.supply denom) ∧
      (Denom.isVoucher coin.denom = true →
        (w.supply coin.denom).toNat + coin.amount.toNat = (v.supply coin.denom).toNat) := by
  constructor
  · intro native denom
    simp only [Denom.exit?, native, Bool.false_eq_true, if_false] at moved
    exact before.supply_eq_of_within after moved
  · intro voucher
    simp only [Denom.exit?, voucher, if_true] at moved
    simpa using before.supply_moved after moved coin.denom

/-- What a movement out of an account other than the channel's has taken. -/
theorem Conserved.released (before : v.Conserved) (after : w.Conserved)
    (moved : v.Moved m.token (some m.sender) (Denom.exit? m.port m.channel m.token.denom) w)
    (stranger : m.sender ≠ .escrow m.port m.channel) : v.Released m w where
  sender := by
    have change := moved.balance m.sender m.token.denom
    have elsewhere : ¬ Denom.exit? m.port m.channel m.token.denom = some m.sender := by
      simp only [Denom.exit?]
      split
      · simp
      · simpa using stranger.symm
    simpa [Coin.share, elsewhere] using change
  native native := by
    have exit : Denom.exit? m.port m.channel m.token.denom = some (.escrow m.port m.channel) := by
      simp [Denom.exit?, native]
    have supply := (before.supply_left after moved).1 native m.token.denom
    rw [exit] at moved
    have change := moved.balance (.escrow m.port m.channel) m.token.denom
    exact ⟨by simpa [Coin.share, stranger] using change, supply⟩
  voucher voucher := by
    have exit : Denom.exit? m.port m.channel m.token.denom = none := by simp [Denom.exit?, voucher]
    refine ⟨(before.supply_left after moved).2 voucher, fun owner => ?_⟩
    rw [exit] at moved
    have change := moved.balance owner m.token.denom
    simp only [Coin.share, reduceCtorEq, false_and, if_false] at change
    omega
  others denom other := by
    refine ⟨?_, fun owner => ?_⟩
    · by_contra changed
      exact other (before.denom_of_supply_ne after moved changed).symm
    · have change := moved.balance owner denom
      simp only [Coin.share, other.symm, and_false, if_false] at change
      exact BitVec.eq_of_toNat_eq change

theorem recorded_queue {n : UInt64} (before : v.ChangedWithin Key.IsLocal w) :
    v.Recorded (m.packet n) (w.queue m n) where
  written := by
    have apart : (Key.sequence m.port m.channel).bytes ≠ (Key.packet m.port m.channel n).bytes :=
      Key.bytes_ne_of_kind_ne (by simp)
    show (w.queue m n).get? (Key.packet m.port m.channel n).bytes = _
    rw [queue, Changes.get?_put, if_neg apart, Changes.get?_put, if_pos rfl]
  others key head other := by
    have other : (Key.packet m.port m.channel n).bytes ≠ key := Ne.symm other
    have apart (k : Key) (kind : k.kind ≠ .packet) : k.bytes ≠ key := by
      rintro rfl
      exact kind (Key.kind_eq_of_head_isPrefix head).symm
    rw [queue, Changes.get?_put, if_neg (apart _ (by simp)), Changes.get?_put, if_neg other]
    exact before.get?_eq fun other aside => apart other aside.2

theorem Recorded.of_changedWithin {p : Packet} {u : Contents} (h : v.Recorded p u)
    (after : u.ChangedWithin (fun key => key.kind ≠ .packet) w) : v.Recorded p w := by
  have same (key : Bytes) (head : Key.Kind.packet.head <+: key) : w.get? key = u.get? key := by
    apply after.get?_eq
    rintro other aside rfl
    exact aside (Key.kind_eq_of_head_isPrefix head).symm
  refine ⟨?_, fun key head other => (same key head).trans (h.others key head other)⟩
  have written : w.get? (Key.packet p.port p.channel p.sequence).bytes = _ :=
    after.get?_eq fun _ aside => Key.bytes_ne_of_kind_ne (by simpa using aside)
  exact written.trans h.written

/-- The number that comes next is that of no packet yet, as long as there are numbers. -/
theorem Tells.get?_packet {port channel : String} {sent : List Dispatch} {n : UInt64}
    (h : v.Tells port channel sent)
    (few : (sent.filter (·.isOn port channel)).length < UInt64.size - 1)
    (before : v.ChangedWithin Key.IsLocal w)
    (next : (Ledger.nextSequence port channel).Gives w n w) :
    v.get? (Key.packet port channel n).bytes = none := by
  have logs := h (by omega)
  have successor : n.toNat = (sent.filter (·.isOn port channel)).length + 1 := by
    rw [next.unique (logs.of_changedWithin before).gives_nextSequence, List.length_map,
      toNat_ofNat_add_one (by omega)]
  have beyond : ((sent.filter (·.isOn port channel)).map Dispatch.packet)[n.toNat - 1]? = none := by
    simp [successor]
  rw [logs.get?_packet, beyond]
  split <;> rfl

end Contents

end LedgerBridge
