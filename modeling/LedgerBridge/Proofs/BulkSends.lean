import LedgerBridge.Proofs.Histories

/-! Sends of many coins. Each coin is looked at on its own before anything is paid, but coins of one
denomination are paid out of one balance. So a send that is refused at first leaves everything as it
was, and one whose coins are covered one by one but not together stops halfway. -/
namespace LedgerBridge

namespace Coin

/-- What coins have together of a denomination. -/
def totalOf : List Coin → String → Nat
  | [], _ => 0
  | coin :: coins, denom =>
    (if coin.denom = denom then coin.amount.toNat else 0) + totalOf coins denom

variable {coins : List Coin} {coin : Coin} {denom : String}

@[simp] theorem totalOf_nil : totalOf [] denom = 0 := rfl

@[simp] theorem totalOf_cons :
    totalOf (coin :: coins) denom =
      (if coin.denom = denom then coin.amount.toNat else 0) + totalOf coins denom := rfl

@[simp] theorem totalOf_append {others : List Coin} :
    totalOf (coins ++ others) denom = totalOf coins denom + totalOf others denom := by
  induction coins with
  | nil => simp
  | cons coin rest ih => simp [ih, Nat.add_assoc]

theorem le_totalOf (member : coin ∈ coins) : coin.amount.toNat ≤ totalOf coins coin.denom := by
  induction member with
  | head => simp
  | tail _ _ ih => exact Nat.le_add_left_of_le ih

theorem totalOf_eq_zero (absent : denom ∉ coins.map (·.denom)) : totalOf coins denom = 0 := by
  induction coins with
  | nil => rfl
  | cons coin rest ih =>
    simp only [List.map_cons, List.mem_cons, not_or] at absent
    simp [Ne.symm absent.1, ih absent.2]

end Coin

namespace Contents

/-- The sender has handed the coins to the recipient, and nothing else of anyone's is changed. -/
structure HandedOver (v : Contents) (coins : List Coin) (sender recipient : Address)
    (w : Contents) : Prop where
  balance : ∀ owner denom,
    (w.balance owner denom).toNat + (if owner = sender then Coin.totalOf coins denom else 0) =
      (v.balance owner denom).toNat + (if owner = recipient then Coin.totalOf coins denom else 0)
  supply : ∀ denom, w.supply denom = v.supply denom

variable {v u w : Contents} {coin : Coin} {coins : List Coin} {sender recipient : Address}

theorem HandedOver.nil (v : Contents) (sender recipient : Address) :
    v.HandedOver [] sender recipient v where
  balance _ _ := by simp
  supply _ := rfl

theorem HandedOver.cons (moved : v.Moved coin (some sender) (some recipient) u)
    (supply : ∀ denom, u.supply denom = v.supply denom)
    (rest : u.HandedOver coins sender recipient w) :
    v.HandedOver (coin :: coins) sender recipient w where
  balance owner denom := by
    have first := moved.balance owner denom
    have others := rest.balance owner denom
    simp only [Coin.share, Option.some.injEq, eq_comm (b := owner)] at first
    simp only [Coin.totalOf_cons]
    split_ifs at first others ⊢ <;> simp_all <;> omega
  supply denom := (rest.supply denom).trans (supply denom)

/-- What a sender hands over to itself it still has. -/
theorem HandedOver.balance_self (h : v.HandedOver coins sender sender w) (denom : String) :
    w.balance sender denom = v.balance sender denom :=
  BitVec.eq_of_toNat_eq (Nat.add_right_cancel (h.balance sender denom))

end Contents

namespace Ledger

open Metered Contents

variable {v w : Contents} {sender recipient : Address} {coin : Coin} {coins : List Coin}

theorem checkCoins_eq_ok :
    checkCoins coins = .ok () ↔ ∀ coin ∈ coins, Denom.check coin.denom = .ok () := by
  induction coins with
  | nil => simp [checkCoins, pure, Except.pure]
  | cons coin rest ih =>
    simp only [checkCoins, List.forM_eq_forM, List.forM_cons, List.forall_mem_cons, bind_eq_ok,
      require, mapError_eq_ok, Coin.check] at ih ⊢
    rw [← ih]
    exact ⟨fun ⟨_, first, others⟩ => ⟨first, others⟩, fun ⟨first, others⟩ => ⟨(), first, others⟩⟩

/-- One round of a send. -/
def pay (sender recipient : Address) (coin : Coin) : Ledger Unit := do
  debit sender coin
  credit recipient coin

theorem evaluate_funds (readable : v.Readable .amount (.balance sender coin.denom))
    (short : v.balance sender coin.denom < coin.amount) :
    (funds sender coin).evaluate v =
      (.error (.insufficientFunds (v.balance sender coin.denom) coin.amount coin.denom), v) := by
  have read : (balance sender coin.denom).Gives v _ v := gives_balance.mpr ⟨readable, rfl, rfl⟩
  rw [funds, evaluate_bind, read]
  simp [short]

/-- A coin that the sender has goes to the recipient. -/
theorem exists_pay (conserved : v.Conserved) (enough : coin.amount ≤ v.balance sender coin.denom)
    (recipient : Address) :
    ∃ w, (pay sender recipient coin).Gives v () w ∧ w.Conserved ∧
      v.Moved coin (some sender) (some recipient) w ∧ ∀ denom, w.supply denom = v.supply denom := by
  have paid : (debit sender coin).Gives v () _ :=
    gives_debit.mpr ⟨conserved.balance sender coin.denom, enough, rfl⟩
  obtain ⟨w, received⟩ := credit_of_debit conserved paid recipient
  obtain ⟨between, first⟩ := legible_of_debit paid conserved.toLegible
  obtain ⟨-, second⟩ := legible_of_credit received between
  exact ⟨w, gives_bind.mpr ⟨(), _, paid, received⟩, conserved_of_pay conserved paid received,
    (moved_of_debit paid).trans (moved_of_credit received),
    fun denom => (second denom).trans (first denom)⟩

/-- A coin that the sender does not have stops the round. -/
theorem evaluate_pay (conserved : v.Conserved) (short : v.balance sender coin.denom < coin.amount) :
    (pay sender recipient coin).evaluate v =
      (.error (.insufficientFunds (v.balance sender coin.denom) coin.amount coin.denom), v) := by
  rw [pay, debit, evaluate_bind, evaluate_bind,
    evaluate_funds (conserved.balance sender coin.denom) short]

/-- Coins of a sender to itself are paid if each of them could be. -/
theorem exists_payAll_self (conserved : v.Conserved)
    (each : ∀ coin ∈ coins, coin.amount ≤ v.balance sender coin.denom) :
    ∃ w, (coins.forM (pay sender sender)).Gives v () w ∧ v.HandedOver coins sender sender w := by
  induction coins generalizing v with
  | nil => exact ⟨v, gives_forM_nil.mpr rfl, .nil v sender sender⟩
  | cons coin rest ih =>
    obtain ⟨first, others⟩ := List.forall_mem_cons.mp each
    obtain ⟨u, paid, after, moved, supply⟩ := exists_pay conserved first sender
    have same (denom : String) : u.balance sender denom = v.balance sender denom :=
      (HandedOver.cons moved supply (.nil u sender sender)).balance_self denom
    obtain ⟨w, run, handed⟩ := ih after fun coin member => by
      rw [same]
      exact others coin member
    exact ⟨w, gives_forM_cons.mpr ⟨u, paid, run⟩, .cons moved supply handed⟩

/-- Payment stops at a coin for which too little is left. Those before it are paid. -/
structure StopsAt (v : Contents) (coins : List Coin) (sender recipient : Address)
    (paid : List Coin) (coin : Coin) (rest : List Coin) (left : Amount) (w : Contents) : Prop where
  split : coins = paid ++ coin :: rest
  remainder : left.toNat + Coin.totalOf paid coin.denom = (v.balance sender coin.denom).toNat
  short : left < coin.amount
  handed : v.HandedOver paid sender recipient w

/-- Coins of a sender to another are paid if they are covered together. -/
theorem payAll_cases (apart : sender ≠ recipient) (conserved : v.Conserved) (coins : List Coin) :
    ((∀ denom, Coin.totalOf coins denom ≤ (v.balance sender denom).toNat) ∧
      ∃ w, (coins.forM (pay sender recipient)).Gives v () w ∧
        v.HandedOver coins sender recipient w) ∨
    ∃ paid coin rest left w, StopsAt v coins sender recipient paid coin rest left w ∧
      (coins.forM (pay sender recipient)).evaluate v =
        (.error (.insufficientFunds left coin.amount coin.denom), w) := by
  induction coins generalizing v with
  | nil => exact .inl ⟨fun _ => Nat.zero_le _, v, gives_forM_nil.mpr rfl, .nil v sender recipient⟩
  | cons coin rest ih =>
    by_cases enough : coin.amount ≤ v.balance sender coin.denom
    · obtain ⟨u, run, after, moved, supply⟩ := exists_pay conserved enough recipient
      have lost (denom : String) : (u.balance sender denom).toNat +
          (if coin.denom = denom then coin.amount.toNat else 0) =
            (v.balance sender denom).toNat := by
        simpa [Coin.share, Ne.symm apart] using moved.balance sender denom
      rcases ih after with ⟨covered, w, runs, handed⟩ | ⟨paid, next, others, left, w, stops, failed⟩
      · refine .inl ⟨fun denom => ?_, w, gives_forM_cons.mpr ⟨u, run, runs⟩,
          .cons moved supply handed⟩
        have later := covered denom
        have now := lost denom
        rw [Coin.totalOf_cons]
        omega
      · refine .inr ⟨coin :: paid, next, others, left, w, ⟨?_, ?_, stops.short, ?_⟩, ?_⟩
        · rw [stops.split, List.cons_append]
        · have later := stops.remainder
          have now := lost next.denom
          rw [Coin.totalOf_cons]
          omega
        · exact .cons moved supply stops.handed
        · rw [List.forM_eq_forM, List.forM_cons, evaluate_bind, run]
          exact failed
    · have short := BitVec.not_le.mp enough
      have stops : StopsAt v (coin :: rest) sender recipient [] coin rest
          (v.balance sender coin.denom) v := ⟨rfl, rfl, short, .nil v sender recipient⟩
      refine .inr ⟨[], coin, rest, v.balance sender coin.denom, v, stops, ?_⟩
      rw [List.forM_eq_forM, List.forM_cons, evaluate_bind, evaluate_pay conserved short]

/-- What a send looks at first is what the sender has, for each coin on its own. -/
theorem gives_fundsAll {done : Unit} :
    (coins.forM fun coin => discard (funds sender coin)).Gives v done w ↔
      (∀ coin ∈ coins, v.Readable .amount (.balance sender coin.denom) ∧
        coin.amount ≤ v.balance sender coin.denom) ∧ v = w := by
  induction coins generalizing v with
  | nil => simp
  | cons coin rest ih =>
    simp only [gives_forM_cons, gives_discard, gives_funds, ih, List.forall_mem_cons]
    constructor
    · rintro ⟨_, ⟨_, readable, enough, rfl, rfl⟩, others, rfl⟩
      exact ⟨⟨⟨readable, enough⟩, others⟩, rfl⟩
    · rintro ⟨⟨⟨readable, enough⟩, others⟩, rfl⟩
      exact ⟨v, ⟨_, readable, enough, rfl, rfl⟩, others, rfl⟩

theorem reads_fundsAll (sender : Address) (coins : List Coin) :
    Reads (coins.forM fun coin => discard (funds sender coin) : Ledger Unit) := by
  induction coins with
  | nil => exact reads_pure _
  | cons coin rest ih => exact ((reads_funds sender coin).bind fun _ => reads_pure _).bind fun _ => ih

/-- Each coin is of a denomination and is covered by what the sender has, all others apart. -/
def Covered (v : Contents) (sender : Address) (coins : List Coin) : Prop :=
  (∀ coin ∈ coins, Denom.check coin.denom = .ok ()) ∧
    ∀ coin ∈ coins, coin.amount ≤ v.balance sender coin.denom

/-- A send comes to its payments, or fails before it has done anything. -/
theorem send_cases (conserved : v.Conserved) (sender recipient : Address) (coins : List Coin) :
    (¬ Covered v sender coins ∧ ∃ e, (send sender recipient coins).evaluate v = (.error e, v)) ∨
    Covered v sender coins ∧
      (send sender recipient coins).evaluate v = (coins.forM (pay sender recipient)).evaluate v := by
  have looks : Reads (do
      checkCoins coins
      coins.forM fun coin => discard (funds sender coin) : Ledger Unit) :=
    (reads_liftM _).bind fun _ => reads_fundsAll sender coins
  have sends : send sender recipient coins = (do
      checkCoins coins
      coins.forM fun coin => discard (funds sender coin) : Ledger Unit) >>=
        fun _ => coins.forM (pay sender recipient) := by
    exact (LawfulMonad.bind_assoc (liftM (checkCoins coins)) _ _).symm
  rw [sends, evaluate_bind]
  rcases looks.clean.cases v with ⟨_, u, seen⟩ | ⟨e, failed⟩
  · rw [seen]
    simp only [gives_bind, gives_liftM, gives_fundsAll] at seen
    obtain ⟨_, _, ⟨checked, rfl⟩, each, rfl⟩ := seen
    exact .inr ⟨⟨checkCoins_eq_ok.mp checked, fun coin member => (each coin member).2⟩, rfl⟩
  · refine .inl ⟨?_, e, by rw [failed]⟩
    rintro ⟨checked, each⟩
    have seen : (do
        checkCoins coins
        coins.forM fun coin => discard (funds sender coin) : Ledger Unit).Gives v () v :=
      gives_bind.mpr ⟨(), v, gives_liftM.mpr ⟨checkCoins_eq_ok.mpr checked, rfl⟩,
        gives_fundsAll.mpr ⟨fun coin member => ⟨conserved.balance _ _, each coin member⟩, rfl⟩⟩
    rw [seen] at failed
    cases failed

/-- The sender has all that it sends. What goes to the sender itself is there again for the next coin. -/
def Affords (v : Contents) (sender recipient : Address) (coins : List Coin) : Prop :=
  if sender = recipient then ∀ coin ∈ coins, coin.amount ≤ v.balance sender coin.denom
  else ∀ denom, Coin.totalOf coins denom ≤ (v.balance sender denom).toNat

theorem Affords.each (h : Affords v sender recipient coins) :
    ∀ coin ∈ coins, coin.amount ≤ v.balance sender coin.denom := by
  intro coin member
  rw [Affords] at h
  split at h
  · exact h coin member
  · exact BitVec.le_def.mpr (Nat.le_trans (Coin.le_totalOf member) (h coin.denom))

variable {paid rest : List Coin} {left : Amount}

/-- Where payment stops, the coins of that denomination are too much together. -/
theorem StopsAt.not_affords (h : StopsAt v coins sender recipient paid coin rest left w)
    (apart : sender ≠ recipient) : ¬ Affords v sender recipient coins := by
  intro affords
  rw [Affords, if_neg apart] at affords
  have total := affords coin.denom
  have remainder := h.remainder
  have short := BitVec.lt_def.mp h.short
  rw [h.split, Coin.totalOf_append, Coin.totalOf_cons, if_pos rfl] at total
  omega

/-- Payment does not stop at the first coin of a denomination, if that one is covered. -/
theorem StopsAt.not_nodup (h : StopsAt v coins sender recipient paid coin rest left w)
    (covered : Covered v sender coins) : ¬ (coins.map (·.denom)).Nodup := by
  intro alone
  have enough := covered.2 coin (h.split ▸ List.mem_append_right paid List.mem_cons_self)
  rw [h.split, List.map_append, List.nodup_append] at alone
  have absent : coin.denom ∉ paid.map (·.denom) := fun member =>
    alone.2.2 coin.denom member coin.denom List.mem_cons_self rfl
  have remainder := h.remainder
  rw [Coin.totalOf_eq_zero absent, Nat.add_zero] at remainder
  rw [← BitVec.eq_of_toNat_eq remainder] at enough
  exact BitVec.not_lt.mpr enough h.short

/-- The ways in which a send ends. -/
theorem evaluate_send_cases (conserved : v.Conserved) (sender recipient : Address)
    (coins : List Coin) :
    (¬ Covered v sender coins ∧ ∃ e, (send sender recipient coins).evaluate v = (.error e, v)) ∨
    (Covered v sender coins ∧ Affords v sender recipient coins ∧
      ∃ w, (send sender recipient coins).Gives v () w ∧ v.HandedOver coins sender recipient w) ∨
    (Covered v sender coins ∧ ¬ Affords v sender recipient coins ∧
      ∃ paid coin rest left w, StopsAt v coins sender recipient paid coin rest left w ∧
        (send sender recipient coins).evaluate v =
          (.error (.insufficientFunds left coin.amount coin.denom), w)) := by
  rcases send_cases conserved sender recipient coins with refused | ⟨covered, pays⟩
  · exact .inl refused
  · refine .inr ?_
    simp only [Gives, pays]
    by_cases same : sender = recipient
    · subst same
      obtain ⟨w, run, handed⟩ := exists_payAll_self conserved covered.2
      have affords : Affords v sender sender coins := by
        rw [Affords, if_pos rfl]
        exact covered.2
      exact .inl ⟨covered, affords, w, run, handed⟩
    · rcases payAll_cases same conserved coins with
        ⟨together, w, run, handed⟩ | ⟨paid, coin, rest, left, w, stops, failed⟩
      · have affords : Affords v sender recipient coins := by
          rw [Affords, if_neg same]
          exact together
        exact .inl ⟨covered, affords, w, run, handed⟩
      · exact .inr ⟨covered, stops.not_affords same, paid, coin, rest, left, w, stops, failed⟩

/-- A send succeeds if the sender has what the coins make together, and then just that is moved. A send
that fails changes nothing, unless each coin is covered on its own: then all coins are paid up to the
first that what is left does not cover. It takes two coins of one denomination for that. -/
theorem send_outcome {s : Store} (conserved : s.contents.Conserved) {m : Meter}
    (limit : m.limit = Meter.cap) (used : m.used ≤ Meter.cap) (sender recipient : Address)
    (coins : List Coin) :
    let out := (send sender recipient coins).run s m
    (out.result = .ok () ↔ (∀ coin ∈ coins, Denom.check coin.denom = .ok ()) ∧
      Affords s.contents sender recipient coins) ∧
    (out.result = .ok () → s.contents.HandedOver coins sender recipient out.store.contents) ∧
    (∀ e, out.result = .error e →
      (¬ Covered s.contents sender coins → out.store.contents = s.contents) ∧
      (Covered s.contents sender coins → ∃ paid coin rest left,
        StopsAt s.contents coins sender recipient paid coin rest left out.store.contents ∧
          e = .failed (.insufficientFunds left coin.amount coin.denom))) ∧
    ((coins.map (·.denom)).Nodup → ∀ e, out.result = .error e →
      out.store.contents = s.contents) := by
  have ends : ((send sender recipient coins).run s m).result =
        ((send sender recipient coins).evaluate s.contents).1.mapError .failed ∧
      ((send sender recipient coins).run s m).store.contents =
        ((send sender recipient coins).evaluate s.contents).2 := by
    rw [run_of_limit_eq_cap _ s m limit used, ← perform_view]
    exact ⟨rfl, rfl⟩
  intro out
  rcases evaluate_send_cases conserved sender recipient coins with
    ⟨uncovered, e, failed⟩ | ⟨covered, affords, w, run, handed⟩ |
    ⟨covered, lacks, paid, coin, rest, left, w, stops, failed⟩
  · rw [failed] at ends
    obtain ⟨result, store⟩ : out.result = .error (.failed e) ∧ out.store.contents = s.contents := ends
    rw [result, store]
    refine ⟨⟨nofun, fun ⟨checked, affords⟩ => absurd ⟨checked, affords.each⟩ uncovered⟩, nofun,
      fun _ _ => ⟨fun _ => rfl, fun covered => absurd covered uncovered⟩, fun _ _ _ => rfl⟩
  · rw [run] at ends
    obtain ⟨result, store⟩ : out.result = .ok () ∧ out.store.contents = w := ends
    rw [result, store]
    exact ⟨⟨fun _ => ⟨covered.1, affords⟩, fun _ => rfl⟩, fun _ => handed, nofun, nofun⟩
  · rw [failed] at ends
    obtain ⟨result, store⟩ : out.result =
      .error (.failed (.insufficientFunds left coin.amount coin.denom)) ∧ out.store.contents = w := ends
    rw [result, store]
    refine ⟨⟨nofun, fun ⟨_, affords⟩ => absurd affords lacks⟩, nofun, ?_, fun alone =>
      absurd alone (stops.not_nodup covered)⟩
    rintro _ ⟨⟩
    exact ⟨fun uncovered => absurd covered uncovered, fun _ => ⟨paid, coin, rest, left, stops, rfl⟩⟩

/-- An account that has a hundred of a denomination. -/
def hundred : Store := ((endow .zero ⟨"ubridge", 100⟩).run ∅ .unbounded).store

theorem conserved_hundred : hundred.contents.Conserved :=
  (Reached.operation .empty (.endow .zero ⟨"ubridge", 100⟩) .unbounded rfl (Nat.zero_le _)).conserved

/-- Sixty and thirty are sent out of a hundred. -/
theorem send_outcome_of_hundred :
    hundred.contents.Conserved ∧ Meter.unbounded.limit = Meter.cap ∧
      Meter.unbounded.used ≤ Meter.cap ∧
      ((send .zero (.ofModule "erc20") [⟨"ubridge", 60⟩, ⟨"ubridge", 30⟩]).run hundred
        .unbounded).result = .ok () ∧
      hundred.contents.HandedOver [⟨"ubridge", 60⟩, ⟨"ubridge", 30⟩] .zero (.ofModule "erc20")
        ((send .zero (.ofModule "erc20") [⟨"ubridge", 60⟩, ⟨"ubridge", 30⟩]).run hundred
          .unbounded).store.contents := by
  have sent : ((send .zero (.ofModule "erc20") [⟨"ubridge", 60⟩, ⟨"ubridge", 30⟩]).run hundred
      .unbounded).result = .ok () := by decide +kernel
  have outcome := send_outcome conserved_hundred (m := .unbounded) rfl (Nat.zero_le _) .zero
    (.ofModule "erc20") [⟨"ubridge", 60⟩, ⟨"ubridge", 30⟩]
  exact ⟨conserved_hundred, rfl, Nat.zero_le _, sent, outcome.2.1 sent⟩

/-- Sixty and sixty are not, but the first sixty go. -/
theorem send_fails_halfway :
    hundred.contents.Conserved ∧ (hundred.contents.balance .zero "ubridge").toNat = 100 ∧
      ((send .zero (.ofModule "erc20") [⟨"ubridge", 60⟩, ⟨"ubridge", 60⟩]).run hundred
        .unbounded).result = .error (.failed (.insufficientFunds 40 60 "ubridge")) ∧
      (((send .zero (.ofModule "erc20") [⟨"ubridge", 60⟩, ⟨"ubridge", 60⟩]).run hundred
        .unbounded).store.contents.balance .zero "ubridge").toNat = 40 :=
  ⟨conserved_hundred, by decide +kernel, by decide +kernel, by decide +kernel⟩

end Ledger

end LedgerBridge
