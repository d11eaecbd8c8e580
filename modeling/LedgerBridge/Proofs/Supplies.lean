import LedgerBridge.Proofs.Genesis
import LedgerBridge.Proofs.Operations
import LedgerBridge.Proofs.PaidCalls

/-! Who can change a supply. Coins are made and destroyed by the owner of a pair, and vouchers are
destroyed where they leave over a channel; no other call changes what there is of a denomination. -/
namespace LedgerBridge

namespace Contents

variable {v w : Contents} {coin : Coin} {source target : Option Address} {denom : String}

/-- A supply that is what accounts have together stays if that does. -/
theorem Conserved.supply_eq (before : v.Conserved) (after : w.Conserved)
    (same : w.total denom = v.total denom) : w.supply denom = v.supply denom := by
  have left := after.total denom
  have right := before.total denom
  exact BitVec.eq_of_toNat_eq (left.symm.trans (same.trans right))

/-- A movement changes the supply by what crosses the border of the ledger. -/
theorem Conserved.supply_moved (before : v.Conserved) (after : w.Conserved)
    (moved : v.Moved coin source target w) (denom : String) :
    (w.supply denom).toNat +
        (if source.isSome ∧ coin.denom = denom then coin.amount.toNat else 0) =
      (v.supply denom).toNat +
        (if target.isSome ∧ coin.denom = denom then coin.amount.toNat else 0) := by
  rw [← before.total, ← after.total]
  exact total_moved moved denom

/-- Within the ledger nothing is made or lost. -/
theorem Conserved.supply_eq_of_within (before : v.Conserved) (after : w.Conserved)
    {payer payee : Address} (moved : v.Moved coin (some payer) (some payee) w) :
    w.supply denom = v.supply denom := by
  have sums := before.supply_moved after moved denom
  simp only [Option.isSome_some, true_and] at sums
  exact BitVec.eq_of_toNat_eq (Nat.add_right_cancel sums)

/-- Only the supply of what was moved changes. -/
theorem Conserved.denom_of_supply_ne (before : v.Conserved) (after : w.Conserved)
    (moved : v.Moved coin source target w) (changed : w.supply denom ≠ v.supply denom) :
    coin.denom = denom := by
  by_contra other
  have sums := before.supply_moved after moved denom
  simp only [other, and_false, if_false, Nat.add_zero] at sums
  exact changed (BitVec.eq_of_toNat_eq sums)

/-- Coins came into being at an account, and are all that changed. -/
structure Created (v : Contents) (coin : Coin) (payee : Address) (w : Contents) : Prop where
  supply : (w.supply coin.denom).toNat = (v.supply coin.denom).toNat + coin.amount.toNat
  moved : v.Moved coin none (some payee) w

/-- Coins ceased to be at an account, and are all that changed. -/
structure Destroyed (v : Contents) (coin : Coin) (payer : Address) (w : Contents) : Prop where
  supply : (w.supply coin.denom).toNat + coin.amount.toNat = (v.supply coin.denom).toNat
  moved : v.Moved coin (some payer) none w

theorem Conserved.created_of_moved (before : v.Conserved) (after : w.Conserved) {payee : Address}
    (moved : v.Moved coin none (some payee) w) (changed : w.supply denom ≠ v.supply denom) :
    coin.denom = denom ∧ v.Created coin payee w := by
  have more := before.supply_moved after moved coin.denom
  simp only [Option.isSome_some, Option.isSome_none, Bool.false_eq_true, true_and, false_and,
    if_true, if_false, Nat.add_zero] at more
  exact ⟨before.denom_of_supply_ne after moved changed, more, moved⟩

theorem Conserved.destroyed_of_moved (before : v.Conserved) (after : w.Conserved) {payer : Address}
    (moved : v.Moved coin (some payer) none w) (changed : w.supply denom ≠ v.supply denom) :
    coin.denom = denom ∧ v.Destroyed coin payer w := by
  have less := before.supply_moved after moved coin.denom
  simp only [Option.isSome_some, Option.isSome_none, Bool.false_eq_true, true_and, false_and,
    if_true, if_false, Nat.add_zero] at less
  exact ⟨before.denom_of_supply_ne after moved changed, less, moved⟩

end Contents

namespace Precompile

/-- How a call comes to change the supply of a denomination. -/
inductive ChangesSupply (p : Precompile) (f : Frame) (origin : Address) (readOnly : Bool)
    (denom : String) (v w : Contents) : Prop
  /-- The owner of the pair mints. -/
  | mint (t : TokenContract) (m : Method TokenContract.Operation) (args : Arguments)
      (recipient : Address) (amount : Amount)
      (contract : p = .token t ∧ t.denom = denom ∧ t.pair.enabled = true)
      (owner : t.pair.owner = some f.caller)
      (call : decode TokenContract.table f readOnly = .ok (m, args) ∧ m.op = .mint)
      (stated : args[0]? = some (.address recipient) ∧ args[1]? = some (.ofAmount amount))
      (created : v.Created ⟨denom, amount⟩ recipient w)
  /-- The owner of the pair burns what is its own. -/
  | burn (t : TokenContract) (m : Method TokenContract.Operation) (args : Arguments)
      (amount : Amount) (contract : p = .token t ∧ t.denom = denom ∧ t.pair.enabled = true)
      (owner : t.pair.owner = some f.caller)
      (call : decode TokenContract.table f readOnly = .ok (m, args) ∧ m.op = .burn)
      (stated : args[0]? = some (.ofAmount amount))
      (destroyed : v.Destroyed ⟨denom, amount⟩ f.caller w)
  /-- Vouchers of the origin leave in a swap. -/
  | swap (o : Outpost) (m : Method Outpost.Operation) (args : Arguments) (token : Address)
      (amount : Amount) (contract : p = .outpost o)
      (call : decode Outpost.table f readOnly = .ok (m, args) ∧ m.op = .swap)
      (input : args[1]? = some (.address token) ∧ v.denomAt? token = some denom)
      (voucher : Denom.isVoucher denom = true) (stated : args[3]? = some (.ofAmount amount))
      (destroyed : v.Destroyed ⟨denom, amount⟩ origin w)

variable {p : Precompile} {time : UInt64} {s : Store} {f : Frame} {origin : Address}
  {readOnly : Bool} {v w : Contents} {denom : String} {done : Completed}

theorem changesSupply_of_token {t : TokenContract} {m : Method TokenContract.Operation}
    {args : Arguments} (read : decode TokenContract.table f readOnly = .ok (m, args))
    (h : (t.operate m.op ⟨f.caller, origin, t.pair.address, time, args⟩).Gives v done w)
    (before : v.Conserved) (after : w.Conserved) (changed : w.supply denom ≠ v.supply denom) :
    (token t).ChangesSupply f origin readOnly denom v w := by
  have enabled := (TokenContract.gives_operate.mp h).1
  have effect := TokenContract.effect_of_operate h
  obtain ⟨op, signature, inputs, kind, gas⟩ := m
  cases effect with
  | rest same =>
    have total := Contents.total_congr fun owner => same.balance owner denom
    exact absurd (before.supply_eq after total) changed
  | transfer recipient amount explains =>
    exact absurd (before.supply_eq_of_within after explains.moved) changed
  | transferFrom sender recipient amount _ _ explains =>
    exact absurd (before.supply_eq_of_within after explains.moved) changed
  | mint recipient amount owner named stated explains =>
    obtain ⟨rfl, created⟩ := before.created_of_moved after explains.moved changed
    exact .mint t _ args recipient amount ⟨rfl, rfl, enabled⟩ owner ⟨read, rfl⟩ ⟨named, stated⟩
      created
  | burn amount owner stated explains =>
    obtain ⟨rfl, destroyed⟩ := before.destroyed_of_moved after explains.moved changed
    exact .burn t _ args amount ⟨rfl, rfl, enabled⟩ owner ⟨read, rfl⟩ stated destroyed

theorem changesSupply_of_outpost {o : Outpost} {m : Method Outpost.Operation} {args : Arguments}
    (read : decode Outpost.table f readOnly = .ok (m, args))
    (h : (o.operate m.op ⟨f.caller, origin, Outpost.address, time, args⟩).Gives v done w)
    (before : v.Conserved) (after : w.Conserved) (changed : w.supply denom ≠ v.supply denom) :
    (outpost o).ChangesSupply f origin readOnly denom v w := by
  obtain ⟨op, signature, inputs, kind, gas⟩ := m
  cases op
  obtain ⟨token, inputDenom, amount, named, stated, registered, explains, -⟩ :=
    Outpost.explains_swap h
  have moved := explains.moved
  by_cases voucher : Denom.isVoucher inputDenom = true
  · simp only [Denom.exit?, if_pos voucher] at moved
    obtain ⟨rfl, destroyed⟩ := before.destroyed_of_moved after moved changed
    exact .swap o _ args token amount rfl ⟨read, rfl⟩ ⟨named, registered⟩ voucher stated destroyed
  · simp only [Denom.exit?, if_neg voucher] at moved
    exact absurd (before.supply_eq_of_within after moved) changed

theorem changesSupply_of_run (before : s.contents.Conserved)
    (changed : (p.run time s f origin readOnly).store.contents.supply denom ≠
      s.contents.supply denom) :
    (∃ out, (p.run time s f origin readOnly).result = .ok out) ∧
      p.ChangesSupply f origin readOnly denom s.contents
        (p.run time s f origin readOnly).store.contents := by
  have after : (p.run time s f origin readOnly).store.contents.Conserved :=
    Contents.kept_conserved.run before _ _ _ _ _
  cases ended : (p.run time s f origin readOnly).result with
  | error e =>
    rw [store_of_run_error ended] at changed
    exact absurd rfl changed
  | ok out =>
    refine ⟨⟨out, rfl⟩, ?_⟩
    obtain ⟨x, operation, gives⟩ := gives_of_run ended
    cases p with
    | token t =>
      obtain ⟨⟨m, args⟩, read, rfl⟩ := map_eq_ok.mp operation
      exact changesSupply_of_token read gives before after changed
    | outpost o =>
      obtain ⟨⟨m, args⟩, read, rfl⟩ := map_eq_ok.mp operation
      exact changesSupply_of_outpost read gives before after changed

end Precompile

namespace Request

variable {s : Store} {denom : String}

/-- A call that no owner makes leaves the supply of what is no voucher. -/
theorem supply_call (q : Request) (conserved : s.contents.Conserved)
    (native : Denom.isVoucher denom = false)
    (ownerless : ∀ t, q.precompile = .token t → t.denom = denom → t.pair.owner = none) :
    (q.call s).store.contents.supply denom = s.contents.supply denom := by
  by_contra changed
  obtain ⟨-, cause⟩ := Precompile.changesSupply_of_run conserved changed
  cases cause with
  | mint t _ _ _ _ contract owner =>
    rw [ownerless t contract.1 contract.2.1] at owner
    cases owner
  | burn t _ _ _ contract owner =>
    rw [ownerless t contract.1 contract.2.1] at owner
    cases owner
  | swap _ _ _ _ _ _ _ _ voucher =>
    rw [native] at voucher
    cases voucher

theorem supply_callAll (requests : List Request) (conserved : s.contents.Conserved)
    (native : Denom.isVoucher denom = false)
    (ownerless : ∀ q ∈ requests, ∀ t, q.precompile = .token t → t.denom = denom →
      t.pair.owner = none) :
    (callAll s requests).contents.supply denom = s.contents.supply denom := by
  induction requests generalizing s with
  | nil => rfl
  | cons q rest ih =>
    obtain ⟨first, others⟩ := List.forall_mem_cons.mp ownerless
    have kept : (q.call s).store.contents.Conserved := Contents.kept_conserved.run conserved _ _ _ _ _
    rw [callAll_cons, ih kept others]
    exact q.supply_call conserved native first

end Request

/-- From every state that a ledger can get to, a call that changes a supply succeeds and has a right to
that; no calls at all change the supply of what is no voucher and has no owner. -/
theorem Reached.supply_changes {s : Store} (reached : Reached s) :
    (∀ (p : Precompile) time f origin readOnly denom,
      (p.run time s f origin readOnly).store.contents.supply denom ≠ s.contents.supply denom →
      (∃ out, (p.run time s f origin readOnly).result = .ok out) ∧
        p.ChangesSupply f origin readOnly denom s.contents
          (p.run time s f origin readOnly).store.contents) ∧
    ∀ denom, Denom.isVoucher denom = false → ∀ requests : List Request,
      (∀ q ∈ requests, ∀ t, q.precompile = .token t → t.denom = denom → t.pair.owner = none) →
      (Request.callAll s requests).contents.supply denom = s.contents.supply denom :=
  ⟨fun _ _ _ _ _ _ changed => Precompile.changesSupply_of_run reached.conserved changed,
    fun _ native requests ownerless =>
      Request.supply_callAll requests reached.conserved native ownerless⟩

/-- A chain with one contract, whose owner has all that there is of its denomination. -/
def Config.ofIssuer (owner : Address) : Config :=
  { standard with
    pairs := [⟨"ubridge", "Bridge", "BRIDGE", 6, some owner, true⟩]
    genesis := { GenesisConfig.standard with balances := [⟨owner, "ubridge", 1000⟩] } }

/-- The owner mints five more for another account. -/
def Request.ofIssuer (owner : Address) : Request where
  precompile := .token ⟨{ TokenPair.ofDenom "ubridge" (some owner) with enabled := true },
    ⟨"ubridge", "Bridge", "BRIDGE", 6⟩, "abridge", 0⟩
  time := 1700000000
  frame := ⟨owner, [0x40, 0xC1, 0x0F, 0x19] ++ List.replicate 31 0 ++ [1] ++ List.replicate 31 0 ++
    [5], 3000000⟩
  origin := owner
  readOnly := false

/-- What the owner calls. -/
theorem Request.decode_ofIssuer (owner : Address) :
    Precompile.decode TokenContract.table (ofIssuer owner).frame false =
      .ok (⟨.mint, "mint(address,uint256)", [.address, .uint256], .transaction, 3000000⟩,
        [.address ⟨List.replicate 19 0 ++ [1], rfl⟩, .uint 5]) := by
  let given : Bytes := List.replicate 31 0 ++ [1] ++ List.replicate 31 0 ++ [5]
  have called : (ofIssuer owner).frame.input = TokenContract.Operation.selector .mint ++ given := by
    simp only [ofIssuer, TokenContract.Operation.selector, given, List.append_assoc]
  have read : Abi.decode [.address, .uint256] given =
      .ok [.address ⟨List.replicate 19 0 ++ [1], rfl⟩, .uint 5] := by decide +kernel
  refine Precompile.decode_eq_ok.mpr ⟨?_, by simp, Nat.le_refl _, read⟩
  rw [called]
  exact TokenContract.find?_selector_append (m := ⟨.mint, _, _, _, _⟩) (by decide) _

theorem Request.call_ofIssuer (owner : Address) (s : Store) :
    (ofIssuer owner).call s = Precompile.execute
      (TokenContract.operate ⟨TokenPair.ofDenom "ubridge" (some owner),
        ⟨"ubridge", "Bridge", "BRIDGE", 6⟩, "abridge", 0⟩ .mint ⟨owner, owner, .ofToken "ubridge",
        1700000000, [.address ⟨List.replicate 19 0 ++ [1], rfl⟩, .uint 5]⟩) s
      (ofIssuer owner).frame :=
  Precompile.run_token (decode_ofIssuer owner) (ofIssuer owner).time s (ofIssuer owner).origin

theorem Reached.supply_changes_by_issuer :
    ∃ s, (Config.ofIssuer .zero).initialStore = .ok s ∧
      (s.contents.supply "ubridge").toNat = 1000 ∧
      (((Request.ofIssuer .zero).call s).store.contents.supply "ubridge").toNat = 1005 ∧
      (Request.ofIssuer .zero).precompile.ChangesSupply (Request.ofIssuer .zero).frame .zero false
        "ubridge" s.contents ((Request.ofIssuer .zero).call s).store.contents := by
  have known : ((Config.ofIssuer .zero).initialStore.toOption.any fun s =>
      (s.contents.supply "ubridge").toNat == 1000 &&
          (((Request.ofIssuer .zero).call s).store.contents.supply "ubridge").toNat == 1005) = true := by
    simp only [Request.call_ofIssuer]
    decide +kernel
  obtain ⟨s, started, known⟩ := exists_of_any_toOption known
  simp only [Bool.and_eq_true, beq_iff_eq] at known
  obtain ⟨before, after⟩ := known
  refine ⟨s, started, before, after, ?_⟩
  have changed : ((Request.ofIssuer .zero).call s).store.contents.supply "ubridge" ≠
      s.contents.supply "ubridge" := by
    intro same
    rw [same, before] at after
    cases after
  exact ((supply_changes (.initialStore started)).1 _ _ _ _ _ _ changed).2

end LedgerBridge
