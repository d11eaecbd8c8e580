import LedgerBridge.Proofs.Supplies
import LedgerBridge.Proofs.VmMirror
import Mathlib.Algebra.Ring.Int.Defs
import Mathlib.Data.BitVec

/-! Journals and what they add up to. Whatever is noted in a journal, it lists what concerns its own
denomination in the order of the notes. Amounts count up to the largest signed number of 128 bits; up to
there the net is what the notes add to all balances together. -/
namespace LedgerBridge

/-- The nearest number that is no further from zero than the bound. -/
def BalanceChange.clamp (n : Int) : Int := max (-(bound : Int)) (min n bound)

/-- With a sign, whatever the amount. -/
def BalanceChange.exact (c : BalanceChange) : Int :=
  match c.direction with
  | .add => c.amount.toNat
  | .sub => -(c.amount.toNat : Int)

theorem BalanceChange.clamp_eq {n : Int} (within : -(bound : Int) ≤ n ∧ n ≤ bound) : clamp n = n := by
  simp only [clamp]
  omega

@[simp] theorem BalanceChange.clamp_zero : clamp 0 = 0 := clamp_eq (by omega)

theorem BalanceChange.signed_eq_clamp (c : BalanceChange) : c.signed = clamp c.exact := by
  obtain ⟨account, amount, direction⟩ := c
  cases direction <;> simp only [signed, exact, clamp] <;> omega

/-- What is noted in a journal. -/
inductive Note
  | credit (denom : String) (account : Address) (amount : Amount)
  | debit (denom : String) (account : Address) (amount : Amount)
  | transfer (denom : String) (sender recipient : Address) (amount : Amount)
  deriving DecidableEq, Repr

namespace Note

def denom : Note → String
  | credit denom _ _ | debit denom _ _ | transfer denom _ _ _ => denom

/-- The changes to be listed. -/
def changes : Note → List BalanceChange
  | credit _ account amount => [⟨account, amount, .add⟩]
  | debit _ account amount => [⟨account, amount, .sub⟩]
  | transfer _ sender recipient amount => [⟨sender, amount, .sub⟩, ⟨recipient, amount, .add⟩]

/-- What is added to all balances together. -/
def gain : Note → Int
  | credit _ _ amount => amount.toNat
  | debit _ _ amount => -(amount.toNat : Int)
  | transfer _ _ _ _ => 0

theorem sum_signed_changes (note : Note) :
    (note.changes.map BalanceChange.signed).sum = BalanceChange.clamp note.gain := by
  cases note <;> simp only [changes, gain, BalanceChange.signed, BalanceChange.clamp, List.map_cons,
    List.map_nil, List.sum_cons, List.sum_nil] <;> omega

end Note

namespace Journal

def enter (j : Journal) : Note → Journal
  | .credit denom account amount => j.credit denom account amount
  | .debit denom account amount => j.debit denom account amount
  | .transfer denom sender recipient amount => j.transfer denom sender recipient amount

def enterAll (j : Journal) (notes : List Note) : Journal :=
  notes.foldl enter j

theorem enter_eq (j : Journal) (note : Note) :
    j.enter note = ⟨j.denom, j.changes ++ if note.denom = j.denom then note.changes else []⟩ := by
  by_cases own : note.denom = j.denom
  · cases note <;> simp only [Note.denom] at own <;>
      simp [enter, credit, debit, transfer, record, tracks, Note.denom, Note.changes, own]
  · cases note <;> simp only [Note.denom] at own <;>
      simp [enter, credit, debit, transfer, record, tracks, Note.denom, own, Ne.symm own]

/-- A journal lists the changes of its denomination, in the order of the notes. -/
theorem enterAll_eq (j : Journal) (notes : List Note) :
    j.enterAll notes =
      ⟨j.denom, j.changes ++ (notes.filter (·.denom = j.denom)).flatMap Note.changes⟩ := by
  induction notes generalizing j with
  | nil => simp [enterAll]
  | cons note rest ih =>
    show (j.enter note).enterAll rest = _
    rw [ih, enter_eq]
    by_cases own : note.denom = j.denom <;> simp [own]

/-- The sums of the first changes are all numbers of 128 signed bits. -/
def Summable (j : Journal) : Prop :=
  ∀ first, first <+: j.changes →
    -(BalanceChange.bound + 1 : Int) ≤ (first.map BalanceChange.signed).sum ∧
      (first.map BalanceChange.signed).sum ≤ BalanceChange.bound

theorem foldlM_addSigned (start : Int) (terms : List Int)
    (within : ∀ first, first <+: terms →
      -(BalanceChange.bound + 1 : Int) ≤ start + first.sum ∧
        start + first.sum ≤ BalanceChange.bound) :
    terms.foldlM addSigned start = some (start + terms.sum) := by
  induction terms generalizing start with
  | nil => simp
  | cons term rest ih =>
    have one := within [term] ⟨rest, rfl⟩
    simp only [List.sum_singleton] at one
    rw [List.foldlM_cons, addSigned, if_pos one]
    have later := ih (start + term) fun first before => by
      have both := within (term :: first) (List.cons_prefix_cons.mpr ⟨rfl, before⟩)
      rw [List.sum_cons, ← Int.add_assoc] at both
      exact both
    rw [List.sum_cons, ← Int.add_assoc]
    exact later

theorem net_eq_sum {j : Journal} (summable : j.Summable) :
    j.net = some (j.changes.map BalanceChange.signed).sum := by
  have sum := foldlM_addSigned 0 (j.changes.map BalanceChange.signed) fun first before => by
    obtain ⟨changes, start, rfl⟩ := List.prefix_map_iff.mp before
    rw [Int.zero_add]
    exact summable changes start
  rw [net, sum, Int.zero_add]

theorem sum_signed_flatMap (notes : List Note) :
    ((notes.flatMap Note.changes).map BalanceChange.signed).sum =
      (notes.map fun note => BalanceChange.clamp note.gain).sum := by
  induction notes with
  | nil => rfl
  | cons note rest ih =>
    rw [List.flatMap_cons, List.map_append, List.sum_append, Note.sum_signed_changes, ih,
      List.map_cons, List.sum_cons]

/-- A single note never leads out of range. -/
theorem summable_enter_new (denom : String) (note : Note) :
    ((Journal.new denom).enter note).Summable := by
  intro first start
  rw [enter_eq] at start
  split at start
  · cases note <;>
      simp only [new, Note.changes, List.nil_append, List.prefix_cons_iff, List.prefix_nil] at start
    case credit account amount =>
      rcases start with rfl | ⟨_, rfl, rfl⟩
      · simp
      · simp [BalanceChange.signed]
        omega
    case debit account amount =>
      rcases start with rfl | ⟨_, rfl, rfl⟩
      · simp
      · simp [BalanceChange.signed]
        omega
    case transfer sender recipient amount =>
      rcases start with rfl | ⟨_, rfl, rfl | ⟨_, rfl, rfl⟩⟩
      · simp
      · simp [BalanceChange.signed]
        omega
      · simp only [List.map_cons, List.map_nil, List.sum_cons, List.sum_nil, BalanceChange.signed]
        omega
  · simp only [new, List.append_nil, List.prefix_nil] at start
    subst start
    simp

theorem net_enter_new (denom : String) (note : Note) :
    ((Journal.new denom).enter note).net =
      some (if note.denom = denom then BalanceChange.clamp note.gain else 0) := by
  rw [net_eq_sum (summable_enter_new denom note), enter_eq]
  by_cases own : note.denom = denom
  · simp [new, own, Note.sum_signed_changes]
  · simp [new, own]

/-- What a journal says of the notes in its own denomination. -/
structure AddsUp (j : Journal) (own : List Note) : Prop where
  listed : j.changes = own.flatMap Note.changes
  signed : ∀ c ∈ j.changes, c.signed = BalanceChange.clamp c.exact ∧
    (c.amount.toNat ≤ BalanceChange.bound → c.signed = c.exact)
  net : j.Summable → j.net = some (own.map fun note => BalanceChange.clamp note.gain).sum
  exact : j.Summable → (∀ note ∈ own, note.gain.natAbs ≤ BalanceChange.bound) →
    j.net = some (own.map Note.gain).sum

theorem addsUp (denom : String) (notes : List Note) :
    ((Journal.new denom).enterAll notes).AddsUp (notes.filter (·.denom = denom)) := by
  have listed : ((Journal.new denom).enterAll notes).changes =
      (notes.filter (·.denom = denom)).flatMap Note.changes := by
    rw [enterAll_eq]
    rfl
  have net (summable : ((Journal.new denom).enterAll notes).Summable) :=
    (net_eq_sum summable).trans (congrArg some
      ((congrArg (fun changes => (changes.map BalanceChange.signed).sum) listed).trans
        (sum_signed_flatMap _)))
  constructor
  case listed => exact listed
  case signed =>
    intro c _
    refine ⟨c.signed_eq_clamp, fun small => ?_⟩
    rw [c.signed_eq_clamp]
    apply BalanceChange.clamp_eq
    obtain ⟨account, amount, direction⟩ := c
    cases direction <;> simp only [BalanceChange.exact] <;> simp only at small <;> omega
  case net => exact net
  case exact =>
    intro summable small
    rw [net summable]
    refine congrArg (fun gains => some (List.sum gains)) (List.map_congr_left fun note mem => ?_)
    have within := small note mem
    exact BalanceChange.clamp_eq (by omega)

end Journal

namespace Movement

/-- How a movement is noted. -/
def note? (m : Movement) : Option Note :=
  match m.source, m.target with
  | some sender, some recipient => some (.transfer m.coin.denom sender recipient m.coin.amount)
  | some sender, none => some (.debit m.coin.denom sender m.coin.amount)
  | none, some recipient => some (.credit m.coin.denom recipient m.coin.amount)
  | none, none => none

theorem journal_eq_enterAll (m : Movement) (evmDenom : String) :
    m.journal evmDenom = (Journal.new evmDenom).enterAll m.note?.toList := by
  obtain ⟨coin, source, target⟩ := m
  cases source <;> cases target <;> rfl

/-- A movement changes the sum of all balances by the gain of its note. -/
theorem total_eq_add_gain {m : Movement} {v w : Contents}
    (moved : v.Moved m.coin m.source m.target w) (denom : String) :
    (w.total denom : Int) - v.total denom =
      (m.note?.toList.map fun note => if note.denom = denom then note.gain else 0).sum := by
  have total := Contents.total_moved moved denom
  obtain ⟨coin, source, target⟩ := m
  by_cases own : coin.denom = denom <;> cases source <;> cases target <;>
    simp [note?, Note.denom, Note.gain, own] at total ⊢ <;> omega

theorem net_journal {m : Movement} {v w : Contents} (moved : v.Moved m.coin m.source m.target w)
    (evmDenom : String) :
    (m.journal evmDenom).net =
      some (BalanceChange.clamp ((w.total evmDenom : Int) - v.total evmDenom)) := by
  rw [total_eq_add_gain moved, journal_eq_enterAll]
  cases m.note? with
  | none => simp [Journal.enterAll, Journal.new, Journal.net]
  | some note =>
    show ((Journal.new evmDenom).enter note).net = _
    rw [Journal.net_enter_new]
    by_cases own : note.denom = evmDenom <;> simp [own]

end Movement

namespace Precompile

/-- The journal of a call that succeeded is one note at most, and its net is what the call added to all
balances of its denomination, as far as the bound. -/
theorem net_of_run {p : Precompile} {time : UInt64} {s : Store} {f : Frame} {origin : Address}
    {readOnly : Bool} {out : CallOutput} (ok : (p.run time s f origin readOnly).result = .ok out) :
    ∃ notes, Journal.mk p.evmDenom out.changes = (Journal.new p.evmDenom).enterAll notes ∧
      (Journal.mk p.evmDenom out.changes).net = some (BalanceChange.clamp
        (((p.run time s f origin readOnly).store.contents.total p.evmDenom : Int) -
          s.contents.total p.evmDenom)) := by
  obtain ⟨x, read, gives⟩ := gives_of_run ok
  rcases atRest_or_explains read gives with rest | ⟨m, explains⟩
  · have changes : out.changes = [] := rest.changes
    rw [changes, Contents.total_congr fun owner => rest.balance owner p.evmDenom, Int.sub_self,
      BalanceChange.clamp_zero]
    exact ⟨[], rfl, rfl⟩
  · have changes : out.changes = (m.journal p.evmDenom).changes := explains.changes
    have journal : Journal.mk p.evmDenom out.changes = m.journal p.evmDenom := by
      rw [changes, m.journal_eq_enterAll, Journal.enterAll_eq]
      rfl
    rw [journal]
    exact ⟨m.note?.toList, m.journal_eq_enterAll _, m.net_journal explains.moved _⟩

end Precompile

/-- Journals add up: any of them to what its own notes say, and that of a successful call to what the
call did to the sum of all balances. -/
theorem journals_add_up :
    (∀ (denom : String) (notes : List Note),
      ((Journal.new denom).enterAll notes).AddsUp (notes.filter (·.denom = denom))) ∧
    ∀ (p : Precompile) (time : UInt64) (s : Store) (f : Frame) (origin : Address) (readOnly : Bool)
      (out : CallOutput), (p.run time s f origin readOnly).result = .ok out →
      ∃ notes, Journal.mk p.evmDenom out.changes = (Journal.new p.evmDenom).enterAll notes ∧
        (Journal.mk p.evmDenom out.changes).net = some (BalanceChange.clamp
          (((p.run time s f origin readOnly).store.contents.total p.evmDenom : Int) -
            s.contents.total p.evmDenom)) :=
  ⟨Journal.addsUp, fun _ _ _ _ _ _ _ ok => Precompile.net_of_run ok⟩

/-- The owner mints five of the denomination that journals are kept in. -/
def Request.ofMint (owner : Address) : Request :=
  { ofIssuer owner with
    precompile := .token ⟨TokenPair.ofDenom "abridge" (some owner), ⟨"abridge", "Bridge", "BRIDGE", 18⟩,
      "abridge", 0⟩ }

theorem Request.call_ofMint (owner : Address) (s : Store) :
    (ofMint owner).call s = Precompile.execute
      (TokenContract.operate ⟨TokenPair.ofDenom "abridge" (some owner),
        ⟨"abridge", "Bridge", "BRIDGE", 18⟩, "abridge", 0⟩ .mint ⟨owner, owner, .ofToken "abridge",
        1700000000, [.address ⟨List.replicate 19 0 ++ [1], rfl⟩, .uint 5]⟩) s (ofMint owner).frame :=
  Precompile.run_token (decode_ofIssuer owner) (ofMint owner).time s (ofMint owner).origin

/-- A mint of five adds five to all balances, and its journal says so. -/
theorem journals_add_up_of_mint :
    ∃ out, ((Request.ofMint .zero).call ∅).result = .ok out ∧
      (Journal.mk "abridge" out.changes).net = some 5 ∧
      (((Request.ofMint .zero).call ∅).store.contents.total "abridge" : Int) -
        (∅ : Store).contents.total "abridge" = 5 := by
  have succeeded : ((Request.ofMint .zero).call ∅).result.toOption.isSome := by
    rw [Request.call_ofMint]
    decide +kernel
  have minted : (((Request.ofMint .zero).call ∅).store.contents.supply "abridge").toNat = 5 := by
    rw [Request.call_ofMint]
    decide +kernel
  obtain ⟨out, found⟩ := Option.isSome_iff_exists.mp succeeded
  have ended := toOption_eq_some.mp found
  have reached : Reached ((Request.ofMint .zero).call ∅).store := .call .empty _ _ _ _ _
  have before : (∅ : Store).contents.total "abridge" = 0 := by
    rw [Reached.empty.conserved.total]
    decide +kernel
  have after : ((Request.ofMint .zero).call ∅).store.contents.total "abridge" = 5 := by
    rw [reached.conserved.total, minted]
  have gained : (((Request.ofMint .zero).call ∅).store.contents.total "abridge" : Int) -
      (∅ : Store).contents.total "abridge" = 5 := by
    rw [before, after]
    rfl
  obtain ⟨notes, -, net⟩ := journals_add_up.2 _ _ _ _ _ _ out ended
  exact ⟨out, ended, net.trans (congrArg (fun n => some (BalanceChange.clamp n)) gained), gained⟩

/-- Above the bound the net falls short of the sum, and the sign of an entry of its amount. -/
theorem net_of_large_debit :
    let large : Note := .debit "abridge" ⟨List.replicate 20 0xA1, rfl⟩ (2 ^ 127)
    ((Journal.new "abridge").enterAll [large]).net = some (-(2 ^ 127 - 1)) ∧
      (([large].filter (·.denom = "abridge")).map Note.gain).sum = -2 ^ 127 ∧
      ((Journal.new "abridge").enterAll [large]).changes.map BalanceChange.signed ≠
        ((Journal.new "abridge").enterAll [large]).changes.map BalanceChange.exact := by
  decide +kernel

end LedgerBridge
