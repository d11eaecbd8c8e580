import LedgerBridge.Proofs.GenesisStates
import LedgerBridge.Proofs.Numerals
import LedgerBridge.Proofs.TransferLogs

/-! The contracts of a chain and its registry. Both come from the same list of pairs, one in the host and
one on the ledger: where the ledger accepts the list, the host can build its set, and what is found in
one by a denomination or an address is what the other has there. -/
namespace LedgerBridge

namespace PrecompileSet

theorem addressOf_token (denom : String) :
    addressOf ("erc20:" ++ denom) = .ok (.ofToken denom) := by
  have other : "erc20:" ++ denom ≠ "outpost" := by
    intro same
    have first := congrArg (fun s : String => s.toList.head?) same
    simp at first
  have rest : ("erc20:" ++ denom).toList = "erc20:".toList ++ denom.toList := String.toList_append
  rw [addressOf, if_neg other, if_pos (by simp [rest])]
  simp [rest]

theorem not_isPrefixOf_of_parse {name : String} {a : Address} (h : Address.parse name = .ok a) :
    "erc20:".toList.isPrefixOf name.toList = false := by
  rw [Bool.eq_false_iff]
  intro named
  obtain ⟨rest, start⟩ := List.isPrefixOf_iff_prefix.mp named
  have unmarked : Address.unmarked name = name := by
    rw [Address.unmarked, ← start]
    rfl
  -- The second byte is no digit.
  have letters : Bytes.ofString name =
      0x65 :: 0x72 :: ("c20:".toList ++ rest).flatMap String.utf8EncodeChar := by
    rw [Bytes.ofString_eq_flatMap, ← start]
    rfl
  have unread : ∃ fault, Hex.decode name = .error fault := by
    rw [Hex.decode, letters]
    split
    · exact ⟨_, rfl⟩
    · exact ⟨.badDigit 0x72 1, rfl⟩
  obtain ⟨fault, unread⟩ := unread
  rw [Address.parse, unmarked, unread] at h
  cases h

/-- A name that can be read as an address stands for it. -/
theorem addressOf_of_parse {name : String} {a : Address} (h : Address.parse name = .ok a) :
    addressOf name = .ok a := by
  have other : name ≠ "outpost" := by
    rintro rfl
    have unread : Address.parse "outpost" = .error (.addressDigits "outpost" .oddLength) := by decide
    rw [unread] at h
    cases h
  rw [addressOf, if_neg other, not_isPrefixOf_of_parse h, h]
  rfl

theorem resolve_of_addressOf {set : PrecompileSet} {name : String} {a : Address} {p : Precompile}
    (named : addressOf name = .ok a) (found : set.at? a = some p) : set.resolve name = .ok p := by
  simp [resolve, named, found]

/-- A set has room for a precompile at an address that none of its own is at. -/
theorem Registered.exists_add? {set : PrecompileSet} (registered : set.Registered) (p : Precompile)
    (apart : ∀ q ∈ set.list, q.address ≠ p.address) : ∃ wider, set.add? p = .ok wider := by
  refine ⟨_, add?_eq_ok_iff.mpr ⟨?_, rfl⟩⟩
  cases taken : set.get? p.address.bytes with
  | none => simp [ByteMap.contains, taken]
  | some q =>
    have same := Address.ext (registered.bytes_eq taken)
    exact absurd same (apart q (mem_list.mpr ⟨_, taken⟩))

/-- No precompile of a set is listed twice. -/
theorem Registered.nodup_list {set : PrecompileSet} (registered : set.Registered) :
    set.list.Nodup := by
  have keys : set.toList.Pairwise (·.1 < ·.1) := set.sorted
  refine List.pairwise_map.mpr (keys.imp_of_mem fun {x y} first second less same => ?_)
  have atFirst := registered.bytes_eq ((ByteMap.mem_toList_iff set).mp first)
  have atSecond := registered.bytes_eq ((ByteMap.mem_toList_iff set).mp second)
  rw [← atFirst, ← atSecond, same] at less
  exact Bytes.lt_irrefl _ less

end PrecompileSet

namespace Config

open PrecompileSet

variable {c : Config} {s : Store}

/-- The contract that a chain has for a pair. -/
def contractOf (c : Config) (p : PairConfig) : TokenContract :=
  ⟨p.pair, p.metadata, c.chain.evmDenom, c.approvalLifetime⟩

theorem tokenContract_eq_ok {p : PairConfig} (checked : Denom.check p.denom = .ok ()) :
    c.tokenContract p = .ok (c.contractOf p) := by
  have pair : p.pair.check = .ok () := checked
  simp [tokenContract, TokenContract.new?, pair, contractOf]

/-- Pairs whose addresses are free and different all get their contracts. -/
theorem exists_contracts (c : Config) {pairs : List PairConfig} {set : PrecompileSet}
    (registered : set.Registered) (checked : ∀ p ∈ pairs, Denom.check p.denom = .ok ())
    (free : ∀ p ∈ pairs, ∀ q ∈ set.list, q.address ≠ Address.ofToken p.denom)
    (apart : (pairs.map fun p => Address.ofToken p.denom).Nodup) :
    ∃ wider, pairs.foldlM (fun set p => do add? set (.token (← c.tokenContract p))) set = .ok wider ∧
      wider.Registered ∧
      ∀ q, q ∈ wider.list ↔ q ∈ set.list ∨ q ∈ pairs.map fun p => .token (c.contractOf p) := by
  induction pairs generalizing set with
  | nil => exact ⟨set, rfl, registered, by simp⟩
  | cons p rest ih =>
    rw [List.map_cons, List.nodup_cons] at apart
    obtain ⟨next, added⟩ := registered.exists_add? (.token (c.contractOf p))
      (free p List.mem_cons_self)
    have others : ∀ p' ∈ rest, ∀ q ∈ next.list, q.address ≠ Address.ofToken p'.denom := by
      intro p' member q listed
      rcases (mem_of_add? added).mp listed with rfl | before
      · exact fun same => apart.1 (List.mem_map.mpr ⟨p', member, same.symm⟩)
      · exact free p' (List.mem_cons_of_mem _ member) q before
    obtain ⟨wider, built, registered, members⟩ := ih (.add registered added)
      (fun p' member => checked p' (List.mem_cons_of_mem _ member)) others apart.2
    refine ⟨wider, ?_, registered, fun q => ?_⟩
    · simp [tokenContract_eq_ok (checked p List.mem_cons_self), added, built]
    · rw [members, mem_of_add? added, List.map_cons, List.mem_cons, or_assoc, or_left_comm]

/-- All contracts of a chain. -/
def allContracts (c : Config) : List Precompile :=
  c.pairs.map (fun p => .token (c.contractOf p)) ++ [.outpost ⟨c.outpost, c.chain.evmDenom⟩]

theorem nodup_allContracts (addresses : (c.pairs.map fun p => Address.ofToken p.denom).Nodup)
    (apart : ∀ p ∈ c.pairs, Address.ofToken p.denom ≠ Outpost.address) : c.allContracts.Nodup := by
  apply List.Nodup.of_map Precompile.address
  have split : c.allContracts.map Precompile.address =
      (c.pairs.map fun p => Address.ofToken p.denom) ++ [Outpost.address] := by
    rw [allContracts, List.map_append, List.map_map]
    rfl
  rw [split, List.nodup_append_comm, List.singleton_append, List.nodup_cons]
  refine ⟨fun member => ?_, addresses⟩
  obtain ⟨p, listed, same⟩ := List.mem_map.mp member
  exact apart p listed same

theorem exists_precompiles (registrable : PairConfig.Registrable c.pairs)
    (apart : ∀ p ∈ c.pairs, Address.ofToken p.denom ≠ Outpost.address) :
    ∃ set, c.precompiles = .ok set ∧ set.list.Perm c.allContracts := by
  have empty : (∅ : PrecompileSet).list = [] := rfl
  obtain ⟨tokens, built, registered, members⟩ := c.exists_contracts .empty
    (fun p member => (registrable.valid p member).denom) (by simp [empty]) registrable.addresses
  have free : ∀ q ∈ tokens.list, q.address ≠ Outpost.address := by
    intro q member
    rw [members, empty] at member
    simp only [List.not_mem_nil, false_or] at member
    obtain ⟨p, listed, rfl⟩ := List.mem_map.mp member
    exact apart p listed
  obtain ⟨set, added⟩ := registered.exists_add? (.outpost ⟨c.outpost, c.chain.evmDenom⟩) free
  refine ⟨set, by simp [precompiles, built, added], ?_⟩
  rw [List.perm_ext_iff_of_nodup (Registered.add registered added).nodup_list
    (nodup_allContracts registrable.addresses apart)]
  intro q
  simp [mem_of_add? added, members, empty, allContracts, or_comm]

/-- A chain that can start has just the contracts of its pairs and the outpost. By the name of its
denomination or by its address, a pair's contract is found at the address where the ledger has that same
pair; where no contract is, none is found. -/
theorem contracts_meet_registry (started : c.initialStore = .ok s)
    (apart : ∀ p ∈ c.pairs, Address.ofToken p.denom ≠ Outpost.address) :
    ∃ set, c.precompiles = .ok set ∧ set.list.Perm c.allContracts ∧
      (∀ p ∈ c.pairs,
        set.resolve ("erc20:" ++ p.denom) = .ok (.token (c.contractOf p)) ∧
        (Precompile.token (c.contractOf p)).address = Address.ofToken p.denom ∧
        (∃ pair, ((Ledger.pairAt? (Address.ofToken p.denom)).perform s).1 = .ok (some pair) ∧
          pair.denom = (c.contractOf p).denom ∧ pair.owner = (c.contractOf p).pair.owner ∧
          pair.enabled = (c.contractOf p).pair.enabled) ∧
        Address.parse (Address.ofToken p.denom).text = .ok (Address.ofToken p.denom) ∧
        ∀ name, Address.parse name = .ok (Address.ofToken p.denom) →
          set.resolve name = .ok (.token (c.contractOf p))) ∧
      ∀ denom, (∀ q ∈ set.list, q.address ≠ Address.ofToken denom) →
        set.resolve ("erc20:" ++ denom) = .error (.config
          s!"no precompile registered for 'erc20:{denom}' at {(Address.ofToken denom).text}") := by
  obtain ⟨startable, described⟩ := describes_of_genesis? (gives_of_initialStore started)
  obtain ⟨set, built, same⟩ := exists_precompiles startable.pairs apart
  have registered := (registered_precompiles built).1
  refine ⟨set, built, same, fun p member => ?_, fun denom free => ?_⟩
  · have listed : Precompile.token (c.contractOf p) ∈ set.list :=
      same.mem_iff.mpr (List.mem_append_left _ (List.mem_map_of_mem member))
    have found : set.at? (Address.ofToken p.denom) = some (.token (c.contractOf p)) :=
      registered.at?_address listed
    have known := described.offers.registers.gives_pairAt? (Address.ofToken p.denom)
    rw [show Address.ofToken p.denom = p.pair.address from rfl,
      find?_eq_some_of_nodup described.offers.registers.addresses (List.mem_map_of_mem member)] at known
    exact ⟨resolve_of_addressOf (addressOf_token _) found, rfl,
      ⟨p.pair, Metered.perform_of_gives known, rfl, rfl, rfl⟩, Address.parse_text _,
      fun name named => resolve_of_addressOf (addressOf_of_parse named) found⟩
  · have absent : set.at? (Address.ofToken denom) = none := by
      cases found : set.at? (Address.ofToken denom) with
      | none => rfl
      | some q =>
        exact absurd (Address.ext (registered.bytes_eq found)) (free q (mem_list.mpr ⟨_, found⟩))
    have text : "no precompile registered for '" ++ ("erc20:" ++ denom) =
        "no precompile registered for 'erc20:" ++ denom := by
      rw [← String.append_assoc]
      rfl
    simp only [resolve, addressOf_token, absent, ok_bind, toString, text]

theorem contracts_meet_registry_of_two :
    ∃ s set, ofRepeatedFunds.initialStore = .ok s ∧
      (∀ p ∈ ofRepeatedFunds.pairs, Address.ofToken p.denom ≠ Outpost.address) ∧
      ofRepeatedFunds.precompiles = .ok set ∧ set.list.length = 3 ∧
      (∃ t, set.resolve ("erc20:" ++ "ubridge") = .ok (.token t) ∧
        t.pair = ⟨Address.ofToken "ubridge", "ubridge", false, some developer⟩ ∧
        set.resolve (Address.ofToken "ubridge").text = .ok (.token t) ∧
        ∃ pair, ((Ledger.pairAt? (Address.ofToken "ubridge")).perform s).1 = .ok (some pair) ∧
          pair.owner = some developer ∧ pair.enabled = false) ∧
      ∃ e, set.resolve ("erc20:" ++ "uatom") = .error e := by
  have apart : ∀ p ∈ ofRepeatedFunds.pairs, Address.ofToken p.denom ≠ Outpost.address := by
    decide +kernel
  obtain ⟨s, started, -⟩ := exists_of_any_toOption
    (by decide +kernel : (ofRepeatedFunds.initialStore.toOption.any fun _ => true) = true)
  obtain ⟨set, built, same, meet, free⟩ := contracts_meet_registry started apart
  obtain ⟨named, -, ⟨pair, known, -, owner, enabled⟩, written, addressed⟩ :=
    meet ⟨"ubridge", "Bridge", "BRIDGE", 6, some developer, false⟩ List.mem_cons_self
  have elsewhere : ∀ q ∈ ofRepeatedFunds.allContracts, q.address ≠ Address.ofToken "uatom" := by
    decide +kernel
  exact ⟨s, set, started, apart, built, same.length_eq, ⟨_, named, rfl, addressed _ written, pair, known,
    owner, enabled⟩, _, free "uatom" fun q member => elsewhere q (same.mem_iff.mp member)⟩

end Config

end LedgerBridge
