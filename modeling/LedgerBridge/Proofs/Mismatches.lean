import LedgerBridge.Proofs.Budgets
import LedgerBridge.Proofs.Failures

/-! Errors that say that a grant is of another type than what is looked for. Checks of messages, of
arguments and of input fail for other reasons. -/
namespace LedgerBridge

/-- The type of an authorization is not that of the message. -/
def LedgerError.IsMismatch (e : LedgerError) : Prop :=
  ∃ reason, e = .invalidMessage reason ∧ Begins "type mismatch: " reason

namespace LedgerError

theorem not_isMismatch_ofFormat (e : FormatError) : ¬ (ofFormat e).IsMismatch := by
  unfold ofFormat
  split <;> rintro ⟨_, ⟨⟩, -⟩

/-- Complaints about messages that start in another way are about something else. -/
theorem not_isMismatch_invalidMessage {start reason : String} (begins : Begins start reason)
    (apart : ¬ Begins start "type mismatch: " ∧ ¬ Begins "type mismatch: " start) :
    ¬ (invalidMessage reason).IsMismatch := by
  rintro ⟨_, ⟨⟩, mismatch⟩
  exact (begins.total mismatch).elim apart.1 apart.2

end LedgerError

/-- Fails for other reasons than that an authorization is of another type. -/
abbrev SparesTypes (x : Except LedgerError α) : Prop := FailsOnly (fun e => ¬ e.IsMismatch) x

theorem Ledger.failsOnly_require (check : Except FormatError Unit) : SparesTypes (require check) :=
  failsOnly_mapError LedgerError.not_isMismatch_ofFormat

theorem Coin.failsOnly_checkPositive (c : Coin) : SparesTypes c.checkPositive := by
  refine (Ledger.failsOnly_require c.check).bind fun _ => ?_
  split
  · exact failsOnly_ok _
  · apply failsOnly_error
    rintro ⟨_, ⟨⟩, -⟩

theorem Identifier.failsOnly_check (kind id : String) : SparesTypes (Identifier.check kind id) := by
  have begins := Begins.refl "invalid "
  unfold check
  split
  · apply failsOnly_error
    exact LedgerError.not_isMismatch_invalidMessage
      ((((begins.append _).append _).append _).append _) (by decide)
  · split
    · apply failsOnly_error
      exact LedgerError.not_isMismatch_invalidMessage
        ((((((begins.append _).append _).append _).append _).append _).append _) (by decide)
    · exact failsOnly_ok _

theorem SendMessage.failsOnly_check (m : SendMessage) : SparesTypes m.check := by
  simp only [check, error_bind]
  split
  · apply failsOnly_error
    rintro ⟨_, ⟨⟩, -⟩
  · split
    · apply failsOnly_error
      rintro ⟨_, ⟨⟩, -⟩
    · split
      · apply failsOnly_error
        rintro ⟨_, ⟨⟩, -⟩
      · exact failsOnly_forM Coin.failsOnly_checkPositive

theorem TransferMessage.failsOnly_check (m : TransferMessage) : SparesTypes m.check := by
  simp only [check, error_bind]
  refine (Identifier.failsOnly_check _ _).bind fun _ => (Identifier.failsOnly_check _ _).bind
    fun _ => m.token.failsOnly_checkPositive.bind fun _ => ?_
  split
  · apply failsOnly_error
    rintro ⟨_, ⟨⟩, -⟩
  · split
    · apply failsOnly_error
      rintro ⟨_, ⟨⟩, -⟩
    · split
      · apply failsOnly_error
        have begins := Begins.refl "memo must not exceed "
        exact LedgerError.not_isMismatch_invalidMessage
          (((begins.append _).append _).append _) (by decide)
      · split
        · apply failsOnly_error
          exact LedgerError.not_isMismatch_invalidMessage (.refl _) (by decide)
        · exact failsOnly_ok _

namespace Refusal

/-- A grant was found to be for another type of message. -/
def IsMismatch (why : Refusal) : Prop :=
  ∃ reason, why = invalid reason ∧
    (Begins "grant for " reason ∨ Begins "invalid message: type mismatch: " reason)

/-- Complaints that start in another way are about something else. -/
theorem not_isMismatch_invalid {start reason : String} (begins : Begins start reason)
    (apart : ∀ other ∈ ["grant for ", "invalid message: type mismatch: "],
      ¬ Begins start other ∧ ¬ Begins other start) : ¬ (invalid reason).IsMismatch := by
  rintro ⟨_, ⟨⟩, grant | mismatch⟩
  · obtain ⟨before, after⟩ := apart _ (.head _)
    exact (begins.total grant).elim before after
  · obtain ⟨before, after⟩ := apart _ (.tail _ (.head _))
    exact (begins.total mismatch).elim before after

theorem Starts.not_isMismatch {starts : List String} {why : Refusal} (h : why.Starts starts)
    (apart : ∀ start ∈ starts, ∀ other ∈ ["grant for ", "invalid message: type mismatch: "],
      ¬ Begins start other ∧ ¬ Begins other start) : ¬ why.IsMismatch := by
  obtain ⟨start, member, reason, rfl, begins⟩ := h
  exact not_isMismatch_invalid begins (apart start member)

/-- A complaint of the ledger is passed on with a text that says what kind of complaint it is. -/
theorem isMismatch_ofLedger {e : LedgerError} : (ofLedger e).IsMismatch ↔ e.IsMismatch := by
  have parts : "invalid message: type mismatch: " = "invalid message: " ++ "type mismatch: " := by
    decide
  constructor
  · intro h
    cases e with
    | invalidCoins reason =>
      have begins := (Begins.refl "invalid coins: ").append reason
      exact absurd h (not_isMismatch_invalid begins (by decide))
    | invalidAddress reason =>
      have begins := (Begins.refl "invalid address: ").append reason
      exact absurd h (not_isMismatch_invalid begins (by decide))
    | invalidMessage reason =>
      obtain ⟨_, ⟨⟩, grant | mismatch⟩ := h
      · have begins : Begins "invalid message: " (LedgerError.invalidMessage reason).message :=
          (Begins.refl _).append _
        exact absurd (begins.total grant) (by decide)
      · rw [parts] at mismatch
        exact ⟨reason, rfl, Begins.append_iff.mp mismatch⟩
    | _ => obtain ⟨_, ⟨⟩, -⟩ := h
  · rintro ⟨reason, rfl, begins⟩
    have whole : Begins ("invalid message: " ++ "type mismatch: ") ("invalid message: " ++ reason) :=
      Begins.append_iff.mpr begins
    rw [← parts] at whole
    exact ⟨_, rfl, .inr whole⟩

theorem isMismatch_of_ofTokenLedger {e : LedgerError} (h : (ofTokenLedger e).IsMismatch) :
    e.IsMismatch := by
  unfold ofTokenLedger at h
  split at h
  · obtain ⟨_, ⟨⟩, -⟩ := h
  · obtain ⟨_, ⟨⟩, -⟩ := h
  · obtain ⟨_, ⟨⟩, -⟩ := h
  · exact isMismatch_ofLedger.mp h

end Refusal

theorem Outpost.isMismatch_of_missingGrant {caller origin : Address} {e : LedgerError}
    (h : (missingGrant caller origin e).IsMismatch) : e.IsMismatch := by
  unfold missingGrant at h
  split at h
  · obtain ⟨_, ⟨⟩, -⟩ := h
  · exact Refusal.isMismatch_ofLedger.mp h

/-- What is wrong with an argument is never its validity in the ledger. -/
abbrev SparesValidation (e : Except Refusal α) : Prop :=
  FailsOnly (fun why => why.errorClass ≠ .validation) e

namespace Arguments

variable (args : Arguments)

theorem failsOnly_expectCount (count : Nat) : SparesValidation (args.expectCount count) := by
  unfold expectCount
  split
  · exact failsOnly_ok _
  · exact failsOnly_error nofun

theorem failsOnly_get (index : Nat) : SparesValidation (args.get index) := by
  unfold get
  split
  · exact failsOnly_ok _
  · exact failsOnly_error nofun

theorem failsOnly_address (index : Nat) (name : String) :
    SparesValidation (args.address index name) := by
  apply (args.failsOnly_get index).bind
  intro v
  cases v with
  | address => exact failsOnly_ok _
  | _ => exact failsOnly_error nofun

theorem failsOnly_amount (index : Nat) (name : String) :
    SparesValidation (args.amount index name) := by
  refine ((args.failsOnly_get index).bind fun v => ?_).bind fun n => ?_
  · cases v with
    | uint => exact failsOnly_ok _
    | _ => exact failsOnly_error nofun
  · split
    · exact failsOnly_ok _
    · exact failsOnly_error nofun

theorem failsOnly_text (index : Nat) (name : String) : SparesValidation (args.text index name) := by
  apply (args.failsOnly_get index).bind
  intro v
  cases v with
  | text => exact failsOnly_ok _
  | _ => exact failsOnly_error nofun

end Arguments

namespace TokenContract

variable (t : TokenContract)

theorem failsOnly_requireOwner (caller : Address) (role : String) :
    SparesValidation (t.requireOwner caller role) := by
  unfold requireOwner
  split
  · exact failsOnly_ok _
  · exact failsOnly_error nofun

theorem failsOnly_requirePositive (amount : Amount) : SparesValidation (requirePositive amount) := by
  unfold requirePositive
  split
  · exact failsOnly_error nofun
  · exact failsOnly_ok _

end TokenContract

namespace Precompile

variable {p : Precompile} {time : UInt64} {f : Frame} {origin : Address} {readOnly : Bool}

/-- Complaints about input are no complaints about grants. -/
theorem not_isMismatch_of_decode {table : MethodTable ω} {why : Refusal}
    (h : decode table f readOnly = .error (.refused why)) : ¬ why.IsMismatch := by
  cases found : table.find? f.input with
  | none =>
    simp only [decode, found] at h
    cases h
    rintro ⟨_, ⟨⟩, -⟩
  | some m =>
    rw [decode_of_find? found] at h
    split at h
    · cases h
      rintro ⟨_, ⟨⟩, -⟩
    · split at h
      · cases h
      · cases read : Abi.decode m.inputs (f.input.drop 4) with
        | ok args =>
          rw [read] at h
          cases h
        | error e =>
          rw [read] at h
          cases h
          unfold Refusal.ofDecode
          split
          · have begins := Begins.refl "invalid address encoding for argument "
            exact Refusal.not_isMismatch_invalid (((begins.append _).append _).append _) (by decide)
          · rintro ⟨_, ⟨⟩, -⟩

theorem not_isMismatch_of_operation {why : Refusal}
    (h : p.operation time f origin readOnly = .error (.refused why)) : ¬ why.IsMismatch := by
  cases p with
  | token t => exact not_isMismatch_of_decode (map_eq_error.mp h)
  | outpost o => exact not_isMismatch_of_decode (map_eq_error.mp h)

end Precompile

end LedgerBridge
