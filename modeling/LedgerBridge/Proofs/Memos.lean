import LedgerBridge.Outpost.Memo
import LedgerBridge.Proofs.JsonDocuments
import Mathlib.Data.String.Basic

/-! The memo of a swap travels as text to another chain. Whatever its fields hold, the memo is read
from that text as it was, so no field reaches into another. -/
namespace LedgerBridge

theorem Document.u64?_ofU64 (n : UInt64) : (ofU64 n).u64? = some n := by
  simp [ofU64, u64?, natural?, UInt64.toNat_lt_size]

namespace Json

/-- No character gets shorter by how it is written. -/
theorem utf8Size_le_writeChar (c : Char) : c.utf8Size ≤ String.utf8Len (writeChar c) := by
  by_cases escaped : writeChar c = [c]
  · simp [escaped]
  · have short : c.val ≤ 127 := by
      by_contra long
      have apart (d : Char) (small : d.val ≤ 127) : c ≠ d := fun same => long (same ▸ small)
      have above : ¬ c.toNat < 0x20 := fun below =>
        long (UInt32.le_iff_toNat_le.mpr (Nat.le_trans (Nat.le_of_lt below) (by decide)))
      apply escaped
      simp only [writeChar, apart '"' (by decide), apart '\\' (by decide), apart '\x08' (by decide),
        apart '\x0c' (by decide), apart '\n' (by decide), apart '\r' (by decide),
        apart '\t' (by decide), above, if_false]
    have some : writeChar c ≠ [] := by
      unfold writeChar
      split_ifs <;> simp
    rw [Char.utf8Size_eq_one_iff.mpr short, Nat.one_le_iff_ne_zero]
    exact fun empty => some (String.utf8Len_eq_zero.mp empty)

theorem utf8ByteSize_le_writeText (s : String) : s.utf8ByteSize ≤ String.utf8Len (writeText s) := by
  have each (cs : List Char) : String.utf8Len cs ≤ String.utf8Len (cs.flatMap writeChar) := by
    induction cs with
    | nil => exact Nat.le_refl _
    | cons c cs ih =>
      rw [List.flatMap_cons, String.utf8Len_append, String.utf8Len_cons, Nat.add_comm]
      exact Nat.add_le_add (utf8Size_le_writeChar c) ih
  rw [← String.utf8Len_toList]
  apply Nat.le_trans (each s.toList)
  simp only [writeText, List.cons_append, String.utf8Len_cons, String.utf8Len_append]
  omega

end Json

namespace SwapMemo

theorem ofDocument?_toDocument (layout : Document.Layout) (m : SwapMemo) :
    ofDocument? layout m.toDocument = some m := by
  obtain ⟨contract, outputDenom, slippage, windowSeconds, receiver, onFailedDelivery, next⟩ := m
  cases next <;>
    simp [toDocument, ofDocument?, Document.fields?, Document.member?, Document.optionalMember,
      Document.text?, Document.orElse, Document.optional?, Document.u64?_ofU64]

theorem parse_write (m : SwapMemo) : parse m.write = some m := by
  rw [parse, write, Json.parse_pretty, Option.bind_eq_bind, Option.bind_some,
    ofDocument?_toDocument]

theorem write_injective : Function.Injective write := by
  intro m m' eq
  have read := parse_write m
  rw [eq, parse_write] at read
  exact (Option.some.inj read).symm

/-- The contract is named in full. -/
theorem utf8ByteSize_contract_le (m : SwapMemo) :
    m.contract.utf8ByteSize ≤ m.write.utf8ByteSize := by
  apply Nat.le_trans (Json.utf8ByteSize_le_writeText m.contract)
  rw [write, Json.pretty, String.utf8ByteSize_ofList]
  simp only [toDocument, Json.prettyChars, Json.prettyMembers, List.cons_append,
    String.utf8Len_cons, String.utf8Len_append]
  omega

/-- The text of a memo holds the memo: it is read back whole, the texts of two swaps differ as soon as
one of their parameters does, and whatever stands for the receiver becomes the receiver and nothing
else. -/
theorem write_carries_memo :
    (∀ m : SwapMemo, parse m.write = some m) ∧
    (∀ outputDenom receiver contract slippage windowSeconds
        outputDenom' receiver' contract' slippage' windowSeconds',
      (new outputDenom receiver contract slippage windowSeconds).write =
          (new outputDenom' receiver' contract' slippage' windowSeconds').write ↔
        outputDenom = outputDenom' ∧ receiver = receiver' ∧ contract = contract' ∧
          slippage = slippage' ∧ windowSeconds = windowSeconds') ∧
    ∀ (m : SwapMemo) (receiver : String), ∃ read,
      parse { m with receiver := receiver }.write = some read ∧ read.receiver = receiver ∧
        { read with receiver := m.receiver } = m := by
  refine ⟨parse_write, ?parameters, ?receiver⟩
  case parameters =>
    intros
    rw [write_injective.eq_iff]
    simp only [new, mk.injEq]
    tauto
  case receiver =>
    intro m receiver
    exact ⟨_, parse_write _, rfl, rfl⟩

end SwapMemo

end LedgerBridge
