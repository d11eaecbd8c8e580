import LedgerBridge.Json.Reader
import LedgerBridge.Proofs.JsonTokens

/-! Reading back a written document. The tokens of a value bring the reader from where a value is
expected to where that value is complete, whatever is open around it. -/
namespace LedgerBridge.Json

/-- The reader after further tokens. -/
def readOn (r : Reader) (ts : List Token) : Option Reader := ts.foldlM Reader.step r

theorem readOn_cons (r : Reader) (t : Token) (ts : List Token) :
    readOn r (t :: ts) = (r.step t).bind fun r => readOn r ts :=
  List.foldlM_cons

theorem head?_tokens (d : Document) : ∃ t ts, tokens d = t :: ts ∧ t ≠ .closeList := by
  match d with
  | .null | .bool _ | .natural _ | .text _ | .list [] | .list (_ :: _) | .record []
  | .record (_ :: _) | .foreign => exact ⟨_, _, rfl, nofun⟩

/-- At its first item, a list is not yet told from an empty one. -/
theorem readOn_firstItem (d : Document) (stack : List Frame) (rest : List Token) :
    readOn (.firstItem stack) (tokens d ++ rest) =
      readOn (.value (.item [] :: stack)) (tokens d ++ rest) := by
  obtain ⟨t, ts, eq, notClosed⟩ := head?_tokens d
  have same : Reader.step (.firstItem stack) t = Reader.step (.value (.item [] :: stack)) t :=
    if_neg notClosed
  rw [eq, List.cons_append, readOn_cons, readOn_cons, same]

/-- A record whose keys are all strings. -/
theorem closeRecord_map_some (members : List (String × Document)) :
    closeRecord (members.map (Prod.map some id)) = .record members := by
  have all : (members.map (Prod.map some id)).mapM (fun member => member.1.map (·, member.2)) =
      some members := by
    induction members with
    | nil => rfl
    | cons member members ih => simp [List.mapM_cons, ih]
  simp only [closeRecord, all]

mutual

theorem readOn_tokens (d : Document) (stack : List Frame) (rest : List Token) :
    readOn (.value stack) (tokens d ++ rest) = readOn (Reader.deliver d stack) rest := by
  match d with
  | .null | .bool _ | .natural _ | .text _ | .list [] | .record [] | .foreign => rfl
  | .list (d :: items) =>
    calc
      readOn (.value stack) (tokens (.list (d :: items)) ++ rest)
      _ = readOn (.firstItem stack) (tokens d ++ (itemTokens items ++ rest)) := by
        simp only [tokens, List.cons_append, List.append_assoc]
        rfl
      _ = readOn (.afterItem [d] stack) (itemTokens items ++ rest) := by
        rw [readOn_firstItem, readOn_tokens d]
        rfl
      _ = readOn (Reader.deliver (.list (d :: items)) stack) rest :=
        readOn_itemTokens items [d] stack rest
  | .record ((key, d) :: members) =>
    calc
      readOn (.value stack) (tokens (.record ((key, d) :: members)) ++ rest)
      _ = readOn (.value (.member [] key :: stack)) (tokens d ++ (memberTokens members ++ rest)) := by
        simp only [tokens, List.cons_append, List.append_assoc]
        rfl
      _ = readOn (.afterMember [(some key, d)] stack) (memberTokens members ++ rest) :=
        readOn_tokens d _ _
      _ = readOn (Reader.deliver (.record ((key, d) :: members)) stack) rest :=
        readOn_memberTokens members [(key, d)] stack rest

theorem readOn_itemTokens (items before : List Document) (stack : List Frame) (rest : List Token) :
    readOn (.afterItem before.reverse stack) (itemTokens items ++ rest) =
      readOn (Reader.deliver (.list (before ++ items)) stack) rest := by
  match items with
  | [] => simp [itemTokens, readOn_cons, Reader.step]
  | d :: items =>
    have next := readOn_tokens d (.item before.reverse :: stack) (itemTokens items ++ rest)
    have others := readOn_itemTokens items (before ++ [d]) stack rest
    rw [List.reverse_append, List.append_assoc] at others
    simp only [itemTokens, List.cons_append, List.append_assoc]
    exact next.trans others

theorem readOn_memberTokens (members before : List (String × Document)) (stack : List Frame)
    (rest : List Token) :
    readOn (.afterMember (before.map (Prod.map some id)).reverse stack)
        (memberTokens members ++ rest) =
      readOn (Reader.deliver (.record (before ++ members)) stack) rest := by
  match members with
  | [] => simp [memberTokens, readOn_cons, Reader.step, closeRecord_map_some]
  | (key, d) :: members =>
    have next := readOn_tokens d (.member (before.map (Prod.map some id)).reverse key :: stack)
      (memberTokens members ++ rest)
    have others := readOn_memberTokens members (before ++ [(key, d)]) stack rest
    rw [List.map_append, List.reverse_append, List.append_assoc] at others
    simp only [memberTokens, List.cons_append, List.append_assoc]
    exact next.trans others

end

/-- A document is read from every text that has its tokens. -/
theorem parse_of_tokens? {s : String} {d : Document} (h : tokens? s.toList = some (tokens d)) :
    parse s = some d := by
  have read : readOn (.value []) (tokens d) = some (.done d) := by
    have read := readOn_tokens d [] []
    rwa [List.append_nil] at read
  rw [parse, h, Option.bind_eq_bind, Option.bind_some]
  change (readOn (.value []) (tokens d)).bind Reader.result? = some d
  rw [read]
  rfl

/-- Every document is read back from what is written of it. -/
theorem parse_pretty (d : Document) : parse (pretty d) = some d := parse_of_tokens? (tokens?_pretty d)

theorem parse_write (d : Document) : parse (write d) = some d := parse_of_tokens? (tokens?_write d)

end LedgerBridge.Json
