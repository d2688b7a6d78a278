import GoAttend.Attendance.Listing

/-! The text of the statement `Repository.ListEvents` sends, pasted together as the code does with
`itoa` and `joinClauses`. It is the printing of the statement's syntax `Select`, so the meaning
`Listing` gives the syntax is the meaning of the text. -/

namespace GoAttend.Attendance

/-- `itoa`: `fmt.Sprintf("%d", i)`. -/
def itoa (i : ℤ) : String := toString i

/-- `joinClauses`: the first part, then `sep` and each further part. -/
def joinClauses (parts : List String) (sep : String) : String :=
  match parts with
  | [] => ""
  | p :: ps => ps.foldl (fun out part => out ++ sep ++ part) p

/-- The text of a `WHERE` clause on a column, up to its placeholder's number. -/
def Column.clause : Column → String
  | .deviceId => "device_id = $"
  | .userId => "user_id = $"

/-- The start of the statement: its columns and its table. -/
def listEventsSelect : String :=
  "SELECT id, user_id, device_id, occurred_at, location, image_url, status, match_score, created_at FROM attendance_events"

/-- `clauses = append(clauses, "<column> = $"+itoa(len(args)+1)); args = append(args, v)`. -/
def appendClause (col : Column) (v : String) (q : List String × List Arg) : List String × List Arg :=
  (q.1 ++ [col.clause ++ itoa (q.2.length + 1 : ℕ)], q.2 ++ [.str v])

/-- The text and the arguments `Repository.ListEvents` hands to `QueryContext`. -/
def listEventsStatement (deviceID userID : String) (limit offset : ℤ) : String × List Arg :=
  let limit := if limit ≤ 0 then 50 else limit
  let offset := if offset < 0 then 0 else offset
  let q : List String × List Arg := ([], [])
  let q := if deviceID ≠ "" then appendClause .deviceId deviceID q else q
  let q := if userID ≠ "" then appendClause .userId userID q else q
  let query := if q.1.length > 0 then listEventsSelect ++ " WHERE " ++ joinClauses q.1 " AND "
    else listEventsSelect
  let query := query ++ " ORDER BY occurred_at DESC LIMIT $" ++ itoa (q.2.length + 1 : ℕ) ++
    " OFFSET $" ++ itoa (q.2.length + 2 : ℕ)
  (query, q.2 ++ [.int limit, .int offset])

/-- The printing of a statement: each condition is its column's clause and its placeholder's
number, joined by `AND`. -/
def Select.text (s : Select) : String :=
  listEventsSelect ++
    (if s.conds = [] then ""
      else " WHERE " ++ " AND ".intercalate (s.conds.map fun c => c.1.clause ++ toString c.2)) ++
    " ORDER BY occurred_at DESC LIMIT $" ++ toString s.limit ++ " OFFSET $" ++ toString s.offset

/-! ## The text is the printing of the syntax -/

/-- The loop of `joinClauses` is `strings.Join`'s: the separator between consecutive parts. -/
theorem joinClauses_eq (parts : List String) (sep : String) :
    joinClauses parts sep = sep.intercalate parts := by
  cases parts with
  | nil => rfl
  | cons p ps =>
    -- the loop's accumulator is the parts seen so far, joined
    have h : ∀ acc, ps.foldl (fun out part => out ++ sep ++ part) acc = sep.intercalate (acc :: ps) := by
      induction ps with
      | nil => intro acc; simp
      | cons a as ih =>
        intro acc
        rw [List.foldl_cons, ih, String.intercalate_cons_append, String.intercalate_cons_cons]
    exact h p

/-- The text `ListEvents` builds is the printing of the statement `listEventsQuery` describes,
sent with the same arguments. -/
theorem listEventsStatement_eq (deviceID userID : String) (limit offset : ℤ) :
    listEventsStatement deviceID userID limit offset =
      ((listEventsQuery deviceID userID limit offset).1.text,
        (listEventsQuery deviceID userID limit offset).2) := by
  by_cases hd : deviceID = "" <;> by_cases hu : userID = "" <;>
    simp [listEventsStatement, listEventsQuery, appendClause, addClause, Select.text, hd, hu,
      joinClauses_eq, itoa, String.append_assoc] <;> rfl

end GoAttend.Attendance
