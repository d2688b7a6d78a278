import GoAttend.Attendance.Repository
import GoAttend.Lib.Paging

/-! `Repository.ListEvents`, the query behind `GET /v1/events`. The statement is kept as its
syntax: the columns it compares with placeholders, numbered as the code numbers them while it
collects the arguments, and the placeholders of `LIMIT` and `OFFSET`. An execution returns the rows
that pass the `WHERE` clause ordered by `occurred_at` descending, rows with equal times in any
order, which may change from one execution to the next; it skips `OFFSET` rows and keeps `LIMIT`. -/

namespace GoAttend.Attendance

open Lib.Paging

/-- The columns `ListEvents` may compare. -/
inductive Column
  | deviceId
  | userId
  deriving DecidableEq, Repr

def Column.read : Column → Event → String
  | .deviceId, e => e.deviceId
  | .userId, e => e.userId

/-- An argument bound to a placeholder: a Go `string` or `int`. -/
inductive Arg
  | str (s : String)
  | int (i : ℤ)
  deriving DecidableEq, Repr

/-- `SELECT ... FROM attendance_events [WHERE c = $i AND ...] ORDER BY occurred_at DESC
LIMIT $l OFFSET $o`, by the numbers of its placeholders. -/
structure Select where
  conds : List (Column × ℕ)
  limit : ℕ
  offset : ℕ
  deriving DecidableEq, Repr

/-- The argument of placeholder `$i`; they count from one. -/
def bind (args : List Arg) : ℕ → Option Arg
  | 0 => none
  | i + 1 => args[i]?

/-- A row passes `WHERE` when each compared column holds the text bound to its placeholder. -/
def Select.passes (s : Select) (args : List Arg) (e : Event) : Bool :=
  s.conds.all fun c => bind args c.2 == some (.str (c.1.read e))

/-- What an execution of the statement over the rows `events` may return. -/
def Select.Returns (s : Select) (args : List Arg) (events res : List Event) : Prop :=
  ∃ lim off : ℕ, bind args s.limit = some (.int lim) ∧ bind args s.offset = some (.int off) ∧
    ∃ o, IsOrdering Event.occurredAt (events.filter (s.passes args)) o ∧ res = (o.drop off).take lim

/-- `clauses = append(clauses, col+" = $"+itoa(len(args)+1)); args = append(args, v)`. -/
def addClause (col : Column) (v : String) (q : List (Column × ℕ) × List Arg) :
    List (Column × ℕ) × List Arg :=
  (q.1 ++ [(col, q.2.length + 1)], q.2 ++ [.str v])

/-- The statement and the arguments `Repository.ListEvents` sends. -/
def listEventsQuery (deviceID userID : String) (limit offset : ℤ) : Select × List Arg :=
  let limit := if limit ≤ 0 then 50 else limit
  let offset := if offset < 0 then 0 else offset
  let q : List (Column × ℕ) × List Arg := ([], [])
  let q := if deviceID ≠ "" then addClause .deviceId deviceID q else q
  let q := if userID ≠ "" then addClause .userId userID q else q
  (⟨q.1, q.2.length + 1, q.2.length + 2⟩, q.2 ++ [.int limit, .int offset])

/-- `Repository.ListEvents`: `res` is a result it may return over the table `events`. -/
def ListEvents (events : List Event) (deviceID userID : String) (limit offset : ℤ)
    (res : List Event) : Prop :=
  (listEventsQuery deviceID userID limit offset).1.Returns
    (listEventsQuery deviceID userID limit offset).2 events res

/-- The rows the filters ask for; an empty filter lets every row through. -/
def Matches (deviceID userID : String) (e : Event) : Bool :=
  (deviceID == "" || e.deviceId == deviceID) && (userID == "" || e.userId == userID)

/-! ## What the statement means -/

theorem bind_limit (args : List Arg) (l o : Arg) :
    bind (args ++ [l, o]) (args.length + 1) = some l := by
  simp [bind]

theorem bind_offset (args : List Arg) (l o : Arg) :
    bind (args ++ [l, o]) (args.length + 2) = some o := by
  simp [bind]

/-- The placeholders of the `WHERE` clause are numbered after the arguments they bind, so the
clause keeps the rows the filters ask for. -/
theorem passes_listEventsQuery (deviceID userID : String) (limit offset : ℤ) :
    (listEventsQuery deviceID userID limit offset).1.passes
      (listEventsQuery deviceID userID limit offset).2 = Matches deviceID userID := by
  funext e
  rw [Bool.eq_iff_iff]
  by_cases hd : deviceID = "" <;> by_cases hu : userID = "" <;>
    simp [listEventsQuery, addClause, Select.passes, bind, Matches, Column.read, hd, hu] <;> grind

/-- What `ListEvents` may return: a page of an ordering of the matching rows, with a limit that
is not positive read as 50 and a negative offset as 0. -/
theorem listEvents_iff {events res : List Event} {deviceID userID : String} {limit offset : ℤ} :
    ListEvents events deviceID userID limit offset res ↔
      ∃ o, IsOrdering Event.occurredAt (events.filter (Matches deviceID userID)) o ∧
        res = (o.drop (if offset < 0 then 0 else offset).toNat).take
          (if limit ≤ 0 then 50 else limit).toNat := by
  have hl : 0 ≤ if limit ≤ 0 then 50 else limit := by split_ifs <;> omega
  have ho : 0 ≤ if offset < 0 then 0 else offset := by split_ifs <;> omega
  unfold ListEvents Select.Returns
  rw [passes_listEventsQuery]
  constructor
  · rintro ⟨lim, off, hlim, hoff, o, hord, rfl⟩
    simp only [listEventsQuery, bind_limit, bind_offset, Option.some.injEq, Arg.int.injEq] at hlim hoff
    refine ⟨o, hord, ?_⟩
    rw [hlim, hoff, Int.toNat_natCast, Int.toNat_natCast]
  · rintro ⟨o, hord, rfl⟩
    refine ⟨_, _, ?_, ?_, o, hord, rfl⟩
    · simp only [listEventsQuery, bind_limit, Int.toNat_of_nonneg hl]
    · simp only [listEventsQuery, bind_offset, Int.toNat_of_nonneg ho]

/-! ## Paging through the events -/

section Paging

variable {events : List Event} {deviceID userID : String} {L : ℕ}

/-- The page at offset `k * L` is a page of some ordering of the matching rows. -/
theorem listEvents_page_iff (hL : 1 ≤ L) (k : ℕ) {res : List Event} :
    ListEvents events deviceID userID L (k * L : ℕ) res ↔
      ∃ o, IsOrdering Event.occurredAt (events.filter (Matches deviceID userID)) o ∧
        res = (o.drop (k * L)).take L := by
  have hl : ¬ ((L : ℤ) ≤ 0) := by omega
  have ho : ¬ (((k * L : ℕ) : ℤ) < 0) := by omega
  rw [listEvents_iff, if_neg hl, if_neg ho, Int.toNat_natCast, Int.toNat_natCast]

/-- Paging through `ListEvents` with pages of `L` rows at offsets `0, L, 2 * L, ...`, each page its
own execution. Past the first `n` pages, where `n * L` covers the matching rows, every page is
empty. The first `n` pages list as many rows as match, all of them matching rows, with
`occurred_at` non-increasing. They list every matching row exactly once when the matching rows
have distinct times; and they do so for every choice the executions may make exactly when each
page boundary splits the matching rows by time, no two rows of one time on either side of it. -/
theorem listEvents_paging (events : List Event) (hnd : events.Nodup) (deviceID userID : String)
    {L : ℕ} (hL : 1 ≤ L) {n : ℕ} (hn : (events.filter (Matches deviceID userID)).length ≤ n * L)
    (page : ℕ → List Event)
    (hpage : ∀ k : ℕ, ListEvents events deviceID userID L (k * L : ℕ) (page k)) :
    (∀ k, n ≤ k → page k = []) ∧
    (((List.range n).flatMap page).map Event.occurredAt).Pairwise (· ≥ ·) ∧
    ((List.range n).flatMap page).length = (events.filter (Matches deviceID userID)).length ∧
    (∀ e ∈ (List.range n).flatMap page, e ∈ events ∧ Matches deviceID userID e = true) ∧
    (((events.filter (Matches deviceID userID)).map Event.occurredAt).Nodup →
      ((List.range n).flatMap page).Perm (events.filter (Matches deviceID userID))) ∧
    ((∀ page' : ℕ → List Event, (∀ k : ℕ, ListEvents events deviceID userID L (k * L : ℕ) (page' k)) →
        ((List.range n).flatMap page').Perm (events.filter (Matches deviceID userID))) ↔
      ∀ k, Splits Event.occurredAt (events.filter (Matches deviceID userID)) (k * L)) := by
  have hres := fun k => (listEvents_page_iff hL k).mp (hpage k)
  obtain ⟨o, ho⟩ : ∃ o, IsOrdering Event.occurredAt (events.filter (Matches deviceID userID)) o :=
    exists_isOrdering _
  -- the pages carry the times of `o`, which covers all of them
  have hkeys : ((List.range n).flatMap page).map Event.occurredAt = o.map Event.occurredAt := by
    rw [map_key_pages hres ho n, List.take_of_length_le (ho.length_eq ▸ hn)]
  refine ⟨fun k hk => page_eq_nil hres (hn.trans (Nat.mul_le_mul_right L hk)), ?_, ?_, ?_, ?_, ?_⟩
  · rw [hkeys]
    exact List.pairwise_map.mpr ho.2
  · rw [← List.length_map (f := Event.occurredAt), hkeys, List.length_map, ho.length_eq]
  · intro e he
    obtain ⟨k, -, hk⟩ := List.mem_flatMap.mp he
    obtain ⟨o', ho', hpk⟩ := hres k
    rw [hpk] at hk
    have hmem := ho'.1.mem_iff.mp (List.mem_of_mem_drop (List.mem_of_mem_take hk))
    exact List.mem_filter.mp hmem
  · intro hkeys'
    exact pages_perm_rows hres hn fun k => splits_of_nodup hkeys' (k * L)
  · simp only [listEvents_page_iff hL]
    exact pages_perm_iff (hnd.filter _) hL hn

/-- Four check-ins of one user, two of them at one time, and one of another user, in pages of
two: the tie lies inside the first page, so every choice of the executions lists each of the
user's rows once, and the third page on is empty. -/
theorem listEvents_paging_tied_pages :
    let ev : String → String → ℕ → Event := fun id u t => ⟨id, u, "d", t, "", "", .pending, none⟩
    let events := [ev "x" "v" 3, ev "c" "u" 1, ev "a" "u" 2, ev "d" "u" 0, ev "b" "u" 2]
    let page : ℕ → List Event := fun k =>
      if k = 0 then [ev "b" "u" 2, ev "a" "u" 2] else if k = 1 then [ev "c" "u" 1, ev "d" "u" 0]
      else []
    (∀ k, 2 ≤ k → page k = []) ∧
      ((List.range 2).flatMap page).Perm (events.filter (Matches "" "u")) ∧
      ∀ page' : ℕ → List Event, (∀ k : ℕ, ListEvents events "" "u" (2 : ℕ) (k * 2 : ℕ) (page' k)) →
        ((List.range 2).flatMap page').Perm (events.filter (Matches "" "u")) := by
  intro ev events page
  have hrows : events.filter (Matches "" "u") =
      [ev "c" "u" 1, ev "a" "u" 2, ev "d" "u" 0, ev "b" "u" 2] := by decide
  have ho : IsOrdering Event.occurredAt (events.filter (Matches "" "u"))
      [ev "b" "u" 2, ev "a" "u" 2, ev "c" "u" 1, ev "d" "u" 0] := by
    rw [hrows]
    exact ⟨by decide, by decide⟩
  have hpage : ∀ k : ℕ, ListEvents events "" "u" (2 : ℕ) (k * 2 : ℕ) (page k) := by
    intro k
    rw [listEvents_page_iff (L := 2) (by decide)]
    refine ⟨_, ho, ?_⟩
    rcases k with _ | _ | k
    · rfl
    · rfl
    · -- past the four rows
      have hk : [ev "b" "u" 2, ev "a" "u" 2, ev "c" "u" 1, ev "d" "u" 0].length ≤ (k + 1 + 1) * 2 := by
        simp only [List.length_cons, List.length_nil]
        omega
      simp [page, List.drop_eq_nil_of_le hk]
  -- the page boundaries: 0, then the two rows later than time 1, then past the rows
  have hsplit : ∀ k, Splits Event.occurredAt (events.filter (Matches "" "u")) (k * 2) := by
    rw [hrows]
    rintro (_ | _ | k)
    · exact Or.inl rfl
    · exact Or.inr (Or.inr ⟨1, by decide⟩)
    · refine Or.inr (Or.inl ?_)
      simp only [List.length_cons, List.length_nil]
      omega
  have h := listEvents_paging events (by decide) "" "u" (by decide) (n := 2)
    (by rw [hrows]; decide) page hpage
  exact ⟨h.1, h.2.2.2.2.2.mpr hsplit page hpage, h.2.2.2.2.2.mpr hsplit⟩

/-- Two check-ins at the same time and pages of one row: each execution may put either first, so
both pages may return the same row, which is then listed twice and the other one never. -/
theorem listEvents_tie_listed_twice :
    let a : Event := ⟨"a", "u", "d", 0, "", "", .pending, none⟩
    let b : Event := ⟨"b", "u", "d", 0, "", "", .pending, none⟩
    (∀ k : ℕ, ListEvents [a, b] "" "" (1 : ℕ) (k * 1 : ℕ) (if k < 2 then [a] else [])) ∧
      (List.range 2).flatMap (fun k => if k < 2 then [a] else []) = [a, a] := by
  intro a b
  have hrows : [a, b].filter (Matches "" "") = [a, b] := by simp [Matches]
  -- the executions may order the tie either way
  have hab : IsOrdering Event.occurredAt ([a, b].filter (Matches "" "")) [a, b] := by
    simp [hrows, IsOrdering, a, b]
  have hba : IsOrdering Event.occurredAt ([a, b].filter (Matches "" "")) [b, a] := by
    simpa [hrows, IsOrdering, a, b] using List.Perm.swap a b []
  refine ⟨fun k => ?_, rfl⟩
  rw [listEvents_page_iff le_rfl]
  rcases k with _ | _ | k
  · exact ⟨[a, b], hab, rfl⟩
  · exact ⟨[b, a], hba, rfl⟩
  · exact ⟨[a, b], hab, by simp⟩

end Paging

end GoAttend.Attendance
