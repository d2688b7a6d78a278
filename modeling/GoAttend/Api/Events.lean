import GoAttend.Attendance.Statement
import GoAttend.Lib.GoScan

/-! `GET /v1/events` in `cmd/api`: the query's `limit` and `offset`, read by `strconv.Atoi` over
the defaults 50 and 0, are handed with the filters to `Repository.ListEvents`. A page size or a
start written as Go prints it is used as written; one that `Atoi` rejects keeps the default, and
`ListEvents` replaces a page size that is not positive by 50 and a negative start by 0. -/

namespace GoAttend.Api

open Attendance Lib.GoScan Lib.Paging

/-- The query of `GET /v1/events`; a parameter that is absent is the empty string. -/
structure EventsQuery where
  deviceID : String
  userID : String
  limit : String
  offset : String

/-- `if v := c.Query(..); v != "" { if parsed, err := strconv.Atoi(v); err == nil { .. } }`. -/
def queryInt (v : String) (default : ℤ) : ℤ :=
  if v ≠ "" then (atoi v).getD default else default

/-- What the handler hands to `ListEvents`: the filters, the page size and the start. -/
def EventsQuery.args (q : EventsQuery) : String × String × ℤ × ℤ :=
  (q.deviceID, q.userID, queryInt q.limit 50, queryInt q.offset 0)

/-- `GET /v1/events`: `res` is a list of events the handler may answer with over the table. -/
def ListEventsHandler (events : List Event) (q : EventsQuery) (res : List Event) : Prop :=
  ListEvents events q.args.1 q.args.2.1 q.args.2.2.1 q.args.2.2.2 res

/-! ## The page the handler answers with -/

/-- `Atoi` reads what Go prints, so a parameter written so is used as written. -/
theorem queryInt_repr {v : ℤ} (hv : Fits64 v) (default : ℤ) : queryInt (toString v) default = v := by
  have hne : toString v ≠ "" := fun h =>
    toList_toString_int_ne_nil v (by rw [h]; rfl)
  simp only [queryInt, if_pos hne, atoi, parseInt_repr hv, Option.getD_some]

/-- A parameter `Atoi` rejects keeps the default. -/
theorem queryInt_of_atoi_eq_none {v : String} (h : atoi v = none) (default : ℤ) :
    queryInt v default = default := by
  by_cases hv : v = ""
  · simp [queryInt, hv]
  · simp [queryInt, hv, h]

/-- The handler answers the matching events in an order of `occurred_at` descending, past the
start, as many as the page size. -/
theorem listEventsHandler_iff {events res : List Event} {q : EventsQuery} :
    ListEventsHandler events q res ↔
      ∃ o, IsOrdering Event.occurredAt (events.filter (Matches q.deviceID q.userID)) o ∧
        res = (o.drop (if queryInt q.offset 0 < 0 then 0 else queryInt q.offset 0).toNat).take
          (if queryInt q.limit 50 ≤ 0 then 50 else queryInt q.limit 50).toNat :=
  listEvents_iff

/-- `GET /v1/events?limit=L&offset=O`, with `L` and `O` written as Go prints them, answers the
matching events newest first, skipping `O` of them and keeping `L`, however large `L` is; a limit
that `Atoi` rejects or that is not positive keeps 50 of them, and an offset it rejects skips none. -/
theorem events_query_page (events : List Event) (deviceID userID : String) (res : List Event) :
    (∀ L O : ℕ, 1 ≤ L → L < 2 ^ 63 → O < 2 ^ 63 →
      (ListEventsHandler events ⟨deviceID, userID, toString L, toString O⟩ res ↔
        ∃ o, IsOrdering Event.occurredAt (events.filter (Matches deviceID userID)) o ∧
          res = (o.drop O).take L)) ∧
    ∀ lim off : String, (atoi lim = none ∨ ∃ n ≤ 0, atoi lim = some n) → atoi off = none →
      (ListEventsHandler events ⟨deviceID, userID, lim, off⟩ res ↔
        ∃ o, IsOrdering Event.occurredAt (events.filter (Matches deviceID userID)) o ∧
          res = o.take 50) := by
  refine ⟨fun L O hL hL' hO => ?_, fun lim off hlim hoff => ?_⟩
  · -- both parameters read back as written
    have hLfits : Fits64 (L : ℤ) := ⟨by omega, by exact_mod_cast hL'⟩
    have hOfits : Fits64 (O : ℤ) := ⟨by omega, by exact_mod_cast hO⟩
    have hlim : queryInt (toString L) 50 = L := queryInt_repr hLfits 50
    have hoff : queryInt (toString O) 0 = O := queryInt_repr hOfits 0
    rw [listEventsHandler_iff]
    simp only [hlim, hoff]
    rw [if_neg (by omega), if_neg (by omega), Int.toNat_natCast, Int.toNat_natCast]
  · -- the defaults, and the page size `ListEvents` puts for one that is not positive
    have hlim' : (if queryInt lim 50 ≤ 0 then 50 else queryInt lim 50) = 50 := by
      rcases hlim with hlim | ⟨n, hn, hlim⟩
      · rw [queryInt_of_atoi_eq_none hlim]
        rfl
      · have hne : lim ≠ "" := by
          rintro rfl
          simp [atoi, parseInt, splitSign] at hlim
        simp only [queryInt, if_pos hne, hlim, Option.getD_some, if_pos hn]
    rw [listEventsHandler_iff]
    simp only [hlim', queryInt_of_atoi_eq_none hoff]
    rfl

/-- A pending event with empty fields at time `t`. -/
def eventAt (t : ℕ) : Event := ⟨"", "", "", t, "", "", .pending, none⟩

/-- Of three events, `limit=1&offset=1` answers the middle one, and a query without parameters
answers all three, newest first. -/
theorem events_query_page_three :
    ListEventsHandler [eventAt 1, eventAt 2, eventAt 3] ⟨"", "", toString (1 : ℕ), toString (1 : ℕ)⟩
        [eventAt 2] ∧
      ListEventsHandler [eventAt 1, eventAt 2, eventAt 3] ⟨"", "", "", ""⟩
        [eventAt 3, eventAt 2, eventAt 1] := by
  have hempty : atoi "" = none := rfl
  have hord : IsOrdering Event.occurredAt ([eventAt 1, eventAt 2, eventAt 3].filter (Matches "" ""))
      [eventAt 3, eventAt 2, eventAt 1] := by
    refine ⟨?_, by simp [eventAt]⟩
    simpa [Matches] using (List.reverse_perm [eventAt 1, eventAt 2, eventAt 3])
  have hfits : (1 : ℕ) < 2 ^ 63 := by decide
  have hpage := (events_query_page [eventAt 1, eventAt 2, eventAt 3] "" "" [eventAt 2]).1
    1 1 le_rfl hfits hfits
  have hdefault := (events_query_page [eventAt 1, eventAt 2, eventAt 3] "" ""
    [eventAt 3, eventAt 2, eventAt 1]).2 "" "" (.inl hempty) hempty
  exact ⟨hpage.mpr ⟨_, hord, rfl⟩, hdefault.mpr ⟨_, hord, rfl⟩⟩

end GoAttend.Api
