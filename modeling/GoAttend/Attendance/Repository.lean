import Mathlib.Data.List.Basic
import Mathlib.Data.Int.Notation
import Mathlib.Data.Rat.Init

namespace GoAttend.Attendance

/-- The `status` column of `attendance_events`, with the three values the code writes. -/
inductive Status
  | pending
  | processed
  | failed
  deriving DecidableEq, Repr

/-- A row of `attendance_events` (`attendance.Event`). Times are readings of the one clock the
API's `time.Now()` and the database's `NOW()` share, in microseconds, the resolution of
`TIMESTAMPTZ`. Scores are the float64 values the worker copies through unchanged. -/
structure Event where
  id : String
  userId : String
  deviceId : String
  occurredAt : ℕ
  location : String
  imageUrl : String
  status : Status
  matchScore : Option ℚ
  deriving DecidableEq, Repr

/-- The body of `POST /v1/checkins`, the four arguments of `Service.CheckIn`. -/
structure CheckinRequest where
  userId : String
  deviceId : String
  location : String
  imageUrl : String
  deriving DecidableEq, Repr

/-- `NewService`: a non-positive window falls back to five minutes. -/
def dedupWindow (d : ℤ) : ℕ := if d ≤ 0 then 300000000 else d.toNat

/-- `Repository.UpsertDevice`: `INSERT INTO devices ... ON CONFLICT (device_id) DO NOTHING`. -/
def upsertDevice (devices : List String) (deviceId : String) : Except String (List String) :=
  if deviceId = "" then .error "device id required"
  else .ok (if deviceId ∈ devices then devices else devices ++ [deviceId])

/-- `Service.RegisterDevice`, which repeats the repository's emptiness check. -/
def registerDevice (devices : List String) (deviceId : String) : Except String (List String) :=
  if deviceId = "" then .error "device id required" else upsertDevice devices deviceId

/-- The `WHERE` clause of `Repository.RecentEvent`:
`user_id = $1 AND device_id = $2 AND occurred_at >= NOW() - ($3 * interval '1 second')`. -/
def InWindow (now window : ℕ) (userId deviceId : String) (e : Event) : Prop :=
  e.userId = userId ∧ e.deviceId = deviceId ∧ now - window ≤ e.occurredAt

instance (now window : ℕ) (userId deviceId : String) :
    DecidablePred (InWindow now window userId deviceId) :=
  fun _ => inferInstanceAs (Decidable (_ ∧ _ ∧ _))

/-- A row `RecentEvent` may return: one of the window with the greatest `occurred_at`.
`ORDER BY occurred_at DESC LIMIT 1` leaves the choice among equal times to the database. -/
def IsRecentEvent (events : List Event) (now window : ℕ) (userId deviceId : String)
    (e : Event) : Prop :=
  e ∈ events ∧ InWindow now window userId deviceId e ∧
    ∀ e' ∈ events, InWindow now window userId deviceId e' → e'.occurredAt ≤ e.occurredAt

/-- The row `Service.CheckIn` builds, with the `uuid` that `InsertEvent` gives it. -/
def newEvent (id : String) (req : CheckinRequest) (when : ℕ) : Event where
  id := id
  userId := req.userId
  deviceId := req.deviceId
  occurredAt := when
  location := req.location
  imageUrl := req.imageUrl
  status := .pending
  matchScore := none

/-- `Repository.InsertEvent`: the foreign key on `device_id` and the primary key on `id` are the
ways the statement itself rejects a row. -/
def insertEvent (devices : List String) (events : List Event) (e : Event) : Option (List Event) :=
  if e.deviceId ∈ devices ∧ e.id ∉ events.map Event.id then some (events ++ [e]) else none

/-- `Repository.GetEvent`: the row with this id; no row is `sql.ErrNoRows`. -/
def getEvent (events : List Event) (id : String) : Option Event :=
  events.find? fun e => e.id == id

/-- `Repository.UpdateEventStatus`:
`SET status = $2, match_score = COALESCE($3, match_score) WHERE id = $1`. -/
def updateEventStatus (events : List Event) (id : String) (status : Status)
    (score : Option ℚ) : List Event :=
  events.map fun e => if e.id = id then { e with status, matchScore := score.or e.matchScore } else e

theorem insertEvent_eq_some {devices : List String} {events events' : List Event} {e : Event} :
    insertEvent devices events e = some events' ↔
      e.deviceId ∈ devices ∧ e.id ∉ events.map Event.id ∧ events' = events ++ [e] := by
  unfold insertEvent
  split_ifs with h
  · simp [h, eq_comm]
  · simp only [false_iff]
    tauto

@[simp] theorem length_updateEventStatus (events : List Event) (id : String) (st : Status)
    (sc : Option ℚ) : (updateEventStatus events id st sc).length = events.length := by
  simp [updateEventStatus]

/-- The columns of a row that `UpdateEventStatus` never writes. -/
structure Stamp where
  id : String
  userId : String
  deviceId : String
  occurredAt : ℕ
  deriving DecidableEq, Repr

def Event.stamp (e : Event) : Stamp := ⟨e.id, e.userId, e.deviceId, e.occurredAt⟩

@[simp] theorem map_stamp_updateEventStatus (events : List Event) (id : String) (st : Status)
    (sc : Option ℚ) : (updateEventStatus events id st sc).map Event.stamp = events.map Event.stamp := by
  simp only [updateEventStatus, List.map_map]
  congr 1
  funext e
  by_cases h : e.id = id <;> simp [Event.stamp, h]

end GoAttend.Attendance
