import GoAttend.Attendance.Repository
import GoAttend.Lib.Transition

namespace GoAttend.Attendance

/-- Where one `POST /v1/checkins` handler stands. The count `seen` of rows the table held when
its `RecentEvent` ran is ghost state, kept for the dedup theorems; the code has no such count. -/
inductive Handler
  | idle
  | checkIn (req : CheckinRequest)
  | fresh (req : CheckinRequest) (seen : ℕ)
  | insert (req : CheckinRequest) (seen when : ℕ)
  | publish (id : String)
  deriving DecidableEq, Repr

/-- Where the worker's message loop stands. -/
inductive Worker
  | idle
  | fetch (id : String)
  | embed (id imageUrl : String)
  | update (id : String) (status : Status) (score : Option ℚ)
  deriving DecidableEq, Repr

/-- The API's handlers, Postgres, the Redis list `attendance:checkins` (oldest message first,
each the id of a `checkin` message) and the worker. `subjects` are the `Subject` claims of the
tokens `POST /v1/devices/register` handed out; `seen` is the ghost count of each row's
`RecentEvent`, in row order. -/
structure State where
  clock : ℕ
  devices : List String
  subjects : List String
  events : List Event
  seen : List ℕ
  queue : List String
  handlers : ℕ → Handler
  worker : Worker

/-- What one step of the system does, with the choices the environment makes in it: which row a
query returns, which `uuid` an insert gets, which outcome a failing call has. -/
inductive Action
  | tick
  | register (deviceId : String)
  | arrive (h : ℕ) (subject : String) (req : CheckinRequest)
  | recentFail (h : ℕ)
  | recentHit (h : ℕ) (e : Event)
  | recentMiss (h : ℕ)
  | stamp (h : ℕ)
  | insertOk (h : ℕ) (id : String)
  | insertFail (h : ℕ)
  | insertLost (h : ℕ) (id : String)
  | publishOk (h : ℕ)
  | publishFail (h : ℕ)
  | receive
  | fetchOk (e : Event)
  | fetchFail
  | embedOk (score : ℚ)
  | embedFail
  | updateOk
  | updateFail
  deriving DecidableEq, Repr

def State.setHandler (s : State) (h : ℕ) (x : Handler) : State :=
  { s with handlers := Function.update s.handlers h x }

section setHandler

variable (s : State) (h : ℕ) (x : Handler)

@[simp] theorem setHandler_clock : (s.setHandler h x).clock = s.clock := rfl
@[simp] theorem setHandler_devices : (s.setHandler h x).devices = s.devices := rfl
@[simp] theorem setHandler_subjects : (s.setHandler h x).subjects = s.subjects := rfl
@[simp] theorem setHandler_events : (s.setHandler h x).events = s.events := rfl
@[simp] theorem setHandler_seen : (s.setHandler h x).seen = s.seen := rfl
@[simp] theorem setHandler_queue : (s.setHandler h x).queue = s.queue := rfl
@[simp] theorem setHandler_worker : (s.setHandler h x).worker = s.worker := rfl
@[simp] theorem setHandler_handlers :
    (s.setHandler h x).handlers = Function.update s.handlers h x := rfl

end setHandler

/-- One step of the API, the database, the queue and the worker. Each API handler follows
`POST /v1/checkins` one statement at a time, so handlers interleave with each other and with the
worker. A request reaches `CheckIn` only with a token `DeviceAuth` admits; as only
`POST /v1/devices/register` signs tokens, its `Subject` is one that route handed out. -/
inductive Step (window : ℕ) : State → Action → State → Prop
  /-- The shared clock advances. -/
  | tick (s : State) : Step window s .tick { s with clock := s.clock + 1 }
  /-- `POST /v1/devices/register`: `device_id` binds (required), `RegisterDevice` upserts it, and
  `Issue` signs two tokens whose `Subject` is that id. -/
  | register (s : State) (d : String) (devices : List String) (hd : d ≠ "")
      (hreg : registerDevice s.devices d = .ok devices) :
      Step window s (.register d) { s with devices, subjects := s.subjects ++ [d] }
  /-- The request binds (`user_id` and `device_id` required) and passes the handler's check
  `claims.Subject != "" && claims.Subject != req.DeviceID`. -/
  | arrive (s : State) (h : ℕ) (subject : String) (req : CheckinRequest)
      (hidle : s.handlers h = .idle) (hsub : subject ∈ s.subjects)
      (hbind : req.userId ≠ "" ∧ req.deviceId ≠ "")
      (hclaims : ¬(subject ≠ "" ∧ subject ≠ req.deviceId)) :
      Step window s (.arrive h subject req) (s.setHandler h (.checkIn req))
  /-- `RecentEvent` fails; the handler answers 400. -/
  | recentFail (s : State) (h : ℕ) (req : CheckinRequest) (hh : s.handlers h = .checkIn req) :
      Step window s (.recentFail h) (s.setHandler h .idle)
  /-- `RecentEvent` returns a row of the window; `CheckIn` returns it and the handler goes on to
  publish its id. -/
  | recentHit (s : State) (h : ℕ) (req : CheckinRequest) (e : Event)
      (hh : s.handlers h = .checkIn req)
      (he : IsRecentEvent s.events s.clock window req.userId req.deviceId e) :
      Step window s (.recentHit h e) (s.setHandler h (.publish e.id))
  /-- `RecentEvent` finds no row in the window. -/
  | recentMiss (s : State) (h : ℕ) (req : CheckinRequest) (hh : s.handlers h = .checkIn req)
      (hnone : ∀ e ∈ s.events, ¬InWindow s.clock window req.userId req.deviceId e) :
      Step window s (.recentMiss h) (s.setHandler h (.fresh req s.events.length))
  /-- `CheckIn` reads `time.Now()` for the new row. -/
  | stamp (s : State) (h : ℕ) (req : CheckinRequest) (n : ℕ) (hh : s.handlers h = .fresh req n) :
      Step window s (.stamp h) (s.setHandler h (.insert req n s.clock))
  /-- `InsertEvent` stores the pending row under a new `uuid`. -/
  | insertOk (s : State) (h : ℕ) (req : CheckinRequest) (n t : ℕ) (id : String)
      (events : List Event) (hh : s.handlers h = .insert req n t)
      (hins : insertEvent s.devices s.events (newEvent id req t) = some events) :
      Step window s (.insertOk h id)
        { s.setHandler h (.publish id) with events, seen := s.seen ++ [n] }
  /-- `InsertEvent` fails; the handler answers 400. -/
  | insertFail (s : State) (h : ℕ) (req : CheckinRequest) (n t : ℕ)
      (hh : s.handlers h = .insert req n t) :
      Step window s (.insertFail h) (s.setHandler h .idle)
  /-- `InsertEvent` commits the row but its `RETURNING` scan still returns an error (the request's
  context ends after the commit); the handler answers 400 and publishes nothing. -/
  | insertLost (s : State) (h : ℕ) (req : CheckinRequest) (n t : ℕ) (id : String)
      (events : List Event) (hh : s.handlers h = .insert req n t)
      (hins : insertEvent s.devices s.events (newEvent id req t) = some events) :
      Step window s (.insertLost h id) { s.setHandler h .idle with events, seen := s.seen ++ [n] }
  /-- `Publish` pushes the `checkin` message with the event id. -/
  | publishOk (s : State) (h : ℕ) (id : String) (hh : s.handlers h = .publish id) :
      Step window s (.publishOk h) { s.setHandler h .idle with queue := s.queue ++ [id] }
  /-- `Publish` fails; the handler logs it and still answers 202. -/
  | publishFail (s : State) (h : ℕ) (id : String) (hh : s.handlers h = .publish id) :
      Step window s (.publishFail h) (s.setHandler h .idle)
  /-- The worker receives the oldest message (`BRPOP` on a list filled by `LPUSH`). -/
  | receive (s : State) (id : String) (rest : List String) (hw : s.worker = .idle)
      (hq : s.queue = id :: rest) :
      Step window s .receive { s with queue := rest, worker := .fetch id }
  /-- `GetEvent` finds the row. -/
  | fetchOk (s : State) (id : String) (e : Event) (hw : s.worker = .fetch id)
      (he : getEvent s.events id = some e) :
      Step window s (.fetchOk e) { s with worker := .embed id e.imageUrl }
  /-- `GetEvent` fails or finds nothing; the worker logs it and drops the message. -/
  | fetchFail (s : State) (id : String) (hw : s.worker = .fetch id) :
      Step window s .fetchFail { s with worker := .idle }
  /-- `EmbedWithScore` answers with a score. -/
  | embedOk (s : State) (id url : String) (score : ℚ) (hw : s.worker = .embed id url) :
      Step window s (.embedOk score) { s with worker := .update id .processed (some score) }
  /-- `EmbedWithScore` fails. -/
  | embedFail (s : State) (id url : String) (hw : s.worker = .embed id url) :
      Step window s .embedFail { s with worker := .update id .failed none }
  /-- `UpdateEventStatus` runs. -/
  | updateOk (s : State) (id : String) (st : Status) (sc : Option ℚ)
      (hw : s.worker = .update id st sc) :
      Step window s .updateOk
        { s with events := updateEventStatus s.events id st sc, worker := .idle }
  /-- `UpdateEventStatus` fails; its error is discarded. -/
  | updateFail (s : State) (id : String) (st : Status) (sc : Option ℚ)
      (hw : s.worker = .update id st sc) :
      Step window s .updateFail { s with worker := .idle }

/-- The system as deployed: empty tables and queue, no request in flight, clock at `t`. -/
def init (t : ℕ) : State where
  clock := t
  devices := []
  subjects := []
  events := []
  seen := []
  queue := []
  handlers := fun _ => .idle
  worker := .idle

/-- The window `cmd/api` passes to `NewService`: five minutes. -/
def apiDedupWindow : ℕ := dedupWindow 300000000

/-- The states some run of the system reaches. -/
def Reachable (window : ℕ) (s : State) : Prop :=
  ∃ t, Lib.Runs (Step window) (fun _ => True) (init t) s

/-- The invariant rule of the system. -/
theorem Reachable.induction {window : ℕ} {Inv : State → Prop} (h0 : ∀ t, Inv (init t))
    (hstep : ∀ s a s', Inv s → Step window s a s' → Inv s') {s : State}
    (hs : Reachable window s) : Inv s := by
  obtain ⟨t, hrun⟩ := hs
  exact Lib.Runs.invariant (h0 t) (fun s a s' hi _ h => hstep s a s' hi h) hrun

theorem Reachable.tail {window : ℕ} {s s' : State} {a : Action} (hs : Reachable window s)
    (h : Step window s a s') : Reachable window s' := by
  obtain ⟨t, hrun⟩ := hs
  exact ⟨t, hrun.tail trivial h⟩

end GoAttend.Attendance
