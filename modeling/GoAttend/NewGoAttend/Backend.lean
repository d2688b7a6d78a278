import GoAttend.NewGoAttend.FaceService
import GoAttend.Lib.Transition
import GoAttend.Lib.Paging
import GoAttend.Lib.Utf8
import GoAttend.Lib.Dict

/-! `newGoAttend/backend`: the SQLite tables of `store.go`, the handlers of `handler.go` that write
them, and the face service they call (`FaceService`), as one system. Gin serves each request in a
goroutine of its own, and a handler runs one statement or call at a time, so handlers interleave.
The environment is `uuid.New()`, `time.Now()`, Cloudinary, the validator's `email` rule and the
network: the actions carry what they return. `cmd/server` always builds the face client, so the
handlers' `faceClient != nil` tests hold. The DSN does not turn SQLite's `foreign_keys` on, so the
`REFERENCES students(id)` of `attendance` is not checked. The repository ships `FACES_DIR` with one
face file, `013bfc9a-cb7e-4504-b39a-ab5dfa14f226.jpg`, that no row of a first start's tables
has. -/

namespace GoAttend.NewGoAttend

open Lib Lib.Paging

variable {Photo : Type}

/-- `model.Student`, a row of `students`; times are nanoseconds. -/
structure Student where
  id : String
  name : String
  email : String
  studentId : String
  department : String
  photoUrl : String
  createdAt : ℕ
  deriving DecidableEq, Repr

/-- A row of `attendance`. -/
structure Attendance where
  id : String
  studentId : String
  timestamp : ℕ
  status : String
  deriving DecidableEq, Repr

/-- `model.AttendanceRecord`: a row of `attendance` with a student's name beside it. -/
structure AttendanceRecord where
  id : String
  studentId : String
  name : String
  timestamp : ℕ
  status : String
  deriving DecidableEq, Repr

def Attendance.record (a : Attendance) (name : String) : AttendanceRecord :=
  ⟨a.id, a.studentId, name, a.timestamp, a.status⟩

/-- The tables of the database file, rows in insertion order. -/
structure Tables where
  students : List Student
  attendance : List Attendance

/-- The text of `uuid.New().String()`: 36 characters, lowercase hex digits and dashes. -/
def IsUuid (s : String) : Prop :=
  s.length = 36 ∧ ∀ c ∈ s.toList, c = '-' ∨ c.isDigit = true ∨ ('a' ≤ c ∧ c ≤ 'f')

structure Uuid where
  text : String
  isUuid : IsUuid text

/-! ## `store.go` -/

/-- Two rows that the `PRIMARY KEY` or a `UNIQUE` constraint of `students` keeps apart. -/
def Student.clashes (a b : Student) : Bool :=
  a.id == b.id || a.email == b.email || a.studentId == b.studentId

/-- `Store.CreateStudent`: the row gets its `uuid` and `time.Now()`, and the `INSERT` fails when it
breaks the `PRIMARY KEY` or a `UNIQUE` constraint. -/
def createStudent (t : Tables) (id : String) (now : ℕ) (st : Student) : Option (Student × Tables) :=
  let st := { st with id, createdAt := now }
  if t.students.any (·.clashes st) then none
  else some (st, { t with students := t.students ++ [st] })

/-- `Store.GetStudentByID`. -/
def getStudentByID (t : Tables) (id : String) : Option Student :=
  t.students.find? (·.id == id)

/-- `Store.MarkAttendance`: a `present` row under a new `uuid` at `time.Now()`; only the primary
key can refuse it. -/
def markAttendance (t : Tables) (id studentID : String) (now : ℕ) :
    Option (AttendanceRecord × Tables) :=
  let a : Attendance := ⟨id, studentID, now, "present"⟩
  if t.attendance.any (·.id == id) then none
  else some (a.record "", { t with attendance := t.attendance ++ [a] })

/-- `Store.ListStudents`: every row, `ORDER BY created_at DESC`, rows of equal times in any
order. -/
def ListStudents (t : Tables) (res : List Student) : Prop :=
  IsOrdering Student.createdAt t.students res

/-- The rows of `attendance a JOIN students s ON s.id = a.student_id` as `ListAttendance` selects
them. -/
def joined (t : Tables) : List AttendanceRecord :=
  t.attendance.flatMap fun a => (t.students.filter (·.id == a.studentId)).map fun st => a.record st.name

/-- `Store.ListAttendance`: a limit that is not positive reads as 50; the joined rows
`ORDER BY a.timestamp DESC`, ties in any order, then `LIMIT`. -/
def ListAttendance (t : Tables) (limit : ℤ) (res : List AttendanceRecord) : Prop :=
  ∃ o, IsOrdering AttendanceRecord.timestamp (joined t) o ∧
    res = o.take (if limit ≤ 0 then 50 else limit).toNat

/-! ## `handler.go` -/

/-- `registerRequest`, the form `RegisterStudent` binds. -/
structure RegisterRequest where
  name : String
  email : String
  studentId : String
  department : String
  deriving DecidableEq, Repr

/-- `c.ShouldBind`: `name` and `student_id` are `required`, `email` is `required,email`. -/
def RegisterRequest.binds (isEmail : String → Bool) (req : RegisterRequest) : Bool :=
  req.name != "" && (req.email != "" && isEmail req.email) && req.studentId != ""

/-- The row `RegisterStudent` hands to `CreateStudent`, before it has an id and a time. -/
def RegisterRequest.student (req : RegisterRequest) (photoUrl : String) : Student :=
  ⟨"", req.name, req.email, req.studentId, req.department, photoUrl, 0⟩

/-- Where one request's goroutine stands. -/
inductive Handler (Photo : Type)
  | idle
  /-- `RegisterStudent`, before `cloud.Upload`. -/
  | upload (req : RegisterRequest) (photo : Photo)
  /-- `RegisterStudent`, before `CreateStudent`, with the photo's URL (empty without Cloudinary). -/
  | create (req : RegisterRequest) (photo : Photo) (photoUrl : String)
  /-- `RegisterStudent`, before `faceClient.Register` with the new row's id. -/
  | enrol (st : Student) (photo : Photo)
  /-- `FaceLogin`, before `faceClient.Recognize`. -/
  | recognize (photo : Photo)
  /-- `FaceLogin`, before `GetStudentByID` with the id the face service matched. -/
  | lookup (id : String)
  /-- `FaceLogin`, before `MarkAttendance`. -/
  | mark (st : Student)
  /-- `FaceLogin`, after `MarkAttendance`, before its 200 answer with the record. -/
  | reply (st : Student) (r : AttendanceRecord)

/-- The database, `FACES_DIR` of the face service, and the goroutines. -/
structure State (Photo : Type) where
  tables : Tables
  faces : Dir Photo
  handlers : ℕ → Handler Photo

def State.setHandler (s : State Photo) (h : ℕ) (x : Handler Photo) : State Photo :=
  { s with handlers := Function.update s.handlers h x }

section setHandler

variable (s : State Photo) (h : ℕ) (x : Handler Photo)

@[simp] theorem setHandler_tables : (s.setHandler h x).tables = s.tables := rfl
@[simp] theorem setHandler_faces : (s.setHandler h x).faces = s.faces := rfl
@[simp] theorem setHandler_handlers :
    (s.setHandler h x).handlers = Function.update s.handlers h x := rfl

end setHandler

/-- The answers of the handlers; an `error` answer is `{"error": message}`. -/
inductive Reply
  /-- 201 with the new row. -/
  | created (st : Student)
  /-- 200 with `matched: true`, the student and the new record under the student's name. -/
  | loggedIn (st : Student) (r : AttendanceRecord)
  /-- 401 with `matched: false` and `error: "face not recognized"`. -/
  | unrecognized
  | error (status : ℕ) (message : String)
  deriving DecidableEq, Repr

/-- What one step does, with what the environment returns in it. -/
inductive Action (Photo : Type)
  | register (h : ℕ) (req : RegisterRequest) (photo : Photo)
  | login (h : ℕ) (photo : Photo)
  | uploaded (h : ℕ) (url : String)
  | created (h : ℕ) (id : Uuid) (now : ℕ)
  | recognized (h : ℕ)
  | found (h : ℕ)
  | marked (h : ℕ) (id : Uuid) (now : ℕ)
  | answer (h : ℕ) (r : Reply)

/-- The deployment: the validator's `email` rule, whether `CLOUDINARY_URL` gave a client, the face
service's DeepFace oracles, threshold and file system (see `FaceService`), and the photo in the
face file the repository ships. -/
structure Env (Photo : Type) where
  isEmail : String → Bool
  cloud : Bool
  extractFaces : Photo → Except String ℕ
  verifyDistance : Photo → Photo → Option ℚ
  listing : Listing Photo
  threshold : ℚ
  moveElsewhere : String → Photo → Dir Photo → Option (Dir Photo)
  shippedPhoto : Photo

/-- `FACES_DIR` after a `/register` call reaches the face service; a call it refuses leaves the
directory as it was. -/
def Env.enrolled (env : Env Photo) (d : Dir Photo) (form : RegisterForm) (photo : Photo) :
    Dir Photo :=
  match registerFace env.extractFaces env.moveElsewhere d form photo with
  | .ok r => r.1
  | .error _ => d

/-- One step of the backend. Each `RegisterStudent` and `FaceLogin` goroutine moves one call at a
time; a failing call ends the request with its answer. -/
inductive Step (env : Env Photo) : State Photo → Action Photo → State Photo → Prop
  /-- `RegisterStudent`: the form binds and the photo is read. -/
  | register (s : State Photo) (h : ℕ) (req : RegisterRequest) (photo : Photo)
      (hidle : s.handlers h = .idle) (hbind : req.binds env.isEmail = true) :
      Step env s (.register h req photo)
        (s.setHandler h (if env.cloud then .upload req photo else .create req photo ""))
  /-- The form does not bind: 400 with the validator's text. -/
  | unbound (s : State Photo) (h : ℕ) (req : RegisterRequest) (message : String)
      (hidle : s.handlers h = .idle) (hbind : req.binds env.isEmail = false) :
      Step env s (.answer h (.error 400 message)) s
  /-- Either handler: the form has no `photo` file. -/
  | noPhoto (s : State Photo) (h : ℕ) (hidle : s.handlers h = .idle) :
      Step env s (.answer h (.error 400 "photo file is required")) s
  /-- Either handler: reading the photo fails. -/
  | unreadable (s : State Photo) (h : ℕ) (hidle : s.handlers h = .idle) :
      Step env s (.answer h (.error 500 "failed to read photo")) s
  /-- Cloudinary stores the photo. -/
  | uploaded (s : State Photo) (h : ℕ) (req : RegisterRequest) (photo : Photo) (url : String)
      (hh : s.handlers h = .upload req photo) :
      Step env s (.uploaded h url) (s.setHandler h (.create req photo url))
  | uploadFailed (s : State Photo) (h : ℕ) (req : RegisterRequest) (photo : Photo)
      (hh : s.handlers h = .upload req photo) :
      Step env s (.answer h (.error 500 "failed to upload photo")) (s.setHandler h .idle)
  /-- `CreateStudent` inserts the row. -/
  | created (s : State Photo) (h : ℕ) (req : RegisterRequest) (photo : Photo) (url : String)
      (id : Uuid) (now : ℕ) (st : Student) (t : Tables) (hh : s.handlers h = .create req photo url)
      (hc : createStudent s.tables id.text now (req.student url) = some (st, t)) :
      Step env s (.created h id now) { s.setHandler h (.enrol st photo) with tables := t }
  /-- `CreateStudent` fails, on a constraint or otherwise: 409 with the driver's text. -/
  | createFailed (s : State Photo) (h : ℕ) (req : RegisterRequest) (photo : Photo) (url : String)
      (err : String) (hh : s.handlers h = .create req photo url) :
      Step env s (.answer h (.error 409 ("student already exists: " ++ err))) (s.setHandler h .idle)
  /-- `faceClient.Register` reaches the face service with the row's id as `student_id`; whatever
  the service answers, the handler answers 201 with the row. -/
  | enrolled (s : State Photo) (h : ℕ) (st : Student) (photo : Photo) (form : RegisterForm)
      (hh : s.handlers h = .enrol st photo) (hform : form.studentId = st.id) :
      Step env s (.answer h (.created st))
        { s.setHandler h .idle with faces := env.enrolled s.faces form photo }
  /-- The call does not reach the face service: 201 all the same. -/
  | enrolLost (s : State Photo) (h : ℕ) (st : Student) (photo : Photo)
      (hh : s.handlers h = .enrol st photo) :
      Step env s (.answer h (.created st)) (s.setHandler h .idle)
  /-- `FaceLogin` reads the photo. -/
  | login (s : State Photo) (h : ℕ) (photo : Photo) (hidle : s.handlers h = .idle) :
      Step env s (.login h photo) (s.setHandler h (.recognize photo))
  /-- `/recognize` answers `matched: true`; the handler reads `student_id` from the reply. -/
  | recognized (s : State Photo) (h : ℕ) (photo : Photo) (r : Recognition)
      (hh : s.handlers h = .recognize photo)
      (hr : recognizeFace env.extractFaces env.verifyDistance env.listing env.threshold s.faces photo = .ok r)
      (hm : r.matched = true) :
      Step env s (.recognized h) (s.setHandler h (.lookup (r.studentId.getD "")))
  | unrecognized (s : State Photo) (h : ℕ) (photo : Photo) (r : Recognition)
      (hh : s.handlers h = .recognize photo)
      (hr : recognizeFace env.extractFaces env.verifyDistance env.listing env.threshold s.faces photo = .ok r)
      (hm : r.matched = false) :
      Step env s (.answer h .unrecognized) (s.setHandler h .idle)
  /-- The face service answers an error status, or cannot be reached. -/
  | recognizeFailed (s : State Photo) (h : ℕ) (photo : Photo)
      (hh : s.handlers h = .recognize photo) :
      Step env s (.answer h (.error 500 "face recognition failed")) (s.setHandler h .idle)
  /-- `GetStudentByID` returns the row. -/
  | found (s : State Photo) (h : ℕ) (id : String) (st : Student) (hh : s.handlers h = .lookup id)
      (hf : getStudentByID s.tables id = some st) :
      Step env s (.found h) (s.setHandler h (.mark st))
  /-- `GetStudentByID` returns no row: `student == nil`. -/
  | notFound (s : State Photo) (h : ℕ) (id : String) (hh : s.handlers h = .lookup id)
      (hf : getStudentByID s.tables id = none) :
      Step env s (.answer h (.error 404 "matched student not found in database"))
        (s.setHandler h .idle)
  /-- `GetStudentByID` fails: the same answer. -/
  | lookupFailed (s : State Photo) (h : ℕ) (id : String) (hh : s.handlers h = .lookup id) :
      Step env s (.answer h (.error 404 "matched student not found in database"))
        (s.setHandler h .idle)
  /-- `MarkAttendance` inserts the row; the handler puts the student's name in the record. -/
  | marked (s : State Photo) (h : ℕ) (st : Student) (id : Uuid) (now : ℕ) (r : AttendanceRecord)
      (t : Tables) (hh : s.handlers h = .mark st)
      (hm : markAttendance s.tables id.text st.id now = some (r, t)) :
      Step env s (.marked h id now)
        { s.setHandler h (.reply st { r with name := st.name }) with tables := t }
  /-- The 200 answer with the student and the record. -/
  | loggedIn (s : State Photo) (h : ℕ) (st : Student) (r : AttendanceRecord)
      (hh : s.handlers h = .reply st r) :
      Step env s (.answer h (.loggedIn st r)) (s.setHandler h .idle)
  | markFailed (s : State Photo) (h : ℕ) (st : Student) (hh : s.handlers h = .mark st) :
      Step env s (.answer h (.error 500 "failed to mark attendance")) (s.setHandler h .idle)

/-- The stem of the face file the repository ships in `FACES_DIR`. -/
def shippedFace : String := "013bfc9a-cb7e-4504-b39a-ab5dfa14f226"

/-- A first start: `migrate` has created empty tables, `FACES_DIR` holds the shipped face file, no
request runs. -/
def init (shipped : Photo) : State Photo :=
  ⟨⟨[], []⟩, Dir.empty.put (shippedFace ++ ".jpg") shipped, fun _ => .idle⟩

/-- The states some run of the backend reaches. -/
def Reachable (env : Env Photo) (s : State Photo) : Prop :=
  Runs (Step env) (fun _ => True) (init env.shippedPhoto) s

/-! ## What each statement does -/

theorem createStudent_eq_some {t t' : Tables} {id : String} {now : ℕ} {st₀ st : Student}
    (h : createStudent t id now st₀ = some (st, t')) :
    st = { st₀ with id, createdAt := now } ∧ (∀ s ∈ t.students, s.clashes st = false) ∧
      t' = { t with students := t.students ++ [st] } := by
  unfold createStudent at h
  dsimp only at h
  split_ifs at h with hc
  cases h
  refine ⟨rfl, fun s hs => ?_, rfl⟩
  simpa using List.any_eq_false.mp (Bool.of_not_eq_true hc) s hs

theorem markAttendance_eq_some {t t' : Tables} {id sid : String} {now : ℕ} {r : AttendanceRecord}
    (h : markAttendance t id sid now = some (r, t')) :
    r = (⟨id, sid, now, "present"⟩ : Attendance).record "" ∧ (∀ a ∈ t.attendance, a.id ≠ id) ∧
      t' = { t with attendance := t.attendance ++ [⟨id, sid, now, "present"⟩] } := by
  unfold markAttendance at h
  dsimp only at h
  split_ifs at h with hc
  cases h
  refine ⟨rfl, fun a ha => ?_, rfl⟩
  simpa using List.any_eq_false.mp (Bool.of_not_eq_true hc) a ha

theorem getStudentByID_eq_some {t : Tables} {id : String} {st : Student}
    (h : getStudentByID t id = some st) : st ∈ t.students ∧ st.id = id :=
  ⟨List.mem_of_find?_eq_some h, by simpa using List.find?_some h⟩

/-- The query finds a row whenever the table has one with that id. -/
theorem getStudentByID_isSome {t : Tables} {id : String} (h : ∃ st ∈ t.students, st.id = id) :
    ∃ st, getStudentByID t id = some st := by
  obtain ⟨st, hst, rfl⟩ := h
  exact Option.isSome_iff_exists.mp (List.find?_isSome.mpr ⟨st, hst, by simp⟩)

theorem mem_joined {t : Tables} {r : AttendanceRecord} :
    r ∈ joined t ↔ ∃ a ∈ t.attendance, ∃ st ∈ t.students, st.id = a.studentId ∧ r = a.record st.name := by
  simp only [joined, List.mem_flatMap, List.mem_map, List.mem_filter, beq_iff_eq]
  grind

/-! ## Ids and file names -/

theorem IsUuid.ne_empty {id : String} (h : IsUuid id) : id ≠ "" := by
  rintro rfl
  simp [IsUuid] at h

/-- A `uuid` is a plain file name for the face service, with or without `.jpg`. -/
theorem IsUuid.plainName_jpg {id : String} (h : IsUuid id) : PlainName (id ++ ".jpg") := by
  have hchar : ∀ c ∈ (id ++ ".jpg").toList, c ≠ '/' ∧ c ≠ '\x00' := by
    intro c hc
    rw [toList_jpg, List.mem_append] at hc
    rcases hc with hc | hc
    · rcases h.2 c hc with rfl | hd | ⟨ha, hf⟩
      · decide
      · constructor <;> rintro rfl <;> revert hd <;> decide
      · constructor <;> rintro rfl <;> revert ha <;> decide
    · simp only [List.mem_cons, List.not_mem_nil, or_false] at hc
      rcases hc with rfl | rfl | rfl | rfl <;> decide
  refine ⟨fun hs => (hchar _ hs).1 rfl, fun hs => (hchar _ hs).2 rfl, ?_⟩
  have hsize := Utf8.utf8ByteSize_le id
  have hjpg : ".jpg".utf8ByteSize = 4 := by decide
  rw [String.utf8ByteSize_append, hjpg]
  rw [h.1] at hsize
  omega

theorem shippedFace_ne_empty : shippedFace ≠ "" := by
  simp [shippedFace]

/-- After a `/register` call on a `uuid`, `FACES_DIR` holds the photo under `<id>.jpg` when it
shows a face, and is unchanged otherwise. -/
theorem Env.enrolled_eq (env : Env Photo) (d : Dir Photo) {form : RegisterForm} (photo : Photo)
    (hp : PlainName (form.studentId ++ ".jpg")) :
    env.enrolled d form photo =
      if faceFound env.extractFaces photo then d.put (form.studentId ++ ".jpg") photo else d :=
  registerStep_of_plain d photo hp

theorem Env.enrolled_of_faceFound (env : Env Photo) (d : Dir Photo) {form : RegisterForm}
    (photo : Photo) (hp : PlainName (form.studentId ++ ".jpg"))
    (hf : faceFound env.extractFaces photo = true) :
    env.enrolled d form photo = d.put (form.studentId ++ ".jpg") photo := by
  rw [env.enrolled_eq d photo hp, if_pos hf]

/-- The names after a `/register` call: the earlier ones and perhaps `<id>.jpg`. -/
theorem Env.names_enrolled (env : Env Photo) (d : Dir Photo) {form : RegisterForm} (photo : Photo)
    (hp : PlainName (form.studentId ++ ".jpg")) :
    d.names ⊆ (env.enrolled d form photo).names ∧
      ∀ n ∈ (env.enrolled d form photo).names, n = form.studentId ++ ".jpg" ∨ n ∈ d.names := by
  rw [env.enrolled_eq d photo hp]
  split_ifs
  · exact ⟨fun n hn => Dir.mem_names_put.mpr (.inr hn), fun n hn => Dir.mem_names_put.mp hn⟩
  · exact ⟨fun _ hn => hn, fun _ hn => .inr hn⟩

/-! ## The run invariant -/

/-- What a goroutine relies on: the row it enrols is in `students`; the id it looks up has a face
file and is the shipped face's or a row's; the student it marks has a row and a face file. -/
def Handler.Valid (t : Tables) (d : Dir Photo) : Handler Photo → Prop
  | .enrol st _ => st ∈ t.students
  | .lookup id => id ++ ".jpg" ∈ d.names ∧ (id = shippedFace ∨ ∃ st ∈ t.students, st.id = id)
  | .mark st => st ∈ t.students ∧ st.id ++ ".jpg" ∈ d.names
  | _ => True

/-- Rows of `students` and names in `FACES_DIR` are never taken away, so what a goroutine relies
on stays true while others run. -/
theorem Handler.Valid.mono {t t' : Tables} {d d' : Dir Photo} {x : Handler Photo}
    (hs : t.students ⊆ t'.students) (hd : d.names ⊆ d'.names) (hx : x.Valid t d) :
    x.Valid t' d' := by
  cases x with
  | enrol st _ => exact hs hx
  | lookup id =>
    obtain ⟨hn, rfl | ⟨st, hst, hid⟩⟩ := hx
    · exact ⟨hd hn, .inl rfl⟩
    · exact ⟨hd hn, .inr ⟨st, hs hst, hid⟩⟩
  | mark st => exact ⟨hs hx.1, hd hx.2⟩
  | idle | upload | create | recognize | reply => trivial

/-- What every reachable state satisfies. -/
structure Inv (s : State Photo) : Prop where
  /-- Every row's id is a `uuid`. -/
  ids : ∀ st ∈ s.tables.students, IsUuid st.id
  /-- The `PRIMARY KEY` and `UNIQUE` constraints of `students`. -/
  unique : s.tables.students.Pairwise fun a b => a.clashes b = false
  /-- Every file of `FACES_DIR` is the shipped one or `<id>.jpg` for a row of `students`. -/
  faces : ∀ n ∈ s.faces.names, n = shippedFace ++ ".jpg" ∨ ∃ st ∈ s.tables.students, n = st.id ++ ".jpg"
  /-- Every attendance row names a student with a row and a face file. -/
  attendance : ∀ a ∈ s.tables.attendance,
    (∃ st ∈ s.tables.students, st.id = a.studentId) ∧ a.studentId ++ ".jpg" ∈ s.faces.names
  /-- The primary key of `attendance`. -/
  records : (s.tables.attendance.map Attendance.id).Nodup
  handlers : ∀ h, (s.handlers h).Valid s.tables s.faces

theorem inv_init (shipped : Photo) : Inv (init shipped) where
  ids := by simp [init]
  unique := List.Pairwise.nil
  faces := by simp [init, Dir.put, Dir.empty, Dir.names]
  attendance := by simp [init]
  records := List.nodup_nil
  handlers _ := trivial

theorem Inv.setHandler {s : State Photo} (hi : Inv s) {h : ℕ} {x : Handler Photo}
    (hx : x.Valid s.tables s.faces) : Inv (s.setHandler h x) where
  ids := hi.ids
  unique := hi.unique
  faces := hi.faces
  attendance := hi.attendance
  records := hi.records
  handlers h' := by
    rw [setHandler_handlers, Function.update_apply]
    split_ifs
    · exact hx
    · exact hi.handlers h'

/-- `CreateStudent` adds a row that clashes with none, and the goroutine goes on to enrol it. -/
theorem Inv.created {s : State Photo} (hi : Inv s) (h : ℕ) {st : Student} (photo : Photo)
    (hid : IsUuid st.id) (hc : ∀ a ∈ s.tables.students, a.clashes st = false) :
    Inv { s.setHandler h (.enrol st photo) with
      tables := { s.tables with students := s.tables.students ++ [st] } } := by
  have hsub : s.tables.students ⊆ s.tables.students ++ [st] := List.subset_append_left _ _
  refine ⟨?_, ?_, ?_, ?_, hi.records, ?_⟩
  · intro a ha
    rcases List.mem_append.mp ha with ha | ha
    · exact hi.ids a ha
    · rw [List.mem_singleton.mp ha]
      exact hid
  · refine List.pairwise_append.mpr ⟨hi.unique, List.pairwise_singleton _ _, ?_⟩
    intro a ha b hb
    rw [List.mem_singleton.mp hb]
    exact hc a ha
  · intro n hn
    obtain hsh | ⟨a, ha, rfl⟩ := hi.faces n hn
    · exact .inl hsh
    · exact .inr ⟨a, hsub ha, rfl⟩
  · intro r hr
    obtain ⟨⟨a, ha, hid⟩, hn⟩ := hi.attendance r hr
    exact ⟨⟨a, hsub ha, hid⟩, hn⟩
  · intro h'
    simp only [setHandler_handlers, Function.update_apply]
    split_ifs
    · exact List.mem_append_right _ (List.mem_singleton_self st)
    · exact (hi.handlers h').mono hsub (fun _ hn => hn)

/-- A `/register` call with the id of a row can only add that row's file. -/
theorem Inv.enrolled {env : Env Photo} {s : State Photo} (hi : Inv s) (h : ℕ) {st : Student}
    {form : RegisterForm} (photo : Photo) (hst : st ∈ s.tables.students)
    (hform : form.studentId = st.id) :
    Inv { s.setHandler h .idle with faces := env.enrolled s.faces form photo } := by
  have hp : PlainName (form.studentId ++ ".jpg") := hform ▸ (hi.ids st hst).plainName_jpg
  obtain ⟨hsub, hnew⟩ := env.names_enrolled s.faces photo hp
  refine ⟨hi.ids, hi.unique, ?_, ?_, hi.records, ?_⟩
  · intro n hn
    rcases hnew n hn with rfl | hn
    · exact .inr ⟨st, hst, by rw [hform]⟩
    · exact hi.faces n hn
  · intro r hr
    exact ⟨(hi.attendance r hr).1, hsub (hi.attendance r hr).2⟩
  · intro h'
    simp only [setHandler_handlers, Function.update_apply]
    split_ifs
    · trivial
    · exact (hi.handlers h').mono (fun _ ha => ha) hsub

/-- A match of `/recognize` is the stem of a file of `FACES_DIR`: the shipped face's id or a
row's. -/
theorem Inv.valid_lookup {env : Env Photo} {s : State Photo} (hi : Inv s) {photo : Photo}
    {r : Recognition}
    (hr : recognizeFace env.extractFaces env.verifyDistance env.listing env.threshold s.faces photo = .ok r)
    (hm : r.matched = true) : (Handler.lookup (r.studentId.getD "")).Valid s.tables s.faces := by
  obtain ⟨e, he, hid⟩ := recognizeFace_matched_mem env.extractFaces env.verifyDistance hr hm
  have hn : e.1 ∈ s.faces.names := List.mem_map_of_mem he
  rw [hid, Option.getD_some]
  rcases hi.faces e.1 hn with hname | ⟨st, hst, hname⟩
  · rw [hname, stem_jpg shippedFace_ne_empty]
    exact ⟨hname ▸ hn, .inl rfl⟩
  · rw [hname, stem_jpg (hi.ids st hst).ne_empty]
    exact ⟨hname ▸ hn, .inr ⟨st, hst, rfl⟩⟩

/-- `MarkAttendance` adds a row for a student with a row and a face file. -/
theorem Inv.marked {s : State Photo} (hi : Inv s) (h : ℕ) {st : Student} {id : String} {now : ℕ}
    (r : AttendanceRecord) (hst : st ∈ s.tables.students) (hn : st.id ++ ".jpg" ∈ s.faces.names)
    (hfresh : ∀ a ∈ s.tables.attendance, a.id ≠ id) :
    Inv { s.setHandler h (.reply st r) with
      tables := { s.tables with attendance := s.tables.attendance ++ [⟨id, st.id, now, "present"⟩] } } := by
  refine ⟨hi.ids, hi.unique, hi.faces, ?_, ?_, ?_⟩
  · intro a ha
    rcases List.mem_append.mp ha with ha | ha
    · exact hi.attendance a ha
    · rw [List.mem_singleton.mp ha]
      exact ⟨⟨st, hst, rfl⟩, hn⟩
  · rw [List.map_append, List.nodup_append]
    refine ⟨hi.records, List.nodup_singleton _, ?_⟩
    intro x hx y hy
    obtain ⟨a, ha, rfl⟩ := List.mem_map.mp hx
    rw [List.map_singleton, List.mem_singleton] at hy
    rw [hy]
    exact hfresh a ha
  · intro h'
    simp only [setHandler_handlers, Function.update_apply]
    split_ifs
    · trivial
    · exact (hi.handlers h').mono (fun _ ha => ha) (fun _ hn => hn)

/-- Every step keeps the invariant. -/
theorem Inv.step {env : Env Photo} {s s' : State Photo} {a : Action Photo} (hi : Inv s)
    (hs : Step env s a s') : Inv s' := by
  cases hs with
  | register h req photo _ _ => exact hi.setHandler (by split <;> trivial)
  | unbound | noPhoto | unreadable => exact hi
  | uploaded | uploadFailed | createFailed | enrolLost | login | unrecognized | recognizeFailed
    | notFound | lookupFailed | loggedIn | markFailed => exact hi.setHandler trivial
  | created h req photo url id now st t _ hc =>
    obtain ⟨rfl, hclash, rfl⟩ := createStudent_eq_some hc
    exact hi.created h photo id.isUuid hclash
  | enrolled h st photo form hh hform =>
    have hv : (Handler.enrol st photo).Valid s.tables s.faces := hh ▸ hi.handlers h
    exact hi.enrolled h photo hv hform
  | recognized h photo r _ hr hm => exact hi.setHandler (hi.valid_lookup hr hm)
  | found h id st hh hf =>
    have hv : (Handler.lookup id).Valid s.tables s.faces := hh ▸ hi.handlers h
    obtain ⟨hst, rfl⟩ := getStudentByID_eq_some hf
    exact hi.setHandler ⟨hst, hv.1⟩
  | marked h st id now r t hh hm =>
    have hv : (Handler.mark st).Valid s.tables s.faces := hh ▸ hi.handlers h
    obtain ⟨-, hfresh, rfl⟩ := markAttendance_eq_some hm
    exact hi.marked h _ hv.1 hv.2 hfresh

theorem Reachable.inv {env : Env Photo} {s : State Photo} (hs : Reachable env s) : Inv s :=
  Runs.invariant (inv_init _) (fun _ _ _ hi _ h => hi.step h) hs

/-! ## A run -/

/-- A deployment without Cloudinary where every photo shows one face, at distance 0 from itself and
1 from every other; the shipped file holds photo 0. -/
def sampleEnv : Env ℕ :=
  ⟨fun _ => true, false, fun _ => .ok 1, fun p q => if p = q then some 0 else some 1,
    ⟨fun l => l, List.Perm.refl⟩, 2 / 5, fun _ _ _ => none, 0⟩

/-- The nil `uuid`, `00000000-0000-0000-0000-000000000000`. -/
def nilUuidText : String :=
  String.ofList (List.replicate 8 '0' ++ '-' :: List.replicate 4 '0' ++ '-' :: List.replicate 4 '0' ++
    '-' :: List.replicate 4 '0' ++ '-' :: List.replicate 12 '0')

theorem isUuid_nilUuidText : IsUuid nilUuidText := by
  unfold IsUuid nilUuidText
  rw [String.length_ofList, String.toList_ofList]
  refine ⟨by simp, fun c hc => ?_⟩
  simp only [List.mem_append, List.mem_replicate, List.mem_cons] at hc
  have h0 : ('0' : Char).isDigit = true := by decide
  rcases hc with ((((⟨-, rfl⟩ | rfl | ⟨-, rfl⟩) | rfl | ⟨-, rfl⟩) | rfl | ⟨-, rfl⟩) | rfl | ⟨-, rfl⟩)
  all_goals first | exact .inl rfl | exact .inr (.inl h0)

set_option maxRecDepth 10000 in
theorem toList_shippedFace : shippedFace.toList = ['0', '1', '3', 'b', 'f', 'c', '9', 'a', '-', 'c', 'b',
    '7', 'e', '-', '4', '5', '0', '4', '-', 'b', '3', '9', 'a', '-', 'a', 'b', '5', 'd', 'f', 'a', '1',
    '4', 'f', '2', '2', '6'] := by
  unfold shippedFace
  rfl

/-- The nil `uuid` is not the shipped face's: it has no `1`. -/
theorem nilUuidText_ne_shippedFace : nilUuidText ≠ shippedFace := by
  have hnil : '1' ∉ nilUuidText.toList := by
    unfold nilUuidText
    rw [String.toList_ofList]
    simp only [List.mem_append, List.mem_replicate, List.mem_cons]
    decide
  have hshipped : '1' ∈ shippedFace.toList := by
    rw [toList_shippedFace]
    simp
  exact fun h => hnil (h ▸ hshipped)

def sampleUuid : Uuid := ⟨nilUuidText, isUuid_nilUuidText⟩

def sampleRequest : RegisterRequest := ⟨"S", "s@x.io", "S1", "CS"⟩

def sampleForm : RegisterForm := ⟨sampleUuid.text, sampleUuid.isUuid.ne_empty⟩

/-- `FACES_DIR` after the student's photo 7 is registered: the shipped file, then the student's. -/
theorem sampleEnv_enrolled :
    sampleEnv.enrolled (init 0).faces sampleForm 7 =
      ((Dir.empty.put (shippedFace ++ ".jpg") 0).put (sampleUuid.text ++ ".jpg") 7) :=
  Env.enrolled_of_faceFound _ _ _ sampleUuid.isUuid.plainName_jpg rfl

theorem entries_sampleEnv_enrolled :
    (sampleEnv.enrolled (init 0).faces sampleForm 7).entries =
      [(shippedFace ++ ".jpg", 0), (sampleUuid.text ++ ".jpg", 7)] := by
  have hne : shippedFace ++ ".jpg" ≠ sampleUuid.text ++ ".jpg" :=
    fun h => nilUuidText_ne_shippedFace (jpg_inj h).symm
  rw [sampleEnv_enrolled]
  simp [Dir.put, Dir.empty, hne]

/-- A probe of photo `p` matches the file holding `p`, at distance 0. -/
theorem sampleEnv_recognize {p : ℕ} {sid : String} (hp : p = 0 ∧ sid = shippedFace ∨ p = 7 ∧ sid = nilUuidText) :
    recognizeFace sampleEnv.extractFaces sampleEnv.verifyDistance sampleEnv.listing sampleEnv.threshold
      (sampleEnv.enrolled (init 0).faces sampleForm 7) p =
        .ok ⟨true, some sid, some (Lib.Rounding.roundTo 4 0)⟩ := by
  have hs := stem_jpg shippedFace_ne_empty
  have hu := stem_jpg sampleUuid.isUuid.ne_empty
  have hsne := shippedFace_ne_empty
  have hune := sampleUuid.isUuid.ne_empty
  have hl : ∀ l, sampleEnv.listing.order l = l := fun _ => rfl
  simp only [recognizeFace, globJpg, hl, entries_sampleEnv_enrolled]
  rcases hp with ⟨rfl, rfl⟩ | ⟨rfl, rfl⟩
  · simp [matchesJpg_jpg, bestStep, sampleEnv, hs]
    norm_num [hsne]
  · simp [matchesJpg_jpg, bestStep, sampleEnv, hu, hune]
    norm_num
    rfl

/-- The row `CreateStudent` inserts for the sample request. -/
def sampleStudent : Student := { sampleRequest.student "" with id := sampleUuid.text, createdAt := 5 }

/-- A registration by goroutine 0; goroutine 1 logs in with the student's face and goroutine 2 with
the shipped one. The states where goroutine 1 is about to look the student up, where goroutine 2 is
about to look the shipped id up, and after goroutine 1 marked attendance and answered. -/
theorem sample_login_run : ∃ (as₁ as₂ as₃ : List (Action ℕ)) (s₁ s₂ s₃ : State ℕ),
    Trace (Step sampleEnv) (init 0) as₁ s₁ ∧ s₁.handlers 1 = .lookup sampleUuid.text ∧
    Trace (Step sampleEnv) (init 0) as₂ s₂ ∧ s₂.handlers 2 = .lookup shippedFace ∧
      s₂.tables.students = [sampleStudent] ∧
    Trace (Step sampleEnv) (init 0) as₃ s₃ ∧ s₃.tables.attendance.length = 1 ∧
      s₃.tables.students = [sampleStudent] ∧ s₃.faces = sampleEnv.enrolled (init 0).faces sampleForm 7 := by
  have h0 : Trace (Step sampleEnv) (init 0) [] (init 0) := Trace.nil _
  have h1 := Trace.snoc h0 (Step.register _ 0 sampleRequest 7 rfl rfl)
  have h2 := Trace.snoc h1 (Step.created _ 0 sampleRequest 7 "" sampleUuid 5 _ _ rfl rfl)
  have h3 := Trace.snoc h2 (Step.enrolled _ 0 _ 7 sampleForm rfl rfl)
  have h4 := Trace.snoc h3 (Step.login _ 1 7 rfl)
  have h5 := Trace.snoc h4 (Step.recognized _ 1 7 _ rfl (sampleEnv_recognize (.inr ⟨rfl, rfl⟩)) rfl)
  have h6 := Trace.snoc h3 (Step.login _ 2 0 rfl)
  have h7 := Trace.snoc h6 (Step.recognized _ 2 0 _ rfl (sampleEnv_recognize (.inl ⟨rfl, rfl⟩)) rfl)
  have h8 := Trace.snoc h5 (Step.found _ 1 sampleUuid.text _ rfl rfl)
  have h9 := Trace.snoc h8 (Step.marked _ 1 _ sampleUuid 9 _ _ rfl rfl)
  have h10 := Trace.snoc h9 (Step.loggedIn _ 1 _ _ rfl)
  exact ⟨_, _, _, _, _, _, h5, rfl, h7, rfl, rfl, h10, rfl, rfl, rfl⟩

/-! ## What the backend guarantees -/

theorem Student.clashes_eq_false {a b : Student} :
    a.clashes b = false ↔ a.id ≠ b.id ∧ a.email ≠ b.email ∧ a.studentId ≠ b.studentId := by
  simp [Student.clashes, and_assoc]

theorem Inv.nodup_ids {s : State Photo} (hi : Inv s) : (s.tables.students.map Student.id).Nodup :=
  List.pairwise_map.mpr (hi.unique.imp fun h => (Student.clashes_eq_false.mp h).1)

/-- Each attendance row joins exactly one student. -/
theorem Inv.length_joined {s : State Photo} (hi : Inv s) :
    (joined s.tables).length = s.tables.attendance.length := by
  have hone : ∀ a ∈ s.tables.attendance,
      ((s.tables.students.filter (·.id == a.studentId)).map fun st => a.record st.name).length = 1 := by
    intro a ha
    obtain ⟨⟨st, hst, hid⟩, -⟩ := hi.attendance a ha
    rw [List.length_map, ← hid, Dict.filter_key_eq_singleton hi.nodup_ids hst]
    rfl
  rw [joined, List.length_flatMap, List.map_congr_left hone]
  simp

/-- In every reachable state the tables and `FACES_DIR` agree: no two students share an id, an
e-mail or a student number; every face file is the shipped one or `<id>.jpg` of a student; and
every attendance row names exactly one student, who has a face file. SQLite checks the first part;
the handlers keep the others, as nothing checks the foreign key. -/
theorem backend_tables_consistent {env : Env Photo} {s : State Photo} (hs : Reachable env s) :
    s.tables.students.Pairwise (fun a b => a.id ≠ b.id ∧ a.email ≠ b.email ∧ a.studentId ≠ b.studentId) ∧
    (∀ n ∈ s.faces.names, n = shippedFace ++ ".jpg" ∨ ∃ st ∈ s.tables.students, n = st.id ++ ".jpg") ∧
    ∀ a ∈ s.tables.attendance, (∃! st, st ∈ s.tables.students ∧ st.id = a.studentId) ∧
      a.studentId ++ ".jpg" ∈ s.faces.names := by
  have hi := hs.inv
  refine ⟨hi.unique.imp Student.clashes_eq_false.mp, hi.faces, fun a ha => ⟨?_, (hi.attendance a ha).2⟩⟩
  obtain ⟨st, hst, hid⟩ := (hi.attendance a ha).1
  refine ⟨st, ⟨hst, hid⟩, fun st' ⟨hst', hid'⟩ => ?_⟩
  exact List.inj_on_of_nodup_map hi.nodup_ids hst' hst (hid'.trans hid.symm)

theorem id_sampleStudent_ne : sampleStudent.id ≠ shippedFace := nilUuidText_ne_shippedFace

/-- After a face login, the tables agree with `FACES_DIR`, which still holds the shipped file with
no row; the face service's `/health` counts that file from the start. -/
theorem backend_tables_consistent_after_login : ∃ s : State ℕ, Reachable sampleEnv s ∧
    s.tables.attendance.length = 1 ∧ shippedFace ++ ".jpg" ∈ s.faces.names ∧
    (∀ st ∈ s.tables.students, st.id ≠ shippedFace) ∧
    registeredFaces sampleEnv.listing (init sampleEnv.shippedPhoto).faces = 1 ∧
    s.tables.students.Pairwise (fun a b => a.id ≠ b.id ∧ a.email ≠ b.email ∧ a.studentId ≠ b.studentId) ∧
    (∀ n ∈ s.faces.names, n = shippedFace ++ ".jpg" ∨ ∃ st ∈ s.tables.students, n = st.id ++ ".jpg") ∧
    ∀ a ∈ s.tables.attendance, (∃! st, st ∈ s.tables.students ∧ st.id = a.studentId) ∧
      a.studentId ++ ".jpg" ∈ s.faces.names := by
  obtain ⟨_, _, _, _, _, s, _, _, _, _, _, h, hlen, hst, hfaces⟩ := sample_login_run
  refine ⟨s, h.runs, hlen, ?_, ?_, ?_, backend_tables_consistent h.runs⟩
  · simp [hfaces, Dir.names, entries_sampleEnv_enrolled]
  · simp [hst, id_sampleStudent_ne]
  · simp [registeredFaces, globJpg, init, sampleEnv, Dir.put, Dir.empty, matchesJpg_jpg]

/-- `FaceLogin` looks up only the id of a face file: a student's, which the query finds, or the
shipped file's, which has no row unless a student was given its id. -/
theorem faceLogin_lookup_finds_student {env : Env Photo} {s : State Photo} (hs : Reachable env s)
    {h : ℕ} {id : String} (hh : s.handlers h = .lookup id) :
    id ++ ".jpg" ∈ s.faces.names ∧
      (id = shippedFace ∨ ∃ st, getStudentByID s.tables id = some st ∧ st.id = id) := by
  have hv : (Handler.lookup id).Valid s.tables s.faces := hh ▸ hs.inv.handlers h
  refine ⟨hv.1, hv.2.imp_right fun hex => ?_⟩
  obtain ⟨st, hst⟩ := getStudentByID_isSome hex
  exact ⟨st, hst, (getStudentByID_eq_some hst).2⟩

/-- A face login with the shipped face matches it, the query then finds no row, and the answer is
the 404 `matched student not found in database`. -/
theorem faceLogin_lookup_shipped_face : ∃ s : State ℕ, Reachable sampleEnv s ∧
    s.handlers 2 = .lookup shippedFace ∧ getStudentByID s.tables shippedFace = none ∧
    Step sampleEnv s (.answer 2 (.error 404 "matched student not found in database"))
      (s.setHandler 2 .idle) ∧
    shippedFace ++ ".jpg" ∈ s.faces.names ∧
      (shippedFace = shippedFace ∨ ∃ st, getStudentByID s.tables shippedFace = some st ∧
        st.id = shippedFace) := by
  obtain ⟨_, _, _, _, s, _, _, _, h, hh, hst, _⟩ := sample_login_run
  have hnone : getStudentByID s.tables shippedFace = none := by
    simp [getStudentByID, hst, id_sampleStudent_ne]
  exact ⟨s, h.runs, hh, hnone, Step.notFound s 2 shippedFace hh hnone,
    faceLogin_lookup_finds_student h.runs hh⟩

/-- `ListAttendance` loses no record to its join: it answers as many records as the limit allows,
each an attendance row under its student's name. -/
theorem listAttendance_keeps_records {env : Env Photo} {s : State Photo} (hs : Reachable env s)
    {limit : ℤ} {res : List AttendanceRecord} (hres : ListAttendance s.tables limit res) :
    res.length = min (if limit ≤ 0 then 50 else limit).toNat s.tables.attendance.length ∧
    ∀ r ∈ res, ∃ a ∈ s.tables.attendance, ∃ st ∈ s.tables.students, st.id = a.studentId ∧
      r = a.record st.name := by
  obtain ⟨o, ho, rfl⟩ := hres
  refine ⟨?_, fun r hr => mem_joined.mp (ho.1.subset (List.mem_of_mem_take hr))⟩
  rw [List.length_take, ho.length_eq, hs.inv.length_joined]

theorem listAttendance_keeps_sample_record : ∃ (s : State ℕ) (res : List AttendanceRecord),
    Reachable sampleEnv s ∧ ListAttendance s.tables 0 res ∧ s.tables.attendance.length = 1 ∧
    res.length = min (if (0 : ℤ) ≤ 0 then (50 : ℤ) else 0).toNat s.tables.attendance.length ∧
    ∀ r ∈ res, ∃ a ∈ s.tables.attendance, ∃ st ∈ s.tables.students, st.id = a.studentId ∧
      r = a.record st.name := by
  obtain ⟨_, _, _, _, _, s, _, _, _, _, _, h, hlen, _⟩ := sample_login_run
  obtain ⟨o, ho⟩ : ∃ o, IsOrdering AttendanceRecord.timestamp (joined s.tables) o :=
    exists_isOrdering _
  have hres : ListAttendance s.tables 0 (o.take 50) := ⟨o, ho, rfl⟩
  exact ⟨s, _, h.runs, hres, hlen, listAttendance_keeps_records h.runs hres⟩

/-! ## The attendance table over a run -/

/-- The row of `attendance` a record is. -/
def AttendanceRecord.row (r : AttendanceRecord) : Attendance := ⟨r.id, r.studentId, r.timestamp, r.status⟩

@[simp] theorem row_record (a : Attendance) (name : String) : (a.record name).row = a := rfl

/-- The row a step's answer carries: that of a 200 answer of `FaceLogin`. -/
def Action.row : Action Photo → List Attendance
  | .answer _ (.loggedIn _ r) => [r.row]
  | _ => []

/-- The row a goroutine has inserted and not yet answered. -/
def Handler.pending : Handler Photo → List Attendance
  | .reply _ r => [r.row]
  | _ => []

/-- How `attendance` stands to the answers given so far: each row was answered once, or is the
row of exactly one goroutine that has yet to answer. -/
structure Answered (answered : List Attendance) (s : State Photo) : Prop where
  nodup : answered.Nodup
  answered_mem : ∀ a ∈ answered, a ∈ s.tables.attendance
  pending_mem : ∀ h, ∀ a ∈ (s.handlers h).pending, a ∈ s.tables.attendance ∧ a ∉ answered ∧
    ∀ h', h' ≠ h → a ∉ (s.handlers h').pending
  covered : ∀ a ∈ s.tables.attendance, a ∈ answered ∨ ∃ h, a ∈ (s.handlers h).pending

/-- A goroutine that neither inserts nor answers a row, moving between states without one. -/
theorem Answered.setHandler {answered : List Attendance} {s : State Photo} (ha : Answered answered s)
    {h : ℕ} {x : Handler Photo} (hold : (s.handlers h).pending = []) (hx : x.pending = []) :
    Answered answered (s.setHandler h x) := by
  -- the goroutines' pending rows are those of `s`
  have hp : ∀ h', ((s.setHandler h x).handlers h').pending = (s.handlers h').pending := by
    intro h'
    simp only [setHandler_handlers, Function.update_apply]
    split_ifs with he
    · rw [he, hx, hold]
    · rfl
  refine ⟨ha.nodup, ha.answered_mem, fun h' a hmem => ?_, fun a hmem => ?_⟩
  · rw [hp] at hmem
    obtain ⟨hm, hn, hu⟩ := ha.pending_mem h' a hmem
    exact ⟨hm, hn, fun h'' hne => by rw [hp]; exact hu h'' hne⟩
  · simpa only [hp] using ha.covered a hmem

/-- `MarkAttendance` inserts a fresh row, which the goroutine holds until it answers. -/
theorem Answered.marked {answered : List Attendance} {s : State Photo} (ha : Answered answered s)
    {h : ℕ} (st : Student) (row : Attendance) (r : AttendanceRecord) (hr : r.row = row)
    (hold : (s.handlers h).pending = []) (hfresh : row ∉ s.tables.attendance) :
    Answered answered { s.setHandler h (.reply st r) with
      tables := { s.tables with attendance := s.tables.attendance ++ [row] } } := by
  refine ⟨ha.nodup, fun a hm => List.mem_append_left _ (ha.answered_mem a hm), fun h' a hmem => ?_,
    fun a hmem => ?_⟩
  · simp only [setHandler_handlers, Function.update_apply] at hmem ⊢
    split_ifs at hmem with he
    · -- the new row: in no answer and held by no other goroutine, as it is fresh
      simp only [Handler.pending, List.mem_singleton] at hmem
      subst hmem
      refine ⟨List.mem_append_right _ (by simp [hr]), fun hm => hfresh (hr ▸ ha.answered_mem _ hm),
        fun h'' hne => ?_⟩
      rw [if_neg fun e => hne (e.trans he.symm)]
      exact fun hm => hfresh (hr ▸ (ha.pending_mem h'' _ hm).1)
    · obtain ⟨hm, hn, hu⟩ := ha.pending_mem h' a hmem
      refine ⟨List.mem_append_left _ hm, hn, fun h'' hne => ?_⟩
      split_ifs with he'
      · simp only [Handler.pending, List.mem_singleton]
        rintro rfl
        exact hfresh (hr ▸ hm)
      · exact hu h'' hne
  · rcases List.mem_append.mp hmem with hm | hm
    · rcases ha.covered a hm with hans | ⟨h', hp⟩
      · exact .inl hans
      · refine .inr ⟨h', ?_⟩
        simp only [setHandler_handlers, Function.update_apply]
        split_ifs with he
        · rw [he, hold] at hp
          exact absurd hp List.not_mem_nil
        · exact hp
    · refine .inr ⟨h, ?_⟩
      simp [Handler.pending, List.mem_singleton.mp hm, hr]

/-- The 200 answer gives the goroutine's row, which no answer gave before. -/
theorem Answered.loggedIn {answered : List Attendance} {s : State Photo} (ha : Answered answered s)
    {h : ℕ} {st : Student} {r : AttendanceRecord} (hh : s.handlers h = .reply st r) :
    Answered (answered ++ [r.row]) (s.setHandler h .idle) := by
  have hpend : r.row ∈ (s.handlers h).pending := by simp [hh, Handler.pending]
  obtain ⟨hmem, hnew, huniq⟩ := ha.pending_mem h r.row hpend
  refine ⟨List.nodup_append.mpr ⟨ha.nodup, List.nodup_singleton _, ?_⟩, fun a hm => ?_,
    fun h' a hm => ?_, fun a hm => ?_⟩
  · intro a ha' b hb
    rw [List.mem_singleton.mp hb]
    rintro rfl
    exact hnew ha'
  · rcases List.mem_append.mp hm with hm | hm
    · exact ha.answered_mem a hm
    · exact List.mem_singleton.mp hm ▸ hmem
  · simp only [setHandler_handlers, Function.update_apply] at hm ⊢
    split_ifs at hm with he
    · exact absurd hm List.not_mem_nil
    · obtain ⟨hm', hn, hu⟩ := ha.pending_mem h' a hm
      -- another goroutine's row is not the one just answered
      have hne : a ≠ r.row := by
        rintro rfl
        exact huniq h' he hm
      refine ⟨hm', fun hans => ?_, fun h'' hne' => ?_⟩
      · rcases List.mem_append.mp hans with hans | hans
        · exact hn hans
        · exact hne (List.mem_singleton.mp hans)
      · split_ifs
        · exact List.not_mem_nil
        · exact hu h'' hne'
  · rcases ha.covered a hm with hans | ⟨h', hp⟩
    · exact .inl (List.mem_append_left _ hans)
    · by_cases he : h' = h
      · rw [he, hh] at hp
        simp only [Handler.pending, List.mem_singleton] at hp
        exact .inl (List.mem_append_right _ (List.mem_singleton.mpr hp))
      · refine .inr ⟨h', ?_⟩
        simp only [setHandler_handlers, Function.update_apply, if_neg he]
        exact hp

/-- Every step keeps `Answered`, with its answer's row appended. -/
theorem Answered.step {env : Env Photo} {answered : List Attendance} {s s' : State Photo}
    {a : Action Photo} (ha : Answered answered s) (hs : Step env s a s') :
    Answered (answered ++ a.row) s' := by
  cases hs with
  | marked h st id now r t hh hm =>
    obtain ⟨rfl, hfresh, rfl⟩ := markAttendance_eq_some hm
    have hnot : (⟨id.text, st.id, now, "present"⟩ : Attendance) ∉ s.tables.attendance :=
      fun hm' => hfresh _ hm' rfl
    simpa [Action.row] using ha.marked st ⟨id.text, st.id, now, "present"⟩
      { (⟨id.text, st.id, now, "present"⟩ : Attendance).record "" with name := st.name } rfl
      (by rw [hh]; rfl) hnot
  | loggedIn h st r hh => exact ha.loggedIn hh
  | register h req photo hidle _ =>
    simp only [Action.row, List.append_nil]
    exact ha.setHandler (by rw [hidle]; rfl) (by split <;> rfl)
  | unbound | noPhoto | unreadable =>
    simpa only [Action.row, List.append_nil] using ha
  -- the other goroutine moves hold no row before or after
  | uploaded h req photo url hh | uploadFailed h req photo hh | createFailed h req photo url err hh
    | enrolLost h st photo hh | unrecognized h photo r hh | recognized h photo r hh
    | recognizeFailed h photo hh | notFound h id hh | lookupFailed h id hh | found h id st hh
    | markFailed h st hh | login h photo hh =>
    simp only [Action.row, List.append_nil]
    exact ha.setHandler (by rw [hh]; rfl) rfl
  | created h req photo url id now st t hh hc =>
    obtain ⟨-, -, rfl⟩ := createStudent_eq_some hc
    have ha' : Answered answered { s with tables := { s.tables with students := s.tables.students ++ [st] } } :=
      ⟨ha.nodup, ha.answered_mem, ha.pending_mem, ha.covered⟩
    simp only [Action.row, List.append_nil]
    exact ha'.setHandler (h := h) (x := .enrol st photo) (by rw [hh]; rfl) rfl
  | enrolled h st photo form hh _ =>
    have ha' : Answered answered { s with faces := env.enrolled s.faces form photo } :=
      ⟨ha.nodup, ha.answered_mem, ha.pending_mem, ha.covered⟩
    simp only [Action.row, List.append_nil]
    exact ha'.setHandler (h := h) (x := .idle) (by rw [hh]; rfl) rfl

end GoAttend.NewGoAttend
