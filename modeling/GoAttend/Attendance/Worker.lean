import GoAttend.Attendance.System
import GoAttend.Config.Load

/-! `cmd/worker` with its face client, `faceclient.New(cfg.FaceServiceURL, cfg.FaceSkip)`. The
system of `System` leaves the answer of `EmbedWithScore` to the environment; here it is the
client's: with `Skip`, the fixed mock result; without it, an error for an event without an image
and otherwise what the face service's `POST /embed` answers. `FACE_SKIP` is on unless the
environment turns it off, and then no face is ever looked at: in every state the system reaches,
each row is pending, or processed with the mock's detection score, and none has failed. -/

namespace GoAttend.Attendance

open Config

/-- `EmbedResult`, as far as the worker reads it. -/
structure EmbedResult where
  embedding : List ℚ
  score : ℚ
  facesDetected : ℕ

/-- `Client.EmbedWithScore`. `embed` is what `POST /embed` gives for an image URL: the decoded
answer, or the error of the request, of its status or of the decoding. -/
def embedWithScore (skip : Bool) (embed : String → Except String EmbedResult) (imageURL : String) :
    Except String EmbedResult :=
  if skip then .ok ⟨[0.1, 0.2, 0.3], 0.95, 1⟩
  else if imageURL = "" then .error "image url required"
  else match embed imageURL with
    | .ok out => if out.embedding.length = 0 then .error "no face detected in image" else .ok out
    | .error err => .error err

/-- A step of the system whose worker asks `client` about the image of the event it holds: an
answer with a score is the client's, and a failure is the client's error. -/
def ClientStep (client : String → Except String EmbedResult) (window : ℕ) (s : State) (a : Action)
    (s' : State) : Prop :=
  Step window s a s' ∧ ∀ id url, s.worker = .embed id url →
    (∀ score, a = .embedOk score → ∃ out, client url = .ok out ∧ out.score = score) ∧
      (a = .embedFail → ∃ err, client url = .error err)

/-- The states some run of the system with this face client reaches. -/
def ClientReachable (client : String → Except String EmbedResult) (window : ℕ) (s : State) : Prop :=
  ∃ t, Lib.Runs (ClientStep client window) (fun _ => True) (init t) s

/-- The worker with a face client is one way the system runs. -/
theorem ClientReachable.reachable {client : String → Except String EmbedResult} {window : ℕ}
    {s : State} (h : ClientReachable client window s) : Reachable window s := by
  obtain ⟨t, hrun⟩ := h
  exact ⟨t, hrun.restrict fun _ _ _ hs => hs.1⟩

/-! ## The mock client -/

/-- A row as the mock client leaves it: pending, or processed with the mock's score. -/
def MockRow (e : Event) : Prop :=
  (e.status = .pending ∧ e.matchScore = none) ∨ (e.status = .processed ∧ e.matchScore = some 0.95)

/-- The invariant of the system with the mock client: every row is a mock row, and the worker
only ever writes one. -/
structure SkipInv (s : State) : Prop where
  rows : ∀ e ∈ s.events, MockRow e
  worker : ∀ id st sc, s.worker = .update id st sc → st = .processed ∧ sc = some 0.95

/-- `UpdateEventStatus` with the mock's outcome keeps every row a mock row. -/
theorem mockRow_updateEventStatus {events : List Event} (h : ∀ e ∈ events, MockRow e) (id : String)
    {e : Event} (he : e ∈ updateEventStatus events id .processed (some 0.95)) : MockRow e := by
  obtain ⟨e₀, he₀, rfl⟩ := List.mem_map.mp he
  split_ifs
  · exact .inr ⟨rfl, rfl⟩
  · exact h e₀ he₀

/-- The step lemma: with the mock client, a step keeps the invariant. The client never fails, and
its score is the mock's. -/
theorem SkipInv.step {embed : String → Except String EmbedResult} {window : ℕ} {s s' : State}
    {a : Action} (hi : SkipInv s) (h : ClientStep (embedWithScore true embed) window s a s') :
    SkipInv s' := by
  obtain ⟨hstep, hclient⟩ := h
  cases hstep with
  | insertOk h req n t id events hh hins | insertLost h req n t id events hh hins =>
    -- the new row is pending
    obtain ⟨-, -, rfl⟩ := insertEvent_eq_some.mp hins
    refine ⟨fun e he => ?_, hi.worker⟩
    rcases List.mem_append.mp he with he | he
    · exact hi.rows e he
    · rw [List.mem_singleton.mp he]
      exact .inl ⟨rfl, rfl⟩
  | embedOk id url score hw =>
    obtain ⟨out, hout, rfl⟩ := (hclient id url hw).1 score rfl
    simp only [embedWithScore, if_true, Except.ok.injEq] at hout
    subst hout
    refine ⟨hi.rows, fun id' st sc hu => ?_⟩
    cases hu
    exact ⟨rfl, rfl⟩
  | embedFail id url hw =>
    obtain ⟨err, herr⟩ := (hclient id url hw).2 rfl
    simp [embedWithScore] at herr
  | updateOk id st sc hw =>
    obtain ⟨rfl, rfl⟩ := hi.worker id st sc hw
    exact ⟨fun e he => mockRow_updateEventStatus hi.rows id he, fun _ _ _ hu => Worker.noConfusion hu⟩
  | updateFail => exact ⟨hi.rows, fun _ _ _ hu => Worker.noConfusion hu⟩
  | receive => exact ⟨hi.rows, fun _ _ _ hu => Worker.noConfusion hu⟩
  | fetchOk => exact ⟨hi.rows, fun _ _ _ hu => Worker.noConfusion hu⟩
  | fetchFail => exact ⟨hi.rows, fun _ _ _ hu => Worker.noConfusion hu⟩
  -- the API's steps write no row and leave the worker as it was
  | _ => exact ⟨hi.rows, hi.worker⟩

end GoAttend.Attendance
