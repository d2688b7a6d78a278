import GoAttend.Attendance.System

namespace GoAttend.Attendance

/-- The request a handler is serving between admission and `InsertEvent`. -/
def Handler.request : Handler → Option CheckinRequest
  | .checkIn req | .fresh req _ | .insert req _ _ => some req
  | _ => none

/-- Tokens carry non-empty, registered subjects, and every request in flight and every row names
a device that is the subject of such a token. -/
structure DeviceInv (s : State) : Prop where
  subject_ne : ∀ d ∈ s.subjects, d ≠ ""
  subject_registered : ∀ d ∈ s.subjects, d ∈ s.devices
  handlers : ∀ h req, (s.handlers h).request = some req → req.deviceId ∈ s.subjects
  rows : ∀ e ∈ s.events, e.deviceId ∈ s.subjects

theorem registerDevice_ok {devices devices' : List String} {d : String}
    (h : registerDevice devices d = .ok devices') :
    d ∈ devices' ∧ ∀ x ∈ devices, x ∈ devices' := by
  unfold registerDevice upsertDevice at h
  split_ifs at h with h1 h2
  · cases h
    exact ⟨h2, fun _ hx => hx⟩
  · cases h
    exact ⟨List.mem_append_right _ (List.mem_singleton_self d),
      fun _ hx => List.mem_append_left _ hx⟩

/-- The handler's check fails open only for an empty subject, which no token carries. -/
theorem deviceId_eq_subject {s : State} (hi : DeviceInv s) {sub : String} {req : CheckinRequest}
    (hsub : sub ∈ s.subjects) (hclaims : ¬(sub ≠ "" ∧ sub ≠ req.deviceId)) :
    req.deviceId = sub := by
  have hne := hi.subject_ne sub hsub
  by_contra hd
  exact hclaims ⟨hne, Ne.symm hd⟩

theorem deviceInv_init (t : ℕ) : DeviceInv (init t) where
  subject_ne _ h := by simp [init] at h
  subject_registered _ h := by simp [init] at h
  handlers _ _ h := by simp [init, Handler.request] at h
  rows _ h := by simp [init] at h

theorem DeviceInv.setHandler {s : State} (hi : DeviceInv s) (h : ℕ) {x : Handler}
    (hx : ∀ req, x.request = some req → req.deviceId ∈ s.subjects) :
    DeviceInv (s.setHandler h x) where
  subject_ne := hi.subject_ne
  subject_registered := hi.subject_registered
  handlers h' req hr := by
    by_cases he : h' = h
    · subst he
      simp only [setHandler_handlers, Function.update_self] at hr
      exact hx req hr
    · simp only [setHandler_handlers, Function.update_of_ne he] at hr
      exact hi.handlers h' req hr
  rows := hi.rows

/-- The stored row names the device of the request its handler was serving. -/
theorem DeviceInv.insert {s : State} (hi : DeviceInv s) {h : ℕ} {req : CheckinRequest}
    {n t : ℕ} {id : String} {events : List Event} {x : Handler}
    (hx : ∀ r, x.request = some r → r.deviceId ∈ s.subjects) (hh : s.handlers h = .insert req n t)
    (hins : insertEvent s.devices s.events (newEvent id req t) = some events) :
    DeviceInv { s.setHandler h x with events, seen := s.seen ++ [n] } := by
  obtain ⟨-, -, rfl⟩ := insertEvent_eq_some.mp hins
  obtain ⟨h1, h2, h3, h4⟩ := hi.setHandler h hx
  refine ⟨h1, h2, h3, fun e he => ?_⟩
  rcases List.mem_append.mp he with he | he
  · exact h4 e he
  · rw [List.mem_singleton.mp he]
    exact hi.handlers h req (by simp [hh, Handler.request])

theorem DeviceInv.step {window : ℕ} {s s' : State} {a : Action} (hi : DeviceInv s)
    (hs : Step window s a s') : DeviceInv s' := by
  cases hs with
  | tick => exact ⟨hi.subject_ne, hi.subject_registered, hi.handlers, hi.rows⟩
  | register d devices hd hreg =>
    obtain ⟨hnew, hold⟩ := registerDevice_ok hreg
    refine ⟨?_, ?_, ?_, ?_⟩
    · intro x hx
      rcases List.mem_append.mp hx with hx | hx
      · exact hi.subject_ne x hx
      · rw [List.mem_singleton.mp hx]
        exact hd
    · intro x hx
      rcases List.mem_append.mp hx with hx | hx
      · exact hold x (hi.subject_registered x hx)
      · rw [List.mem_singleton.mp hx]
        exact hnew
    · exact fun h req hr => List.mem_append_left _ (hi.handlers h req hr)
    · exact fun e he => List.mem_append_left _ (hi.rows e he)
  | arrive h sub req hidle hsub hbind hclaims =>
    refine hi.setHandler h fun r hr => ?_
    simp only [Handler.request, Option.some.injEq] at hr
    subst hr
    rw [deviceId_eq_subject hi hsub hclaims]
    exact hsub
  | recentFail h req hh | recentHit h req _ hh | insertFail h req _ _ hh =>
    exact hi.setHandler h fun _ hr => by simp [Handler.request] at hr
  | recentMiss h req hh =>
    refine hi.setHandler h fun r hr => ?_
    simp only [Handler.request, Option.some.injEq] at hr
    exact hr ▸ hi.handlers h req (by simp [hh, Handler.request])
  | stamp h req n hh =>
    refine hi.setHandler h fun r hr => ?_
    simp only [Handler.request, Option.some.injEq] at hr
    exact hr ▸ hi.handlers h req (by simp [hh, Handler.request])
  | insertOk h req n t id events hh hins =>
    exact hi.insert (fun _ hr => by simp [Handler.request] at hr) hh hins
  | insertLost h req n t id events hh hins =>
    exact hi.insert (fun _ hr => by simp [Handler.request] at hr) hh hins
  | publishOk h id hh =>
    have hx : ∀ r, Handler.idle.request = some r → r.deviceId ∈ s.subjects :=
      fun _ hr => by simp [Handler.request] at hr
    obtain ⟨h1, h2, h3, h4⟩ := hi.setHandler h hx
    exact ⟨h1, h2, h3, h4⟩
  | publishFail h id hh => exact hi.setHandler h fun _ hr => by simp [Handler.request] at hr
  | receive | fetchOk | fetchFail | embedOk | embedFail | updateFail =>
    exact ⟨hi.subject_ne, hi.subject_registered, hi.handlers, hi.rows⟩
  | updateOk id st sc hw =>
    refine ⟨hi.subject_ne, hi.subject_registered, hi.handlers, fun e he => ?_⟩
    obtain ⟨e0, he0, rfl⟩ := List.mem_map.mp he
    split_ifs
    · exact hi.rows e0 he0
    · exact hi.rows e0 he0

theorem deviceInv_of_reachable {window : ℕ} {s : State} (hs : Reachable window s) :
    DeviceInv s :=
  Reachable.induction deviceInv_init (fun _ _ _ hi h => hi.step h) hs

/-- With tokens from `POST /v1/devices/register`: a check-in is admitted only for the device that
is its token's `Subject`; when its handler reaches `InsertEvent`, that device is a token subject
and has a row in `devices`, so the foreign key accepts the row (only a repeated `uuid` could make
the insert fail); and every stored event names such a device. -/
theorem checkIn_device_registered {window : ℕ} {s : State} (hs : Reachable window s) :
    (∀ h sub req s', Step window s (.arrive h sub req) s' → req.deviceId = sub) ∧
    (∀ h req n t id, s.handlers h = .insert req n t → id ∉ s.events.map Event.id →
      req.deviceId ∈ s.subjects ∧
        insertEvent s.devices s.events (newEvent id req t) = some (s.events ++ [newEvent id req t])) ∧
    (∀ e ∈ s.events, e.deviceId ∈ s.subjects ∧ e.deviceId ∈ s.devices) := by
  have hi := deviceInv_of_reachable hs
  refine ⟨?_, ?_, ?_⟩
  · intro h sub req s' hstep
    cases hstep with
    | arrive _ _ _ hidle hsub hbind hclaims => exact deviceId_eq_subject hi hsub hclaims
  · intro h req n t id hh hid
    have hsub := hi.handlers h req (by simp [hh, Handler.request])
    refine ⟨hsub, insertEvent_eq_some.mpr ⟨?_, hid, rfl⟩⟩
    exact hi.subject_registered _ hsub
  · exact fun e he => ⟨hi.rows e he, hi.subject_registered _ (hi.rows e he)⟩

theorem checkIn_device_registered_insert :
    ∃ s, Reachable apiDedupWindow s ∧ s.events ≠ [] ∧
      ∀ e ∈ s.events, e.deviceId ∈ s.subjects ∧ e.deviceId ∈ s.devices := by
  let req : CheckinRequest := ⟨"u", "d", "", ""⟩
  have r0 : Reachable apiDedupWindow (init 0) := ⟨0, Lib.Runs.refl⟩
  have r1 := r0.tail (Step.register _ "d" ["d"] (by decide) rfl)
  have r2 := r1.tail (Step.arrive _ 0 "d" req rfl (by simp) (by decide) (by decide))
  have r3 := r2.tail (Step.recentMiss _ 0 req rfl (by simp [init]))
  have r4 := r3.tail (Step.stamp _ 0 req 0 rfl)
  have r5 := r4.tail (Step.insertOk _ 0 req 0 0 "e" [newEvent "e" req 0] rfl (by decide))
  exact ⟨_, r5, by simp, (checkIn_device_registered r5).2.2⟩

end GoAttend.Attendance
