import GoAttend.Attendance.Status

namespace GoAttend.Attendance

/-- The event id the worker's loop is handling, if any. -/
def Worker.holds : Worker → Option String
  | .idle => none
  | .fetch id | .embed id _ | .update id _ _ => some id

/-- A `checkin` message for `id` is left to process: queued, held by the worker, or about to be
published by the handler that inserted or found the event. -/
def Covered (s : State) (id : String) : Prop :=
  id ∈ s.queue ∨ s.worker.holds = some id ∨ ∃ h, s.handlers h = .publish id

/-- The failures after which the message of a pending event is gone: `Publish`, `GetEvent` and
`UpdateEventStatus`, whose errors the code logs or discards, and an `InsertEvent` that stores its
row and still returns an error, which the handler answers with 400 and nothing published. -/
def Action.Drops : Action → Prop
  | .publishFail _ | .fetchFail | .updateFail | .insertLost _ _ => True
  | _ => False

/-- Every pending event has a message left to process it. -/
def PendingCovered (s : State) : Prop :=
  ∀ e ∈ s.events, e.status = .pending → Covered s e.id

theorem pendingCovered_init (t : ℕ) : PendingCovered (init t) := by
  intro e he
  simp [init] at he

theorem Covered.of_handlers {s s' : State} {id : String} (hc : Covered s id)
    (hq : s'.queue = s.queue) (hw : s'.worker = s.worker)
    (hh : ∀ h, s.handlers h = .publish id → s'.handlers h = .publish id) : Covered s' id := by
  rcases hc with hc | hc | ⟨h, hc⟩
  · exact Or.inl (hq ▸ hc)
  · exact Or.inr (Or.inl (hw ▸ hc))
  · exact Or.inr (Or.inr ⟨h, hh h hc⟩)

/-- A handler that leaves any phase other than `publish` takes no message away. -/
theorem covered_setHandler {s : State} {h : ℕ} {x : Handler} {id : String}
    (hx : ∀ id, s.handlers h ≠ .publish id) (hc : Covered s id) : Covered (s.setHandler h x) id := by
  refine hc.of_handlers rfl rfl (fun h' hp => ?_)
  have hne : h' ≠ h := by
    rintro rfl
    exact hx id hp
  rw [setHandler_handlers, Function.update_of_ne hne, hp]

theorem PendingCovered.setHandler {s : State} (hi : PendingCovered s) {h : ℕ} {x : Handler}
    (hx : ∀ id, s.handlers h ≠ .publish id) : PendingCovered (s.setHandler h x) :=
  fun e he hp => covered_setHandler hx (hi e he hp)

theorem PendingCovered.step {window : ℕ} {s s' : State} {a : Action} (hi : PendingCovered s)
    (hinv : StatusInv s) (hd : ¬a.Drops) (hs : Step window s a s') : PendingCovered s' := by
  cases hs with
  | tick | register => exact hi
  | arrive h _ _ hidle => exact hi.setHandler (fun _ => by simp [hidle])
  | recentFail h req hh | recentHit h req _ hh | recentMiss h req hh =>
    exact hi.setHandler (fun _ => by simp [hh])
  | stamp h req n hh => exact hi.setHandler (fun _ => by simp [hh])
  | insertFail h req n t hh => exact hi.setHandler (fun _ => by simp [hh])
  | insertOk h req n t id events hh hins =>
    obtain ⟨-, -, rfl⟩ := insertEvent_eq_some.mp hins
    intro e he hp
    rcases List.mem_append.mp he with he | he
    · have hc : Covered (s.setHandler h (.publish id)) e.id :=
        covered_setHandler (fun _ => by simp [hh]) (hi e he hp)
      exact hc
    · -- the new row: its handler is about to publish it
      rw [List.mem_singleton.mp he]
      exact Or.inr (Or.inr ⟨h, by simp [newEvent]⟩)
  | publishOk h id hh =>
    intro e he hp
    rcases hi e he hp with hc | hc | ⟨h', hc⟩
    · exact Or.inl (List.mem_append_left _ hc)
    · exact Or.inr (Or.inl hc)
    · by_cases he' : h' = h
      · subst he'
        rw [hh] at hc
        cases hc
        exact Or.inl (List.mem_append_right _ (List.mem_singleton_self _))
      · exact Or.inr (Or.inr ⟨h', by simp [Function.update_of_ne he', hc]⟩)
  | publishFail | insertLost => exact absurd trivial hd
  | receive id rest hw hq =>
    intro e he hp
    rcases hi e he hp with hc | hc | hc
    · rw [hq] at hc
      rcases List.mem_cons.mp hc with hc | hc
      · exact Or.inr (Or.inl (by simp [Worker.holds, hc]))
      · exact Or.inl hc
    · simp [hw, Worker.holds] at hc
    · exact Or.inr (Or.inr hc)
  | fetchOk id e hw he =>
    intro e' he' hp
    rcases hi e' he' hp with hc | hc | hc
    · exact Or.inl hc
    · exact Or.inr (Or.inl (by simpa [hw, Worker.holds] using hc))
    · exact Or.inr (Or.inr hc)
  | fetchFail => exact absurd trivial hd
  | embedOk id url score hw | embedFail id url hw =>
    intro e he hp
    rcases hi e he hp with hc | hc | hc
    · exact Or.inl hc
    · exact Or.inr (Or.inl (by simpa [hw, Worker.holds] using hc))
    · exact Or.inr (Or.inr hc)
  | updateOk id st sc hw =>
    intro e he hp
    obtain ⟨e0, he0, rfl⟩ := List.mem_map.mp he
    by_cases hid : e0.id = id
    · -- the updated row is no longer pending
      have hst : st ≠ .pending := by
        have hwk := hinv.worker
        rw [hw] at hwk
        exact hwk.1
      simp [hid] at hp
      exact absurd hp hst
    · simp only [hid, if_false] at hp ⊢
      rcases hi e0 he0 hp with hc | hc | hc
      · exact Or.inl hc
      · simp [hw, Worker.holds] at hc
        exact absurd hc.symm hid
      · exact Or.inr (Or.inr hc)
  | updateFail => exact absurd trivial hd

/-- The invariant of runs without dropping failures. -/
structure CoverInv (s : State) : Prop where
  covered : PendingCovered s
  status : StatusInv s

/-- In every run in which no `Publish`, `GetEvent` or `UpdateEventStatus` call fails and no
`InsertEvent` reports an error after storing its row (any other statement and any face-service
call may fail), every pending event has a `checkin` message left
to process it: queued, held by the worker, or about to be published by its handler. -/
theorem pending_event_covered {window t : ℕ} {s : State}
    (hrun : Lib.Runs (Step window) (fun a => ¬a.Drops) (init t) s) :
    ∀ e ∈ s.events, e.status = .pending → Covered s e.id := by
  have h : CoverInv s :=
    Lib.Runs.invariant ⟨pendingCovered_init t, statusInv_init t⟩
      (fun _ _ _ hi hd h => ⟨hi.covered.step hi.status hd h, hi.status.step h⟩) hrun
  exact h.covered

theorem pending_event_covered_inserted :
    ∃ s, Lib.Runs (Step apiDedupWindow) (fun a => ¬a.Drops) (init 0) s ∧
      ∀ e ∈ s.events, e.status = .pending → Covered s e.id := by
  let req : CheckinRequest := ⟨"u", "d", "", ""⟩
  have r0 : Lib.Runs (Step apiDedupWindow) (fun a => ¬a.Drops) (init 0) (init 0) := Lib.Runs.refl
  have r1 := r0.tail (by simp [Action.Drops]) (Step.register _ "d" ["d"] (by decide) rfl)
  have r2 := r1.tail (by simp [Action.Drops])
    (Step.arrive _ 0 "d" req rfl (by simp) (by decide) (by decide))
  have r3 := r2.tail (by simp [Action.Drops]) (Step.recentMiss _ 0 req rfl (by simp [init]))
  have r4 := r3.tail (by simp [Action.Drops]) (Step.stamp _ 0 req 0 rfl)
  have r5 := r4.tail (by simp [Action.Drops])
    (Step.insertOk _ 0 req 0 0 "e" [newEvent "e" req 0] rfl (by decide))
  exact ⟨_, r5, pending_event_covered r5⟩

/-- With no message queued, the worker idle and every handler idle, no event is covered. -/
theorem not_covered_of_quiet {s : State} {id : String} (hq : s.queue = []) (hw : s.worker = .idle)
    (hh : ∀ h, s.handlers h = .idle) : ¬Covered s id := by
  rintro (hc | hc | ⟨h, hc⟩)
  · simp [hq] at hc
  · simp [hw, Worker.holds] at hc
  · simp [hh h] at hc

/-- A run from the start in which `a` is the only failure that drops a message, ending with a
pending row that nothing will publish. -/
def Strands (a : Action) : Prop :=
  ∃ s, Lib.Runs (Step apiDedupWindow) (fun b => ¬b.Drops ∨ b = a) (init 0) s ∧
    ∃ e ∈ s.events, e.status = .pending ∧ ¬Covered s e.id

theorem strands_of_mem {a : Action}
    (ha : a ∈ [Action.publishFail 0, .insertLost 0 "e", .fetchFail, .updateFail]) : Strands a := by
  let req : CheckinRequest := ⟨"u", "d", "", ""⟩
  -- the check-in up to its insert, common to the four runs
  have r0 : Lib.Runs (Step apiDedupWindow) (fun b => ¬b.Drops ∨ b = a) (init 0) (init 0) :=
    Lib.Runs.refl
  have r1 := r0.tail (by simp [Action.Drops]) (Step.register _ "d" ["d"] (by decide) rfl)
  have r2 := r1.tail (by simp [Action.Drops])
    (Step.arrive _ 0 "d" req rfl (by simp) (by decide) (by decide))
  have r3 := r2.tail (by simp [Action.Drops]) (Step.recentMiss _ 0 req rfl (by simp [init]))
  have r4 := r3.tail (by simp [Action.Drops]) (Step.stamp _ 0 req 0 rfl)
  -- the insert commits and answers, and the worker receives the message published after it
  have r5 := r4.tail (by simp [Action.Drops])
    (Step.insertOk _ 0 req 0 0 "e" [newEvent "e" req 0] rfl (by decide))
  have r7 := (r5.tail (by simp [Action.Drops]) (Step.publishOk _ 0 "e" rfl)).tail
    (by simp [Action.Drops]) (Step.receive _ "e" [] rfl rfl)
  simp only [List.mem_cons, List.not_mem_nil, or_false] at ha
  rcases ha with rfl | rfl | rfl | rfl
  · -- `Publish` fails after the insert
    have r6 := r5.tail (by simp) (Step.publishFail _ 0 "e" rfl)
    exact ⟨_, r6, newEvent "e" req 0, by decide, rfl,
      not_covered_of_quiet rfl rfl (by simp [init])⟩
  · -- the row is stored and the insert still reports an error
    have r5' := r4.tail (by simp)
      (Step.insertLost _ 0 req 0 0 "e" [newEvent "e" req 0] rfl (by decide))
    exact ⟨_, r5', newEvent "e" req 0, by decide, rfl,
      not_covered_of_quiet rfl rfl (by simp [init])⟩
  · -- `GetEvent` fails
    have r8 := r7.tail (by simp) (Step.fetchFail _ "e" rfl)
    exact ⟨_, r8, newEvent "e" req 0, by decide, rfl,
      not_covered_of_quiet rfl rfl (by simp [init])⟩
  · -- the face service answers and `UpdateEventStatus` fails
    have r8 := r7.tail (by simp [Action.Drops])
      (Step.fetchOk _ "e" (newEvent "e" req 0) rfl (by decide))
    have r9 := r8.tail (by simp [Action.Drops]) (Step.embedOk _ "e" "" 1 rfl)
    have r10 := r9.tail (by simp) (Step.updateFail _ "e" .processed (some 1) rfl)
    exact ⟨_, r10, newEvent "e" req 0, by decide, rfl,
      not_covered_of_quiet rfl rfl (by simp [init])⟩

/-- Each dropping failure alone strands a pending event: after a failed `Publish`, an insert whose
error comes back after the commit, a failed `GetEvent` or a failed `UpdateEventStatus`, the row is
pending with no message queued, none held by the worker and no handler about to publish it. -/
theorem dropped_message_strands_event :
    Strands (.publishFail 0) ∧ Strands (.insertLost 0 "e") ∧ Strands .fetchFail ∧
      Strands .updateFail :=
  ⟨strands_of_mem (by simp), strands_of_mem (by simp), strands_of_mem (by simp),
    strands_of_mem (by simp)⟩

end GoAttend.Attendance
