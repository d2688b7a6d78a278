import GoAttend.Attendance.System

namespace GoAttend.Attendance

/-- A pending row has no score and a processed row has one. -/
def ScoreOk (e : Event) : Prop :=
  (e.status = .pending → e.matchScore = none) ∧ (e.status = .processed → e.matchScore.isSome)

/-- What the worker is about to write is never `pending`, and `processed` comes with a score. -/
def WorkerOk : Worker → Prop
  | .update _ st sc => st ≠ .pending ∧ (st = .processed → sc.isSome)
  | _ => True

/-- The invariant behind the status theorems. -/
structure StatusInv (s : State) : Prop where
  rows : ∀ e ∈ s.events, ScoreOk e
  worker : WorkerOk s.worker

/-- How a row may change between two states: its key columns stay, it never goes back to
`pending`, and its score is never cleared. -/
def Evolves (e e' : Event) : Prop :=
  e'.stamp = e.stamp ∧ (e.status ≠ .pending → e'.status ≠ .pending) ∧
    (e.matchScore.isSome → e'.matchScore.isSome)

/-- Every row of `s` has a row of `s'` it evolved into. -/
def RowsEvolve (s s' : State) : Prop :=
  ∀ e ∈ s.events, ∃ e' ∈ s'.events, Evolves e e'

theorem Evolves.refl (e : Event) : Evolves e e := ⟨rfl, id, id⟩

theorem Evolves.trans {e e' e'' : Event} (h : Evolves e e') (h' : Evolves e' e'') :
    Evolves e e'' :=
  ⟨h'.1.trans h.1, h'.2.1 ∘ h.2.1, h'.2.2 ∘ h.2.2⟩

theorem RowsEvolve.refl (s : State) : RowsEvolve s s := fun e he => ⟨e, he, Evolves.refl e⟩

theorem RowsEvolve.trans {s s' s'' : State} (h : RowsEvolve s s') (h' : RowsEvolve s' s'') :
    RowsEvolve s s'' := by
  intro e he
  obtain ⟨e', he', hev⟩ := h e he
  obtain ⟨e'', he'', hev'⟩ := h' e' he'
  exact ⟨e'', he'', hev.trans hev'⟩

theorem RowsEvolve.of_events_eq {s s' : State} (h : s'.events = s.events) : RowsEvolve s s' :=
  fun e he => ⟨e, h ▸ he, Evolves.refl e⟩

/-- `UpdateEventStatus` with a non-pending status moves every row forward. -/
theorem evolves_update (e : Event) (id : String) {st : Status} (sc : Option ℚ)
    (hst : st ≠ .pending) :
    Evolves e (if e.id = id then { e with status := st, matchScore := sc.or e.matchScore }
      else e) := by
  split_ifs with h
  · refine ⟨rfl, fun _ => hst, ?_⟩
    intro hs
    cases sc <;> simp_all
  · exact Evolves.refl e

theorem scoreOk_update {e : Event} (he : ScoreOk e) (id : String) {st : Status} {sc : Option ℚ}
    (hw : WorkerOk (.update id st sc)) :
    ScoreOk (if e.id = id then { e with status := st, matchScore := sc.or e.matchScore }
      else e) := by
  obtain ⟨hst, hproc⟩ := hw
  split_ifs with h
  · refine ⟨fun hp => absurd hp hst, fun hp => ?_⟩
    have hsc := hproc hp
    cases sc <;> simp_all
  · exact he

theorem statusInv_init (t : ℕ) : StatusInv (init t) :=
  ⟨fun _ he => by simp [init] at he, trivial⟩

theorem StatusInv.step {window : ℕ} {s s' : State} {a : Action} (hi : StatusInv s)
    (hs : Step window s a s') : StatusInv s' := by
  cases hs with
  | insertOk h req n t id events hh hins | insertLost h req n t id events hh hins =>
    obtain ⟨-, -, rfl⟩ := insertEvent_eq_some.mp hins
    refine ⟨?_, hi.worker⟩
    intro e he
    rcases List.mem_append.mp he with he | he
    · exact hi.rows e he
    · rw [List.mem_singleton.mp he]
      exact ⟨fun _ => rfl, fun h => by simp [newEvent] at h⟩
  | updateOk id st sc hw =>
    have hwk : WorkerOk (.update id st sc) := hw ▸ hi.worker
    refine ⟨?_, trivial⟩
    intro e he
    obtain ⟨e0, he0, rfl⟩ := List.mem_map.mp he
    exact scoreOk_update (hi.rows e0 he0) id hwk
  | embedOk id url score hw => exact ⟨hi.rows, ⟨by simp, fun _ => rfl⟩⟩
  | embedFail id url hw => exact ⟨hi.rows, ⟨by simp, fun h => by simp at h⟩⟩
  | receive | fetchOk | fetchFail | updateFail => exact ⟨hi.rows, trivial⟩
  | _ => exact ⟨hi.rows, hi.worker⟩

/-- One step moves every row forward. -/
theorem rowsEvolve_step {window : ℕ} {s s' : State} {a : Action} (hi : StatusInv s)
    (hs : Step window s a s') : RowsEvolve s s' := by
  cases hs with
  | insertOk h req n t id events hh hins | insertLost h req n t id events hh hins =>
    obtain ⟨-, -, rfl⟩ := insertEvent_eq_some.mp hins
    exact fun e he => ⟨e, List.mem_append_left _ he, Evolves.refl e⟩
  | updateOk id st sc hw =>
    have hwk : WorkerOk (.update id st sc) := hw ▸ hi.worker
    exact fun e he => ⟨_, List.mem_map_of_mem he, evolves_update e id sc hwk.1⟩
  | _ => exact RowsEvolve.of_events_eq rfl

theorem statusInv_of_reachable {window : ℕ} {s : State} (hs : Reachable window s) :
    StatusInv s :=
  Reachable.induction statusInv_init (fun _ _ _ hi h => hi.step h) hs

/-- Along every run from a reachable state, each event keeps its id, user, device and time, never
returns to `pending` once it has left it, and never loses a score once written; in every state
a pending event has no score and a processed one has. -/
theorem event_status_evolution {window : ℕ} {s s' : State} (hs : Reachable window s)
    (hrun : Lib.Runs (Step window) (fun _ => True) s s') :
    RowsEvolve s s' ∧ ∀ e ∈ s'.events, ScoreOk e := by
  have hinv := statusInv_of_reachable hs
  refine ⟨?_, ?_⟩
  · exact Lib.Runs.stable RowsEvolve.refl (fun _ _ _ h h' => h.trans h')
      (fun _ _ _ hi _ h => hi.step h) (fun _ _ _ hi _ h => rowsEvolve_step hi h) hinv hrun
  · exact (Lib.Runs.invariant hinv (fun _ _ _ hi _ h => hi.step h) hrun).rows

/-- A check-in the worker has processed, then a second check-in deduplicated onto it: the second
message is delivered, and this time the face service fails. -/
theorem redelivered_checkIn_run :
    let e : Event := { newEvent "e" ⟨"u", "d", "", ""⟩ 0 with
      status := .processed, matchScore := some 1 }
    ∃ s s', Reachable apiDedupWindow s ∧ Lib.Runs (Step apiDedupWindow) (fun _ => True) s s' ∧
      e ∈ s.events ∧ { e with status := .failed } ∈ s'.events := by
  intro e
  let req : CheckinRequest := ⟨"u", "d", "", ""⟩
  have r0 : Reachable apiDedupWindow (init 0) := ⟨0, Lib.Runs.refl⟩
  have r1 := r0.tail (Step.register _ "d" ["d"] (by decide) rfl)
  have r2 := r1.tail (Step.arrive _ 0 "d" req rfl (by simp) (by decide) (by decide))
  have r3 := r2.tail (Step.recentMiss _ 0 req rfl (by simp [init]))
  have r4 := r3.tail (Step.stamp _ 0 req 0 rfl)
  have r5 := r4.tail (Step.insertOk _ 0 req 0 0 "e" [newEvent "e" req 0] rfl (by decide))
  have r6 := r5.tail (Step.publishOk _ 0 "e" rfl)
  -- the same request again, inside the window: `CheckIn` returns the existing row
  have r7 := r6.tail (Step.arrive _ 1 "d" req rfl (by simp) (by decide) (by decide))
  have r8 := r7.tail (Step.recentHit _ 1 req (newEvent "e" req 0) rfl
    ⟨by decide, by decide, by decide⟩)
  have r9 := r8.tail (Step.publishOk _ 1 "e" rfl)
  have r10 := r9.tail (Step.receive _ "e" ["e"] rfl rfl)
  have r11 := r10.tail (Step.fetchOk _ "e" (newEvent "e" req 0) rfl (by decide))
  have r12 := r11.tail (Step.embedOk _ "e" "" 1 rfl)
  have r13 := r12.tail (Step.updateOk _ "e" .processed (some 1) rfl)
  -- the second message: now the face service fails
  refine ⟨_, _, r13, (((Lib.Runs.refl.tail trivial (Step.receive _ "e" [] rfl rfl)).tail trivial
      (Step.fetchOk _ "e" e rfl (by decide))).tail trivial (Step.embedFail _ "e" "" rfl)).tail
      trivial (Step.updateOk _ "e" .failed none rfl), by decide, by decide⟩

theorem event_status_evolution_redelivered :
    ∃ s s', Reachable apiDedupWindow s ∧ Lib.Runs (Step apiDedupWindow) (fun _ => True) s s' ∧
      s.events ≠ [] ∧ RowsEvolve s s' ∧ ∀ e ∈ s'.events, ScoreOk e := by
  obtain ⟨s, s', hs, hrun, he, -⟩ := redelivered_checkIn_run
  exact ⟨s, s', hs, hrun, List.ne_nil_of_mem he, event_status_evolution hs hrun⟩

/-- A check-in deduplicated onto a processed event republishes its id, and the worker's
unconditional `UPDATE` then marks the processed event `failed`. -/
theorem processed_event_later_failed :
    ∃ s s', Reachable apiDedupWindow s ∧ Lib.Runs (Step apiDedupWindow) (fun _ => True) s s' ∧
      ∃ e ∈ s.events, e.status = .processed ∧
        ∃ e' ∈ s'.events, e'.id = e.id ∧ e'.status = .failed := by
  obtain ⟨s, s', hs, hrun, he, he'⟩ := redelivered_checkIn_run
  exact ⟨s, s', hs, hrun, _, he, rfl, _, he', rfl, rfl⟩

end GoAttend.Attendance
