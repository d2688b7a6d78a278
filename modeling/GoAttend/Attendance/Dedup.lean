import GoAttend.Attendance.System

namespace GoAttend.Attendance

/-- Every one of the first `n` rows of the user and device of `req` is more than `window` older
than `t`. -/
def OlderThan (window : ℕ) (rows : List Stamp) (n : ℕ) (req : CheckinRequest) (t : ℕ) : Prop :=
  ∀ i < n, ∀ r, rows[i]? = some r → r.userId = req.userId → r.deviceId = req.deviceId →
    r.occurredAt + window < t

/-- What a handler between `RecentEvent` and `InsertEvent` knows of the rows its query saw. -/
def HandlerOk (window : ℕ) (rows : List Stamp) (clock : ℕ) : Handler → Prop
  | .fresh req n => n ≤ rows.length ∧ OlderThan window rows n req clock
  | .insert req n t => n ≤ rows.length ∧ OlderThan window rows n req t
  | _ => True

/-- The invariant of deduplication: each row is more than `window` after every row of its user
and device that its own `RecentEvent` saw. -/
structure DedupInv (window : ℕ) (s : State) : Prop where
  seen_length : s.seen.length = s.events.length
  seen_le : ∀ (j n : ℕ), s.seen[j]? = some n → n ≤ j
  handlers : ∀ h, HandlerOk window (s.events.map Event.stamp) s.clock (s.handlers h)
  apart : ∀ (i j n : ℕ) (a b : Stamp), (s.events.map Event.stamp)[i]? = some a →
    (s.events.map Event.stamp)[j]? = some b → s.seen[j]? = some n → i < n →
    a.userId = b.userId → a.deviceId = b.deviceId → a.occurredAt + window < b.occurredAt

theorem OlderThan.mono {window n t t' : ℕ} {rows : List Stamp} {req : CheckinRequest}
    (h : OlderThan window rows n req t) (ht : t ≤ t') : OlderThan window rows n req t' := by
  intro i hi r hr hu hd
  have := h i hi r hr hu hd
  omega

theorem OlderThan.append {window n t : ℕ} {rows : List Stamp} {req : CheckinRequest}
    (x : Stamp) (hn : n ≤ rows.length) (h : OlderThan window rows n req t) :
    OlderThan window (rows ++ [x]) n req t := by
  intro i hi r hr
  rw [List.getElem?_append_left (by omega)] at hr
  exact h i hi r hr

theorem HandlerOk.tick {window clock : ℕ} {rows : List Stamp} {x : Handler}
    (h : HandlerOk window rows clock x) : HandlerOk window rows (clock + 1) x := by
  cases x with
  | fresh req n => exact ⟨h.1, h.2.mono (Nat.le_succ clock)⟩
  | _ => exact h

theorem HandlerOk.append {window clock : ℕ} {rows : List Stamp} {x : Handler} (y : Stamp)
    (h : HandlerOk window rows clock x) : HandlerOk window (rows ++ [y]) clock x := by
  cases x with
  | fresh req n =>
    obtain ⟨hn, ho⟩ := h
    exact ⟨by simp only [List.length_append, List.length_singleton]; omega, ho.append y hn⟩
  | insert req n t =>
    obtain ⟨hn, ho⟩ := h
    exact ⟨by simp only [List.length_append, List.length_singleton]; omega, ho.append y hn⟩
  | _ => exact h

theorem handlerOk_update {window clock : ℕ} {rows : List Stamp} {hs : ℕ → Handler}
    (hall : ∀ h, HandlerOk window rows clock (hs h)) (h : ℕ) {x : Handler}
    (hx : HandlerOk window rows clock x) :
    ∀ h', HandlerOk window rows clock (Function.update hs h x h') := by
  intro h'
  by_cases he : h' = h
  · subst he
    simpa using hx
  · simpa [Function.update_of_ne he] using hall h'

/-- A `RecentEvent` that finds nothing in the window: every row of the user and device is more
than `window` older than the query's `NOW()`. -/
theorem olderThan_of_miss {window : ℕ} {s : State} {req : CheckinRequest}
    (hnone : ∀ e ∈ s.events, ¬InWindow s.clock window req.userId req.deviceId e) :
    OlderThan window (s.events.map Event.stamp) s.events.length req s.clock := by
  intro i _ r hr hu hd
  rw [List.getElem?_map] at hr
  obtain ⟨e, he, rfl⟩ := Option.map_eq_some_iff.mp hr
  have hn := hnone e (List.mem_of_getElem? he)
  simp only [Event.stamp] at hu hd ⊢
  simp only [InWindow, hu, hd, true_and, Nat.not_le] at hn
  omega

theorem dedupInv_init {window : ℕ} (t : ℕ) : DedupInv window (init t) where
  seen_length := rfl
  seen_le _ _ h := by simp [init] at h
  handlers _ := trivial
  apart _ _ _ _ _ h := by simp [init] at h

theorem DedupInv.setHandler {window : ℕ} {s : State} (hi : DedupInv window s) (h : ℕ)
    {x : Handler} (hx : HandlerOk window (s.events.map Event.stamp) s.clock x) :
    DedupInv window (s.setHandler h x) where
  seen_length := hi.seen_length
  seen_le := hi.seen_le
  handlers := handlerOk_update hi.handlers h hx
  apart := hi.apart

/-- An inserted row is apart from the rows its handler saw, and the rows before it keep their
indices and ghost counts; the handler goes on to publish, or answers 400 when the insert's error
comes back after the commit. -/
theorem DedupInv.insert {window : ℕ} {s : State} (hi : DedupInv window s) {h : ℕ}
    {req : CheckinRequest} {n t : ℕ} {id : String} {events : List Event} {x : Handler}
    (hx : HandlerOk window (s.events.map Event.stamp) s.clock x)
    (hh : s.handlers h = .insert req n t)
    (hins : insertEvent s.devices s.events (newEvent id req t) = some events) :
    DedupInv window { s.setHandler h x with events, seen := s.seen ++ [n] } := by
  obtain ⟨-, -, rfl⟩ := insertEvent_eq_some.mp hins
  have hok : HandlerOk window (s.events.map Event.stamp) s.clock (.insert req n t) :=
    hh ▸ hi.handlers h
  obtain ⟨hn, hold⟩ := hok
  have hlen := hi.seen_length
  refine ⟨by simp [hi.seen_length], ?_, ?_, ?_⟩
  · intro j m hm
    by_cases hj : j < s.seen.length
    · rw [List.getElem?_append_left hj] at hm
      exact hi.seen_le j m hm
    · have hj' : j = s.seen.length := by
        have := (List.getElem?_eq_some_iff.mp hm).1
        simp only [List.length_append, List.length_singleton] at this
        omega
      subst hj'
      rw [List.getElem?_concat_length, Option.some.injEq] at hm
      simp only [List.length_map] at hn
      omega
  · intro h'
    simp only [setHandler_handlers, List.map_append, List.map_cons, List.map_nil]
    exact (handlerOk_update hi.handlers h hx h').append _
  · intro i j m a b ha hb hm hi' hu hd
    simp only [List.map_append, List.map_cons, List.map_nil] at ha hb
    by_cases hj : j < s.seen.length
    · rw [List.getElem?_append_left hj] at hm
      have hij : i < s.events.length := by
        have := hi.seen_le j m hm
        have := (List.getElem?_eq_some_iff.mp hm).1
        omega
      rw [List.getElem?_append_left (by simpa using hij)] at ha
      rw [List.getElem?_append_left (by simp; omega)] at hb
      exact hi.apart i j m a b ha hb hm hi' hu hd
    · -- the new row is the last one, and its ghost count is `n`
      have hj' : j = s.seen.length := by
        have := (List.getElem?_eq_some_iff.mp hm).1
        simp only [List.length_append, List.length_singleton] at this
        omega
      subst hj'
      rw [List.getElem?_concat_length, Option.some.injEq] at hm
      have hl : s.events.length = (s.events.map Event.stamp).length := by simp
      rw [hlen, hl, List.getElem?_concat_length, Option.some.injEq] at hb
      subst hm hb
      rw [List.getElem?_append_left (by simp only [List.length_map] at hn; omega)] at ha
      exact hold i hi' a ha hu hd

theorem DedupInv.step {window : ℕ} {s s' : State} {a : Action} (hi : DedupInv window s)
    (hs : Step window s a s') : DedupInv window s' := by
  cases hs with
  | tick =>
    exact ⟨hi.seen_length, hi.seen_le, fun h => (hi.handlers h).tick, hi.apart⟩
  | register => exact ⟨hi.seen_length, hi.seen_le, hi.handlers, hi.apart⟩
  | arrive => exact hi.setHandler _ trivial
  | recentFail => exact hi.setHandler _ trivial
  | recentHit => exact hi.setHandler _ trivial
  | recentMiss h req hh hnone =>
    exact hi.setHandler _ ⟨by simp, olderThan_of_miss hnone⟩
  | stamp h req n hh =>
    have hok : HandlerOk window (s.events.map Event.stamp) s.clock (.fresh req n) :=
      hh ▸ hi.handlers h
    exact hi.setHandler _ hok
  | insertOk h req n t id events hh hins | insertLost h req n t id events hh hins =>
    exact hi.insert trivial hh hins
  | insertFail => exact hi.setHandler _ trivial
  | publishOk h id hh =>
    have hidle : HandlerOk window (s.events.map Event.stamp) s.clock .idle := trivial
    obtain ⟨h1, h2, h3, h4⟩ := hi.setHandler h hidle
    exact ⟨h1, h2, h3, h4⟩
  | publishFail => exact hi.setHandler _ trivial
  | receive | fetchOk | fetchFail | embedOk | embedFail | updateFail =>
    exact ⟨hi.seen_length, hi.seen_le, hi.handlers, hi.apart⟩
  | updateOk id st sc hw =>
    refine ⟨by simpa using hi.seen_length, hi.seen_le, ?_, ?_⟩
    · simpa using hi.handlers
    · simpa using hi.apart

theorem dedupInv_of_reachable {window : ℕ} {s : State} (hs : Reachable window s) :
    DedupInv window s :=
  Reachable.induction dedupInv_init (fun _ _ _ hi h => hi.step h) hs

/-- Whenever a check-in inserts a row, the row is more than `dedupWindow` later than every row
of the same user and device that was in `attendance_events` when its `RecentEvent` ran. -/
theorem checkIn_rows_apart {window : ℕ} {s : State} (hs : Reachable window s) {i j n : ℕ}
    {a b : Event} (ha : s.events[i]? = some a) (hb : s.events[j]? = some b)
    (hn : s.seen[j]? = some n) (hi : i < n) (hu : a.userId = b.userId)
    (hd : a.deviceId = b.deviceId) : a.occurredAt + window < b.occurredAt := by
  have hinv := dedupInv_of_reachable hs
  have ha' : (s.events.map Event.stamp)[i]? = some a.stamp := by simp [ha]
  have hb' : (s.events.map Event.stamp)[j]? = some b.stamp := by simp [hb]
  exact hinv.apart i j n a.stamp b.stamp ha' hb' hn hi hu hd

theorem checkIn_rows_apart_sequential :
    ∃ s, Reachable 2 s ∧ ∃ a b, s.events[0]? = some a ∧ s.events[1]? = some b ∧
      s.seen[1]? = some 1 ∧ a.occurredAt + 2 < b.occurredAt := by
  let req : CheckinRequest := ⟨"u", "d", "", ""⟩
  have r0 : Reachable 2 (init 0) := ⟨0, Lib.Runs.refl⟩
  have r1 := r0.tail (Step.register _ "d" ["d"] (by decide) rfl)
  have r2 := r1.tail (Step.arrive _ 0 "d" req rfl (by simp) (by decide) (by decide))
  have r3 := r2.tail (Step.recentMiss _ 0 req rfl (by simp [init]))
  have r4 := r3.tail (Step.stamp _ 0 req 0 rfl)
  have r5 := r4.tail (Step.insertOk _ 0 req 0 0 "a" [newEvent "a" req 0] rfl (by decide))
  have r6 := ((r5.tail (Step.tick _)).tail (Step.tick _)).tail (Step.tick _)
  have r7 := r6.tail (Step.arrive _ 1 "d" req rfl (by simp) (by decide) (by decide))
  have r8 := r7.tail (Step.recentMiss _ 1 req rfl (by simp [InWindow, newEvent]))
  have r9 := r8.tail (Step.stamp _ 1 req 1 rfl)
  have r10 := r9.tail
    (Step.insertOk _ 1 req 1 3 "b" [newEvent "a" req 0, newEvent "b" req 3] rfl (by decide))
  exact ⟨_, r10, _, _, rfl, rfl, rfl,
    @checkIn_rows_apart 2 _ r10 0 1 1 _ _ rfl rfl rfl (by decide) rfl rfl⟩

/-- Two check-ins of one user and device whose `RecentEvent` queries both run before either
`InsertEvent` store two rows with the same `occurred_at`. -/
theorem overlapping_checkIns_duplicate :
    ∃ s, Reachable apiDedupWindow s ∧ ∃ a ∈ s.events, ∃ b ∈ s.events,
      a ≠ b ∧ a.userId = b.userId ∧ a.deviceId = b.deviceId ∧ a.occurredAt = b.occurredAt := by
  let req : CheckinRequest := ⟨"u", "d", "", ""⟩
  have r0 : Reachable apiDedupWindow (init 0) := ⟨0, Lib.Runs.refl⟩
  have r1 := r0.tail (Step.register _ "d" ["d"] (by decide) rfl)
  have r2 := r1.tail (Step.arrive _ 0 "d" req rfl (by simp) (by decide) (by decide))
  have r3 := r2.tail (Step.arrive _ 1 "d" req rfl (by simp) (by decide) (by decide))
  -- both queries run before either insert, so both see an empty window
  have r4 := r3.tail (Step.recentMiss _ 0 req rfl (by simp [init]))
  have r5 := r4.tail (Step.recentMiss _ 1 req rfl (by simp [init]))
  have r6 := r5.tail (Step.stamp _ 0 req 0 rfl)
  have r7 := r6.tail (Step.stamp _ 1 req 0 rfl)
  have r8 := r7.tail (Step.insertOk _ 0 req 0 0 "a" [newEvent "a" req 0] rfl (by decide))
  have r9 := r8.tail
    (Step.insertOk _ 1 req 0 0 "b" [newEvent "a" req 0, newEvent "b" req 0] rfl (by decide))
  exact ⟨_, r9, newEvent "a" req 0, by simp, newEvent "b" req 0, by simp, by decide, rfl, rfl, rfl⟩

end GoAttend.Attendance
