import GoAttend.Lib.Transition

/-! A queue backend with one consumer, seen as a FIFO channel. A backend refines the channel that
carries `f a` for each published `a` when a push appends `f a` to the items it has pending (in
the order it will deliver them) and a pop delivers the first of them. Every run then delivers a
prefix of what was published, mapped by `f`, and all of it once nothing is pending. -/

namespace GoAttend.Lib.Fifo

variable {σ α β : Type*}

/-- A queue backend: `push` may refuse an item (a full buffer blocks the publisher), `pop`
takes out the next item to deliver, if there is one. -/
structure Backend (σ α β : Type*) where
  push : σ → α → Option σ
  pop : σ → Option (β × σ)

/-- A backend's store with the logs of what was published and what was delivered. -/
structure Logged (σ α β : Type*) where
  store : σ
  published : List α
  delivered : List β

/-- A store before any publish. -/
def Logged.init (st : σ) : Logged σ α β := ⟨st, [], []⟩

inductive Action (α β : Type*)
  | publish (a : α)
  | deliver (b : β)

/-- Publishers and the consumer interleave freely: each step is one publish or one delivery. -/
inductive Step (q : Backend σ α β) : Logged σ α β → Action α β → Logged σ α β → Prop
  | publish {s : Logged σ α β} {a : α} {st : σ} (h : q.push s.store a = some st) :
      Step q s (.publish a) ⟨st, s.published ++ [a], s.delivered⟩
  | deliver {s : Logged σ α β} {b : β} {st : σ} (h : q.pop s.store = some (b, st)) :
      Step q s (.deliver b) ⟨st, s.published, s.delivered ++ [b]⟩

/-- `q` refines the FIFO channel of `f`, with `view` the items it has pending, next first. -/
structure Refines (q : Backend σ α β) (view : σ → List β) (f : α → β) : Prop where
  push_view : ∀ st a st', q.push st a = some st' → view st' = view st ++ [f a]
  pop_view : ∀ st b st', q.pop st = some (b, st') → view st = b :: view st'

/-- The channel invariant: what was delivered, then what is pending, is what was published. -/
def InOrder (view : σ → List β) (f : α → β) (s : Logged σ α β) : Prop :=
  s.delivered ++ view s.store = s.published.map f

section Refinement

variable {q : Backend σ α β} {view : σ → List β} {f : α → β}

theorem inOrder_init {st : σ} (h : view st = []) : InOrder view f (Logged.init st) := by
  simp [InOrder, Logged.init, h]

theorem Refines.step (hq : Refines q view f) {s s' : Logged σ α β} {a : Action α β}
    (hs : InOrder view f s) (h : Step q s a s') : InOrder view f s' := by
  unfold InOrder at hs ⊢
  cases h with
  | publish h =>
    rw [hq.push_view _ _ _ h, ← List.append_assoc, hs, List.map_append, List.map_singleton]
  | deliver h =>
    rw [hq.pop_view _ _ _ h] at hs
    simpa using hs

theorem Refines.runs (hq : Refines q view f) {P : Action α β → Prop} {s s' : Logged σ α β}
    (h0 : InOrder view f s) (h : Runs (Step q) P s s') : InOrder view f s' :=
  Runs.invariant h0 (fun _ _ _ hs _ hst => hq.step hs hst) h

end Refinement

end GoAttend.Lib.Fifo
