import Mathlib.Logic.Basic

/-! What a web framework's engine does with a chain of handlers, each a change of the context and
a flag that says whether it aborted. The engine is a parameter; its laws are those of gin's
`Context.Next` loop for handlers that each do their work and then call `c.Next()` or
`c.Abort()`: the handlers run in order on one context, and the first that aborts ends the chain.
A handler that returns without calling either lets the loop go on, as `c.Next()` would. -/

namespace GoAttend.Lib.Gin

variable {α : Type*}

/-- An engine running chains of handlers: the context after the chain, and whether a handler
aborted it. -/
structure Chain (α : Type*) where
  run : List (α → α × Bool) → α → α × Bool

/-- The laws of gin's loop for handlers that do their work before `c.Next()`. -/
structure Chain.Lawful (E : Chain α) : Prop where
  run_nil : ∀ c, E.run [] c = (c, false)
  run_cons : ∀ h hs c, E.run (h :: hs) c = if (h c).2 then ((h c).1, true) else E.run hs (h c).1

/-- The loop itself: a lawful engine exists. -/
def Chain.loop : Chain α where
  run := go
where
  go : List (α → α × Bool) → α → α × Bool
    | [], c => (c, false)
    | h :: hs, c => if (h c).2 then ((h c).1, true) else go hs (h c).1

theorem Chain.loop_lawful : (Chain.loop : Chain α).Lawful where
  run_nil _ := rfl
  run_cons _ _ _ := rfl

namespace Chain

variable {E : Chain α} (hE : E.Lawful)
include hE

theorem run_cons_of_abort {h : α → α × Bool} (hs : List (α → α × Bool)) {c : α}
    (hab : (h c).2 = true) : E.run (h :: hs) c = ((h c).1, true) := by
  rw [hE.run_cons, if_pos hab]

theorem run_cons_of_next {h : α → α × Bool} (hs : List (α → α × Bool)) {c : α}
    (hn : (h c).2 = false) : E.run (h :: hs) c = E.run hs (h c).1 := by
  rw [hE.run_cons, if_neg (by simp [hn])]

/-- What every handler of the chain keeps, the chain keeps. -/
theorem run_invariant {P : α → Prop} {hs : List (α → α × Bool)}
    (hP : ∀ h ∈ hs, ∀ c, P c → P (h c).1) {c : α} (hc : P c) : P (E.run hs c).1 := by
  induction hs generalizing c with
  | nil => rw [hE.run_nil]; exact hc
  | cons h hs ih =>
    have hh : P (h c).1 := hP h List.mem_cons_self c hc
    by_cases hab : (h c).2
    · rw [run_cons_of_abort hE hs hab]
      exact hh
    · rw [run_cons_of_next hE hs (Bool.of_not_eq_true hab)]
      exact ih (fun h' h'm => hP h' (List.mem_cons_of_mem h h'm)) hh

end Chain

end GoAttend.Lib.Gin
