import ReactiveDemo.ForStd.Run

/-!
# Processes that take turns

A `Pool` is a shared state and a list of processes. New processes arrive at any time, and
one process after the other takes a step on the shared state, in any order. A property of
every process is kept when its own steps keep it, and the steps of the others do not break
it.

## Key results

- `step_cases`: what a move does
- `All.step`: own steps and steps of others, put together
-/

/-- A shared state and the processes that work on it. -/
structure Pool (σ π : Type*) where
  shared : σ
  procs : List π

namespace Pool

/-- A process arrives, or the process with an index takes a step on some input. -/
inductive Move (ε π : Type*) where
  | arrive (p : π)
  | advance (i : Nat) (input : ε)

variable {σ π ε : Type*}

/-- One move. `advance i input p s` is the step of the process `p` with index `i`, and `none`
    when the process has ended. -/
def step (advance : Nat → ε → π → σ → Option (π × σ)) (pool : Pool σ π) :
    Move ε π → Option (Pool σ π)
  | .arrive p => some { pool with procs := pool.procs ++ [p] }
  | .advance i input =>
    (pool.procs[i]?).bind fun p =>
      (advance i input p pool.shared).map fun r => ⟨r.2, pool.procs.set i r.1⟩

variable {advance : Nat → ε → π → σ → Option (π × σ)} {pool pool' : Pool σ π} {a : Move ε π}

/-- A process arrives behind the others, or one process and the shared state change. -/
theorem step_cases (h : pool.step advance a = some pool') :
    (∃ p, a = .arrive p ∧ pool' = { pool with procs := pool.procs ++ [p] }) ∨
    (∃ i input p p' s', a = .advance i input ∧ pool.procs[i]? = some p ∧
      advance i input p pool.shared = some (p', s') ∧ pool' = ⟨s', pool.procs.set i p'⟩) := by
  cases a with
  | arrive p =>
    cases h
    exact Or.inl ⟨p, rfl, rfl⟩
  | advance i input =>
    simp only [step, Option.bind_eq_some_iff, Option.map_eq_some_iff] at h
    obtain ⟨p, hp, ⟨p', s'⟩, hadvance, rfl⟩ := h
    exact Or.inr ⟨i, input, p, p', s', rfl, hp, hadvance, rfl⟩

/-- Every process satisfies `J`, which may look at its index and at the shared state. -/
def All (J : Nat → σ → π → Prop) (pool : Pool σ π) : Prop :=
  ∀ i p, pool.procs[i]? = some p → J i pool.shared p

/-- A property of every process is kept by a move when a process that arrives has it, the
    process that moves keeps it for itself, and keeps it for the others. -/
theorem All.step {J : Nat → σ → π → Prop} (hall : pool.All J)
    (hstep : pool.step advance a = some pool')
    (harrive : ∀ p, a = .arrive p → J pool.procs.length pool.shared p)
    (hown : ∀ i input p p' s', a = .advance i input → pool.procs[i]? = some p →
      advance i input p pool.shared = some (p', s') → J i pool.shared p → J i s' p')
    (hother : ∀ i input p p' s', a = .advance i input → pool.procs[i]? = some p →
      advance i input p pool.shared = some (p', s') →
        ∀ j q, j ≠ i → J j pool.shared q → J j s' q) : pool'.All J := by
  rcases step_cases hstep with ⟨p, ha, rfl⟩ | ⟨i, input, p, p', s', ha, hp, hadvance, rfl⟩
  · -- the new process stands behind the others
    intro j q hq
    rw [List.getElem?_append] at hq
    split at hq
    · exact hall j q hq
    · rename_i hlast
      simp only [List.getElem?_singleton, Option.ite_none_right_eq_some, Option.some.injEq] at hq
      obtain ⟨hj, rfl⟩ := hq
      have hindex : j = pool.procs.length := by omega
      rw [hindex]
      exact harrive p ha
  · -- the process with the index `i`, or another one
    intro j q hq
    by_cases hj : j = i
    -- the process that has moved
    · subst hj
      obtain ⟨hlt, -⟩ := List.getElem?_eq_some_iff.mp hp
      rw [List.getElem?_set_self hlt, Option.some.injEq] at hq
      rw [← hq]
      exact hown j input p p' s' ha hp hadvance (hall j p hp)
    -- the others are where they were, and the shared state has changed
    · rw [List.getElem?_set_ne (Ne.symm hj)] at hq
      exact hother i input p p' s' ha hp hadvance j q hj (hall j q hq)

end Pool
