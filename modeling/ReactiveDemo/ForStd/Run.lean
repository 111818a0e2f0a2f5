import Mathlib

/-!
# Runs of partial step functions

A system is given by a step function `step : σ → α → Option σ`: the state after
an event, or `none` when the event is not enabled. `run` executes a list of
events, so a concrete history can be evaluated; the lemmas below turn facts about
one step into facts about every state of a run.

## Key results

- `run_invariant`: what every step keeps holds at the end of a run
- `run_invariant_along`: the same when only the steps with a side condition keep it
- `along_congr_of_mem`: step conditions that agree under an invariant hold along the same runs
- `along_iff`: a condition holds along a run iff it holds at every split of it
- `always_iff_along`: a property of all states of a run, as a condition on its steps
- `run_rel`: a simulation of steps, some of them silent, is a simulation of runs
- `exists_run_of_variant`: where a measure can be made smaller until it is zero, a run does so
-/

namespace Transition

variable {σ α : Type*} {step : σ → α → Option σ}

/-- Execute a list of events; `none` as soon as an event is not enabled. -/
def run (step : σ → α → Option σ) : σ → List α → Option σ
  | s, [] => some s
  | s, e :: es => (step s e).bind fun s' => run step s' es

/-- Every event of the run from `s` satisfies `C` in the state it is taken in. -/
def Along (step : σ → α → Option σ) (C : σ → α → Prop) : σ → List α → Prop
  | _, [] => True
  | s, e :: es => C s e ∧ ∀ s', step s e = some s' → Along step C s' es

/-- `t` is reached by some run from an initial state. -/
def Reachable (step : σ → α → Option σ) (Init : σ → Prop) (t : σ) : Prop :=
  ∃ s es, Init s ∧ run step s es = some t

@[simp] theorem run_nil (s : σ) : run step s [] = some s := rfl

theorem run_cons_eq_some {s t : σ} {e : α} {es : List α} :
    run step s (e :: es) = some t ↔ ∃ s', step s e = some s' ∧ run step s' es = some t := by
  simp only [run, Option.bind_eq_some_iff]

/-- A run over two lists of events is one after the other. -/
theorem run_append (s : σ) (es fs : List α) :
    run step s (es ++ fs) = (run step s es).bind fun t => run step t fs := by
  induction es generalizing s with
  | nil => rfl
  | cons e es ih =>
    simp only [List.cons_append, run]
    cases hstep : step s e with
    | none => rfl
    | some s' => simpa using ih s'

theorem run_append_eq_some {s u : σ} {es fs : List α} :
    run step s (es ++ fs) = some u ↔ ∃ t, run step s es = some t ∧ run step t fs = some u := by
  rw [run_append, Option.bind_eq_some_iff]

/-- What every enabled step keeps holds at the end of a run. -/
theorem run_invariant {I : σ → Prop} (hstep : ∀ s e s', I s → step s e = some s' → I s')
    {s t : σ} {es : List α} (h0 : I s) (hrun : run step s es = some t) : I t := by
  induction es generalizing s with
  | nil => cases hrun; exact h0
  | cons e es ih =>
    obtain ⟨s', hs', hrest⟩ := run_cons_eq_some.mp hrun
    exact ih (hstep s e s' h0 hs') hrest

/-- What the steps with condition `C` keep holds at the end of a run along `C`. -/
theorem run_invariant_along {I : σ → Prop} {C : σ → α → Prop}
    (hstep : ∀ s e s', I s → C s e → step s e = some s' → I s')
    {s t : σ} {es : List α} (h0 : I s) (halong : Along step C s es)
    (hrun : run step s es = some t) : I t := by
  induction es generalizing s with
  | nil => cases hrun; exact h0
  | cons e es ih =>
    obtain ⟨s', hs', hrest⟩ := run_cons_eq_some.mp hrun
    exact ih (hstep s e s' h0 halong.1 hs') (halong.2 s' hs') hrest

/-- Every initial state's invariant is an invariant of the reachable states. -/
theorem Reachable.invariant {Init I : σ → Prop} {t : σ} (h : Reachable step Init t)
    (hinit : ∀ s, Init s → I s) (hstep : ∀ s e s', I s → step s e = some s' → I s') : I t := by
  obtain ⟨s, es, hs, hrun⟩ := h
  exact run_invariant hstep (hinit s hs) hrun

/-- One step further a state is reachable still. -/
theorem Reachable.tail {Init : σ → Prop} {s t : σ} {e : α} (h : Reachable step Init s)
    (hstep : step s e = some t) : Reachable step Init t := by
  obtain ⟨s₀, es, hs₀, hrun⟩ := h
  refine ⟨s₀, es ++ [e], hs₀, run_append_eq_some.mpr ⟨s, hrun, ?_⟩⟩
  exact run_cons_eq_some.mpr ⟨t, hstep, run_nil t⟩

/-- A run that can be evaluated to a state with a decidable property reaches such a state. -/
theorem exists_run_of_any (step : σ → α → Option σ) (s : σ) (es : List α) (q : σ → Bool)
    (h : (run step s es).any q = true) : ∃ t, run step s es = some t ∧ q t = true := by
  cases hrun : run step s es with
  | none => simp [hrun] at h
  | some t => exact ⟨t, rfl, by simpa [hrun] using h⟩

/-! ## Conditions along a run -/

/-- A condition along a run can be evaluated. -/
instance decidableAlong {C : σ → α → Prop} [∀ s e, Decidable (C s e)] :
    ∀ (s : σ) (es : List α), Decidable (Along step C s es)
  | _, [] => .isTrue trivial
  | s, e :: es =>
    match hstep : step s e with
    | none => decidable_of_iff (C s e) (by simp [Along, hstep])
    | some s' =>
      have := decidableAlong (C := C) s' es
      decidable_of_iff (C s e ∧ Along step C s' es) (by simp [Along, hstep])

/-- A run along `C` splits at every event: the event before the split satisfies `C`. -/
theorem along_append {C : σ → α → Prop} {s : σ} {es fs : List α} :
    Along step C s (es ++ fs) ↔
      Along step C s es ∧ ∀ t, run step s es = some t → Along step C t fs := by
  induction es generalizing s with
  | nil => simp [Along, run]
  | cons e es ih =>
    simp only [List.cons_append, Along, ih, run_cons_eq_some]
    constructor
    · rintro ⟨hC, hrest⟩
      refine ⟨⟨hC, fun s' hs' => (hrest s' hs').1⟩, ?_⟩
      rintro t ⟨s', hs', ht⟩
      exact (hrest s' hs').2 t ht
    · rintro ⟨⟨hC, hes⟩, hfs⟩
      exact ⟨hC, fun s' hs' => ⟨hes s' hs', fun t ht => hfs t ⟨s', hs', ht⟩⟩⟩

/-- A condition holds along a run iff it holds at every split of the run. -/
theorem along_iff {C : σ → α → Prop} {s : σ} {es : List α} :
    Along step C s es ↔
      ∀ pre e post t, es = pre ++ e :: post → run step s pre = some t → C t e := by
  constructor
  · rintro h pre e post t rfl hrun
    exact ((along_append.mp h).2 t hrun).1
  · intro h
    induction es generalizing s with
    | nil => trivial
    | cons e es ih =>
      refine ⟨h [] e es s rfl rfl, fun s' hs' => ih fun pre e' post t hes hrun => ?_⟩
      exact h (e :: pre) e' post t (by rw [hes]; rfl) (run_cons_eq_some.mpr ⟨s', hs', hrun⟩)

/-- Conditions that agree on the events of a list, in every state with the invariant `I`,
    hold along the same runs, when the steps with the second condition keep `I`. -/
theorem along_congr_of_mem {I : σ → Prop} {C D : σ → α → Prop} {s : σ} {es : List α}
    (hCD : ∀ s, ∀ e ∈ es, I s → (C s e ↔ D s e))
    (hI : ∀ s s', ∀ e ∈ es, I s → D s e → step s e = some s' → I s') (h0 : I s) :
    Along step C s es ↔ Along step D s es := by
  induction es generalizing s with
  | nil => exact Iff.rfl
  | cons e es ih =>
    -- the rest has fewer events, and all of them are in the list
    have ih' := fun s' => ih (s := s') (fun s e he => hCD s e (List.mem_cons_of_mem _ he))
      (fun s s' e he => hI s s' e (List.mem_cons_of_mem _ he))
    simp only [Along, hCD s e List.mem_cons_self h0]
    constructor
    · rintro ⟨hD, hrest⟩
      exact ⟨hD, fun s' hs' =>
        (ih' s' (hI s s' e List.mem_cons_self h0 hD hs')).mp (hrest s' hs')⟩
    · rintro ⟨hD, hrest⟩
      exact ⟨hD, fun s' hs' =>
        (ih' s' (hI s s' e List.mem_cons_self h0 hD hs')).mpr (hrest s' hs')⟩

/-- The same for conditions that agree on every event. -/
theorem along_congr {I : σ → Prop} {C D : σ → α → Prop}
    (hCD : ∀ s e, I s → (C s e ↔ D s e))
    (hI : ∀ s e s', I s → D s e → step s e = some s' → I s') {s : σ} {es : List α} (h0 : I s) :
    Along step C s es ↔ Along step D s es :=
  along_congr_of_mem (fun s e _ => hCD s e) (fun s s' e _ => hI s e s') h0

/-! ## Properties of every state of a run -/

/-- Every state that the events reach from `s`, the first one included, satisfies `Q`. -/
def Always (step : σ → α → Option σ) (Q : σ → Prop) (s : σ) (es : List α) : Prop :=
  ∀ pre t, pre <+: es → run step s pre = some t → Q t

theorem always_nil {Q : σ → Prop} {s : σ} : Always step Q s [] ↔ Q s := by
  constructor
  · intro h
    exact h [] s (List.prefix_refl _) rfl
  · intro h pre t hpre hrun
    rw [List.prefix_nil.mp hpre, run_nil, Option.some.injEq] at hrun
    exact hrun ▸ h

/-- What always holds holds now, and always after the next step. -/
theorem always_cons {Q : σ → Prop} {s : σ} {e : α} {es : List α} :
    Always step Q s (e :: es) ↔ Q s ∧ ∀ s', step s e = some s' → Always step Q s' es := by
  constructor
  -- a prefix of the rest is one of the whole, with the first event in front
  · intro h
    refine ⟨h [] s List.nil_prefix rfl, fun s' hs' pre t hpre hrun => ?_⟩
    exact h (e :: pre) t (List.cons_prefix_cons.mpr ⟨rfl, hpre⟩)
      (run_cons_eq_some.mpr ⟨s', hs', hrun⟩)
  · rintro ⟨hQ, hrest⟩ pre t hpre hrun
    -- the empty prefix is the present state
    cases pre with
    | nil => rw [run_nil, Option.some.injEq] at hrun; exact hrun ▸ hQ
    | cons e' pre =>
      obtain ⟨rfl, hpre'⟩ := List.cons_prefix_cons.mp hpre
      obtain ⟨s', hs', hrun'⟩ := run_cons_eq_some.mp hrun
      exact hrest s' hs' pre t hpre' hrun'

/-- All states of a run satisfy `Q` iff the first does and every step leads to one that does. -/
theorem always_iff_along {Q : σ → Prop} {s : σ} {es : List α} :
    Always step Q s es ↔ Q s ∧ Along step (fun s e => ∀ s', step s e = some s' → Q s') s es := by
  induction es generalizing s with
  | nil => simp [always_nil, Along]
  | cons e es ih =>
    simp only [always_cons, Along, ih]
    constructor
    · rintro ⟨hQ, hrest⟩
      exact ⟨hQ, fun s' hs' => (hrest s' hs').1, fun s' hs' => (hrest s' hs').2⟩
    · rintro ⟨hQ, hstep, hrest⟩
      exact ⟨hQ, fun s' hs' => ⟨hstep s' hs', hrest s' hs'⟩⟩

/-! ## Termination -/

/-- Steps that make a measure smaller end after at most that many of them. -/
theorem length_le_of_variant {C : α → Prop} {m : σ → Nat}
    (hstep : ∀ s e t, C e → step s e = some t → m t < m s) {s t : σ} {es : List α}
    (hes : ∀ e ∈ es, C e) (hrun : run step s es = some t) : es.length + m t ≤ m s := by
  induction es generalizing s with
  | nil =>
    cases hrun
    rw [List.length_nil, Nat.zero_add]
  | cons e es ih =>
    obtain ⟨s', hs', hrest⟩ := run_cons_eq_some.mp hrun
    have hlt := hstep s e s' (hes e List.mem_cons_self) hs'
    have hle := ih (fun e he => hes e (List.mem_cons_of_mem _ he)) hrest
    rw [List.length_cons]
    omega

/-- If, where `I` holds, an event of `C` makes the measure smaller until it is zero, and keeps
    `I`, then a run of such events ends where it is zero. -/
theorem exists_run_of_variant {I : σ → Prop} {C : α → Prop} {m : σ → Nat}
    (hstep : ∀ s, I s → m s ≠ 0 → ∃ e t, C e ∧ step s e = some t ∧ I t ∧ m t < m s)
    {s : σ} (h0 : I s) : ∃ es t, (∀ e ∈ es, C e) ∧ run step s es = some t ∧ I t ∧ m t = 0 := by
  induction h : m s using Nat.strong_induction_on generalizing s with
  | h n ih =>
    by_cases hzero : m s = 0
    · exact ⟨[], s, nofun, rfl, h0, hzero⟩
    · obtain ⟨e, s', he, hs', h0', hlt⟩ := hstep s h0 hzero
      obtain ⟨es, t, hes, hrun, ht⟩ := ih (m s') (h ▸ hlt) h0' rfl
      exact ⟨e :: es, t, List.forall_mem_cons.mpr ⟨he, hes⟩,
        run_cons_eq_some.mpr ⟨s', hs', hrun⟩, ht⟩

/-! ## Simulation -/

/-- Two systems whose steps keep `R`, where the second sees only the events that `f` maps
    to one of its own: their runs end in related states, or both get stuck. -/
theorem run_rel {τ β : Type*} {step' : τ → β → Option τ} {f : α → Option β} {R : σ → τ → Prop}
    (hstep : ∀ s t e, R s t → Option.Rel R (step s e) ((f e).elim (some t) (step' t)))
    {s : σ} {t : τ} (h0 : R s t) (es : List α) :
    Option.Rel R (run step s es) (run step' t (es.filterMap f)) := by
  induction es generalizing s t with
  | nil => exact .some h0
  | cons e es ih =>
    have he := hstep s t e h0
    cases hf : f e with
    | none =>
      -- a silent step
      rw [hf, Option.elim_none] at he
      rw [List.filterMap_cons_none hf]
      cases hs : step s e with
      | none => rw [hs] at he; cases he
      | some s' =>
        rw [hs] at he
        cases he with
        | some hR => simpa only [run, hs, Option.bind_some] using ih hR
    | some e' =>
      rw [hf, Option.elim_some] at he
      rw [List.filterMap_cons_some hf]
      -- a step of both, or of neither
      simp only [run]
      cases hs : step s e with
      | none =>
        rw [hs] at he
        cases ht : step' t e' with
        | none => exact .none
        | some t' => rw [ht] at he; cases he
      | some s' =>
        rw [hs] at he
        cases ht : step' t e' with
        | none => rw [ht] at he; cases he
        | some t' =>
          rw [ht] at he
          cases he with
          | some hR => exact ih hR

end Transition

/-- Options related by what determines the second value from the first. -/
theorem Option.map_eq_of_rel {α β : Type*} {R : α → β → Prop} {f : α → β} {a : Option α}
    {b : Option β} (h : Option.Rel R a b) (hf : ∀ a b, R a b → f a = b) : a.map f = b := by
  cases h with
  | none => rfl
  | some hR => exact congrArg some (hf _ _ hR)
