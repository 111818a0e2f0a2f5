import ReactiveDemo.ReSwift.Store

/-!
# Subscribers are up to date

A dispatch may be nested in another one's notification loop, which goes on with the
subscriptions and the old value it began with. Still, when the outermost script ends,
every subscriber has been handed the state as it is then, up to what its subscription
takes for a repeat.

## Key results

- `execute_keeps`: what a run, nested dispatches included, means for one subscriber
- `execute_coherent`: between scripts every subscriber is up to date
- `execute_replays`: the state is what the logged actions make of it, in their order
-/

namespace ReSwift

open Store

variable {σ α ε ι : Type} [DecidableEq ι]

/-- Every subscriber is handed the state when it subscribes, and a new state unless it is
    the `Same` as the old one. -/
structure Lawful (P : Program σ α ε ι) (Same : ι → σ → σ → Prop) : Prop where
  equivalence : ∀ i, Equivalence (Same i)
  first : ∀ i state, P.newValues i none state ≠ none
  next : ∀ i oldState state, P.newValues i (some oldState) state = none → Same i oldState state

/-- The subscriber was last handed what is the same as the present state. -/
def UpToDate (Same : ι → σ → σ → Prop) (i : ι) (s : Store σ α ε ι) : Prop :=
  ∃ value, s.lastHeard i = some value ∧ Same i value s.state

/-- What happens to a subscriber between two stores: if it is subscribed in the end, it
    heard nothing and missed nothing, or it is up to date. -/
def Keeps (Same : ι → σ → σ → Prop) (i : ι) (s t : Store σ α ε ι) : Prop :=
  i ∈ t.subscriptions → i ∉ t.released →
    (i ∈ s.subscriptions ∧ i ∉ s.released ∧ t.lastHeard i = s.lastHeard i ∧
      Same i s.state t.state) ∨ UpToDate Same i t

section Keeps

variable {Same : ι → σ → σ → Prop} {i : ι} {s t u : Store σ α ε ι}

theorem UpToDate.keeps (h : UpToDate Same i t) : Keeps Same i s t := fun _ _ => .inr h

/-- Whoever is up to date and hears nothing while nothing changes stays so. -/
theorem UpToDate.of_same (hSame : Equivalence (Same i)) (h : UpToDate Same i s)
    (hheard : t.lastHeard i = s.lastHeard i) (hstate : Same i s.state t.state) :
    UpToDate Same i t := by
  obtain ⟨value, hvalue, hsame⟩ := h
  exact ⟨value, hheard.trans hvalue, hSame.trans hsame hstate⟩

theorem keeps_of_eq (hSame : Equivalence (Same i)) (hstate : t.state = s.state)
    (hheard : t.heard = s.heard) (hsub : i ∈ t.subscriptions → i ∈ s.subscriptions)
    (hreleased : i ∉ t.released → i ∉ s.released) : Keeps Same i s t := by
  intro hi hlive
  refine .inl ⟨hsub hi, hreleased hlive, by rw [lastHeard, hheard]; rfl, ?_⟩
  rw [hstate]
  exact hSame.refl _

/-- Where nothing happens nothing is missed. -/
theorem Keeps.refl (hSame : Equivalence (Same i)) (s : Store σ α ε ι) : Keeps Same i s s :=
  keeps_of_eq hSame rfl rfl id id

/-- What is kept by one piece of code and by the next is kept by both. -/
theorem Keeps.trans (hSame : Equivalence (Same i)) (hst : Keeps Same i s t)
    (htu : Keeps Same i t u) : Keeps Same i s u := by
  intro hi hlive
  cases htu hi hlive with
  | inr hup => exact .inr hup
  -- it heard nothing in the second piece, so the first one decides
  | inl hquiet =>
    obtain ⟨hmem, hlive', hheard, hstate⟩ := hquiet
    cases hst hmem hlive' with
    | inr hup => exact .inr (hup.of_same hSame hheard hstate)
    | inl hquiet' =>
      obtain ⟨hmem', hlive'', hheard', hstate'⟩ := hquiet'
      exact .inl ⟨hmem', hlive'', hheard.trans hheard', hSame.trans hstate' hstate⟩

end Keeps

section Run

variable {P : Program σ α ε ι} {Same : ι → σ → σ → Prop} (hP : Lawful P Same)
  {call : Script σ α ε ι → Store σ α ε ι → Option (Store σ α ε ι)}
  (hcall : ∀ script s t, call script s = some t → ∀ i, Keeps Same i s t)

include hP hcall

/-- Being handed the state, and what the callback then does. -/
theorem upToDate_of_hear {i : ι} {script : Script σ α ε ι} {s t : Store σ α ε ι}
    (h : call script (s.hear i) = some t) (hi : i ∈ t.subscriptions) (hlive : i ∉ t.released) :
    UpToDate Same i t := by
  have hhear : UpToDate Same i (s.hear i) :=
    ⟨s.state, lastHeard_hear i s, (hP.equivalence i).refl _⟩
  cases hcall script _ t h i hi hlive with
  | inr hup => exact hup
  | inl hquiet => exact hhear.of_same (hP.equivalence i) hquiet.2.2.1 hquiet.2.2.2

/-- A turn in the loop, of this subscriber or of another one. -/
theorem newValues_keeps {i j : ι} {oldState : Option σ} {s t : Store σ α ε ι}
    (h : s.newValues P call j oldState = some t) : Keeps Same i s t := by
  unfold Store.newValues at h
  split at h
  · cases h
    exact .refl (hP.equivalence i) s
  · cases hbox : P.newValues j oldState s.state with
    | none =>
      simp only [hbox, Option.some.injEq] at h
      exact h ▸ .refl (hP.equivalence i) s
    | some newState =>
      simp only [hbox] at h
      by_cases hij : j = i
      -- its own turn: it is handed the state
      · subst hij
        exact fun hi hlive => .inr (upToDate_of_hear hP hcall h hi hlive)
      · -- another subscriber's turn
        have hother : Keeps Same i s (s.hear j) := fun hi hlive =>
          .inl ⟨hi, hlive, lastHeard_hear_of_ne hij s, (hP.equivalence i).refl _⟩
        exact hother.trans (hP.equivalence i) (hcall newState _ t h i)

/-- After its turn in the loop a subscriber heard nothing because nothing is new, or it is
    up to date. -/
theorem newValues_turn {i : ι} {oldState : σ} {s t : Store σ α ε ι}
    (h : s.newValues P call i (some oldState) = some t) (hi : i ∈ t.subscriptions)
    (hlive : i ∉ t.released) :
    t = s ∧ Same i oldState t.state ∨ UpToDate Same i t := by
  unfold Store.newValues at h
  split at h
  · cases h
    exact absurd ‹_› hlive
  · cases hbox : P.newValues i (some oldState) s.state with
    | none =>
      simp only [hbox, Option.some.injEq] at h
      exact .inl ⟨h.symm, h ▸ hP.next i oldState s.state hbox⟩
    | some newState =>
      simp only [hbox] at h
      exact .inr (upToDate_of_hear hP hcall h hi hlive)

/-- The loop: `s₀` is the store before the dispatch. The subscribers whose turn is still
    to come have heard nothing since, or are up to date. -/
theorem notify_keeps {s₀ : Store σ α ε ι} {l : List ι} {s t : Store σ α ε ι}
    (hinv : ∀ i, i ∈ s.subscriptions → i ∉ s.released →
      (i ∈ l ∧ i ∈ s₀.subscriptions ∧ i ∉ s₀.released ∧ s.lastHeard i = s₀.lastHeard i) ∨
        Keeps Same i s₀ s)
    (h : s.notify P call s₀.state l = some t) (i : ι) : Keeps Same i s₀ t := by
  induction l generalizing s with
  | nil =>
    cases h
    intro hi hlive
    cases hinv i hi hlive with
    | inl hturn => cases hturn.1
    | inr hkeeps => exact hkeeps hi hlive
  | cons j rest ih =>
    obtain ⟨u, hu, hrest⟩ := Option.bind_eq_some_iff.mp h
    refine ih (fun i hi hlive => ?_) hrest
    cases newValues_keeps hP hcall hu (i := i) hi hlive with
    -- it was called in this turn and is up to date
    | inr hup => exact .inr hup.keeps
    | inl hquiet =>
      obtain ⟨hmem, hlive', hheard, hstate⟩ := hquiet
      -- it was not called: what held before the turn still decides
      cases hinv i hmem hlive' with
      | inr hkeeps =>
        exact .inr (hkeeps.trans (hP.equivalence i) fun _ _ => .inl ⟨hmem, hlive', hheard, hstate⟩)
      | inl hturn =>
        obtain ⟨hl, hmem₀, hlive₀, hheard₀⟩ := hturn
        by_cases hij : i = j
        · -- its turn is now
          subst hij
          cases newValues_turn hP hcall hu hi hlive with
          | inr hup => exact .inr hup.keeps
          | inl hsame =>
            exact .inr fun _ _ => .inl ⟨hmem₀, hlive₀, hheard.trans hheard₀, hsame.2⟩
        -- its turn is still to come
        · have hl' : i ∈ rest := (List.mem_cons.mp hl).resolve_left hij
          exact .inl ⟨hl', hmem₀, hlive₀, hheard.trans hheard₀⟩

/-- A dispatch: everyone who is subscribed has a turn to come. -/
theorem dispatch_keeps {action : α} {s t : Store σ α ε ι}
    (h : s.dispatch P call (.action action) = some t) (i : ι) : Keeps Same i s t := by
  rw [dispatch_action] at h
  refine notify_keeps hP hcall (fun i hi hlive => .inl ?_) h i
  have hmem : i ∈ s.live := hi
  exact ⟨hmem, List.mem_of_mem_filter hmem, hlive, rfl⟩

/-- A subscriber that subscribes is handed the state. -/
theorem subscribe_keeps {j : ι} {s t : Store σ α ε ι} (h : s.subscribe P call j = some t) (i : ι) :
    Keeps Same i s t := by
  by_cases hij : j = i
  · subst hij
    unfold Store.subscribe Store.newValues at h
    split at h
    · cases h
      exact fun _ hlive => absurd ‹_› hlive
    · cases hbox : P.newValues j none (s.addSubscription j).state with
      | none => exact absurd hbox (hP.first j _)
      | some newState =>
        simp only [hbox] at h
        exact fun hi hlive => .inr (upToDate_of_hear hP hcall h hi hlive)
  -- someone else subscribes: for this subscriber it is a turn of another
  · have hadd : Keeps Same i s (s.addSubscription j) := by
      refine keeps_of_eq (hP.equivalence i) rfl rfl (fun hi => ?_) id
      simp only [addSubscription, List.mem_append, List.mem_singleton] at hi
      exact List.mem_of_mem_erase (hi.resolve_right fun h' => hij h'.symm)
    exact hadd.trans (hP.equivalence i) (newValues_keeps hP hcall h)

/-- By induction on the script, each part of it keeps what it should. -/
theorem Script.run_keeps {script : Script σ α ε ι} {s t : Store σ α ε ι}
    (h : script.run P call s = some t) (i : ι) : Keeps Same i s t := by
  have hSame := hP.equivalence i
  induction script generalizing s t with
  | done =>
    cases h
    exact .refl hSame s
  | stop => cases h
  | getState k ih => exact ih _ _ h
  | perform f k ih =>
    -- the store is the same, but for the rest of the process
    have hstep : Keeps Same i s { s with env := f s.env } := keeps_of_eq hSame rfl rfl id id
    exact hstep.trans hSame (ih h)
  | dispatch action k ih =>
    -- the dispatch tells the subscribers, whose code keeps it at the depth below
    obtain ⟨u, hu, hk⟩ := Option.bind_eq_some_iff.mp h
    exact (dispatch_keeps hP hcall hu i).trans hSame (ih hk)
  | thunk body k ihbody ih =>
    -- the body of a Thunk is a script of its own
    obtain ⟨u, hu, hk⟩ := Option.bind_eq_some_iff.mp h
    exact (ihbody hu).trans hSame (ih hk)
  | subscribe j k ih =>
    obtain ⟨u, hu, hk⟩ := Option.bind_eq_some_iff.mp h
    exact (subscribe_keeps hP hcall hu i).trans hSame (ih hk)
  | unsubscribe j k ih =>
    -- whoever goes need not be told any more
    have hstep : Keeps Same i s (s.unsubscribe j) :=
      keeps_of_eq hSame rfl rfl List.mem_of_mem_erase id
    exact hstep.trans hSame (ih h)
  | release j k ih =>
    have hstep : Keeps Same i s (s.release j) :=
      keeps_of_eq hSame rfl rfl id fun hn hs => hn (List.mem_cons_of_mem _ hs)
    exact hstep.trans hSame (ih h)

end Run

/-- What a script means for a subscriber, however deep dispatches nest in it. -/
theorem execute_keeps {P : Program σ α ε ι} {Same : ι → σ → σ → Prop} (hP : Lawful P Same)
    {depth : Nat} {script : Script σ α ε ι} {s t : Store σ α ε ι}
    (h : execute P depth script s = some t) (i : ι) : Keeps Same i s t := by
  induction depth generalizing script s t i with
  | zero => cases h
  | succ depth ih => exact Script.run_keeps hP (fun _ _ _ h i => ih h i) h i

/-- Everyone who is subscribed is up to date. -/
def Coherent (Same : ι → σ → σ → Prop) (s : Store σ α ε ι) : Prop :=
  ∀ i ∈ s.subscriptions, i ∉ s.released → UpToDate Same i s

/-- When a script ends, whoever is subscribed is up to date again. -/
theorem execute_coherent {P : Program σ α ε ι} {Same : ι → σ → σ → Prop} (hP : Lawful P Same)
    {depth : Nat} {script : Script σ α ε ι} {s t : Store σ α ε ι} (hs : Coherent Same s)
    (h : execute P depth script s = some t) : Coherent Same t := by
  intro i hi hlive
  cases execute_keeps hP h i hi hlive with
  | inr hup => exact hup
  | inl hquiet =>
    -- it heard nothing, and the state it was handed is still the same
    obtain ⟨hmem, hlive', hheard, hstate⟩ := hquiet
    exact (hs i hmem hlive').of_same (hP.equivalence i) hheard hstate

/-! ## The log -/

/-- The log has plain actions only, and reducing them in the order in which they were printed
    makes the state of `state₀`. -/
def Replays (P : Program σ α ε ι) (state₀ : σ) (s : Store σ α ε ι) : Prop :=
  ∃ actions : List α, s.printed = actions.map some ∧
    s.state = actions.foldl (fun state action => P.reducer action state) state₀

/-- A run prints the actions in the order in which it reduces them: those of a nested dispatch
    come after the action whose subscribers dispatched them. -/
theorem execute_replays {P : Program σ α ε ι} {state₀ : σ} {depth : Nat}
    {script : Script σ α ε ι} {s t : Store σ α ε ι} (hs : Replays P state₀ s)
    (h : execute P depth script s = some t) : Replays P state₀ t := by
  refine execute_invariant (fun s t hs hstep => ?_) hs h
  cases hstep with
  | dispatch action =>
    obtain ⟨actions, hprinted, hstate⟩ := hs
    -- the action that is reduced is the last that was printed
    refine ⟨actions ++ [action], ?_, ?_⟩
    · simp only [reduce, print, hprinted, List.map_append, List.map_cons, List.map_nil]
    · simp only [reduce, print, hstate, List.foldl_append, List.foldl_cons, List.foldl_nil]
  | perform _ | hear _ | addSubscription _ | unsubscribe _ | release _ => exact hs

end ReSwift
