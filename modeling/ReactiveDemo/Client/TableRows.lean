import ReactiveDemo.Client.Frame
import ReactiveDemo.ForStd.Run

/-!
# The rows of the thoughts table

UIKit ends the app when a batch update does not bring the table's row count to what
the data source reports. The payload in the store carries a diff, and `newState`
applies it to whatever the table shows: on a re-subscription that is the table the
diff has already been applied to, and after a logout, an error or a dropped update it
is not the snapshot the diff starts from. `InStep` collects the exact conditions.

## Key results

- `ValidDiff.length_eq`: a diff between snapshots accounts for their lengths
- `step_deliveries`: what one step delivers to the screen, and when it agrees
- `rows_agree_iff`: every delivery of a run agrees iff every step is in step
-/

namespace ReactiveDemo

open Transition

namespace Screen

/-- A diff between two snapshots accounts for the difference of their lengths. -/
theorem ValidDiff.length_eq {old new : List Thought} {d i m : List Nat}
    (h : ValidDiff old new d i m) : old.length + i.length = new.length + d.length := by
  have hold := List.length_withoutIdx h.deletions_sorted.nodup h.deletions_lt
  have hnew := List.length_withoutIdx h.insertions_sorted.nodup h.insertions_lt
  have hsame : (old.withoutIdx d).length = (new.withoutIdx i).length := by
    simpa using congrArg List.length h.unchanged
  omega

/-- What `newState` delivers for a state. -/
def delivery (state : ThoughtsState) (s : Screen) : Delivery :=
  match state.loadedThoughtsPayload with
  | none | some (.error _) => .ignored s.rows state.thoughts.length
  | some (.initial _) => .reloaded state.thoughts.length
  | some (.update _ deletions insertions _) =>
    .batch s.rows deletions.length insertions.length state.thoughts.length

/-- `newState` records its delivery and, for a reload or a batch, sets the rows. -/
theorem newState_eq (state : ThoughtsState) (s : Screen) :
    s.newState state = { s with
      rows := (match s.delivery state with
        | .ignored rows _ => rows
        | .reloaded count => count
        | .batch rowsBefore deletions insertions _ => rowsBefore - deletions + insertions)
      deliveries := s.deliveries ++ [s.delivery state] } := by
  cases hp : state.loadedThoughtsPayload with
  | none => simp [newState, delivery, deliver, hp]
  | some payload => cases payload <;> simp [newState, delivery, deliver, hp]

theorem newState_deliveries (state : ThoughtsState) (s : Screen) :
    (s.newState state).deliveries = s.deliveries ++ [s.delivery state] := by
  rw [newState_eq]

/-- After a delivery that agrees, the table has the rows of the store. -/
theorem newState_rows {state : ThoughtsState} {s : Screen} (h : (s.delivery state).Agrees) :
    (s.newState state).rows = state.thoughts.length := by
  rw [newState_eq]
  cases hp : state.loadedThoughtsPayload with
  | none => simpa only [delivery, hp, Delivery.Agrees] using h
  | some payload =>
    cases payload with
    | initial thoughts => simp only [delivery, hp]
    | update thoughts d i m => simpa only [delivery, hp, Delivery.Agrees] using h
    -- an error draws nothing either
    | error e => simpa only [delivery, hp, Delivery.Agrees] using h

/-- The payload of a state suits a table with the rows of `s`: a diff must lead from
    these rows to its thoughts, and a state without thoughts must meet an empty table. -/
def Suits (state : ThoughtsState) (s : Screen) : Prop :=
  match state.loadedThoughtsPayload with
  | none | some (.error _) => s.rows = 0
  | some (.initial _) => True
  | some (.update thoughts deletions insertions _) =>
    s.rows + insertions.length = thoughts.length + deletions.length

/-- A delivery agrees iff the payload suits the rows that the table has at that time. -/
theorem delivery_agrees_iff (state : ThoughtsState) (s : Screen) :
    (s.delivery state).Agrees ↔ s.Suits state := by
  unfold delivery Suits
  cases hp : state.loadedThoughtsPayload with
  -- nothing is drawn: the table has to be empty already
  | none => simp [Delivery.Agrees, ThoughtsState.thoughts, hp]
  | some payload =>
    cases payload with
    | initial thoughts => simp [Delivery.Agrees]
    | update thoughts d i m =>
      simp only [Delivery.Agrees, ThoughtsState.thoughts, hp]
      constructor <;> intro h <;> omega
    | error e => simp [Delivery.Agrees, ThoughtsState.thoughts, hp]

end Screen

instance : ReflBEq ThoughtsState where
  rfl {a} := by
    obtain ⟨lastError, payload⟩ := a
    change (lastError == lastError && payload == payload) = true
    simp

namespace Process

/-- All deliveries so far have left the table with the rows of the store. -/
def RowsAgree (p : Process) : Prop := ∀ d ∈ p.screen.deliveries, d.Agrees

instance (p : Process) : Decidable p.RowsAgree :=
  inferInstanceAs (Decidable (∀ d ∈ p.screen.deliveries, d.Agrees))

/-- The screen hears of a change of `thoughtsState` to `state`. -/
def Hears (state : ThoughtsState) (p : Process) : Prop :=
  p.screen.subscribed = true ∧ (state == p.state.thoughtsState) = false

/-- The conditions under which an event leaves table and store in step:
    * a (re)appearing screen finds a payload that suits its rows;
    * an update that reaches the screen starts from a snapshot of as many rows;
    * an error or a logout that reaches the screen finds the table empty. -/
def InStep (p : Process) : Event → Prop
  | .viewDidAppear => p.screen.Suits p.state.thoughtsState
  | .notified (.update results deletions insertions modifications) =>
    p.Hears { loadedThoughtsPayload := some (.update results deletions insertions modifications) } →
      p.loggedIn = true → ∀ old, p.screen.observer = .observing old → p.screen.rows = old.length
  | .notified (.error error) =>
    p.Hears { loadedThoughtsPayload := some (.error error) } → p.screen.rows = 0
  | .logoutSegue => p.Hears {} → p.screen.rows = 0
  | _ => True

/-- From `p` to `p'` the screen is delivered states that all agree iff `C`. -/
def Delivers (p p' : Process) (C : Prop) : Prop :=
  ∃ new, p'.screen.deliveries = p.screen.deliveries ++ new ∧ ((∀ d ∈ new, d.Agrees) ↔ C)

/-- Nothing is delivered. -/
theorem Delivers.quiet {p p' : Process} {C : Prop}
    (h : p'.screen.deliveries = p.screen.deliveries) (hC : C) : Delivers p p' C :=
  ⟨[], by simp [h], by simpa using hC⟩

/-- One state is delivered. -/
theorem Delivers.one {p p' : Process} {C : Prop} (state : ThoughtsState)
    (h : p'.screen.deliveries = p.screen.deliveries ++ [p.screen.delivery state])
    (hC : p.screen.Suits state ↔ C) : Delivers p p' C :=
  ⟨_, h, by rw [← hC, ← Screen.delivery_agrees_iff]; simp⟩

/-- A dispatch delivers the new `thoughtsState` when the screen hears of it. The dispatch
    may come after the Realm, the history or the observer has changed. -/
theorem Delivers.dispatch {p q : Process} {a : Action} (state : ThoughtsState) {C : Prop}
    (hstate : (mainReducer a (some q.state)).thoughtsState = state)
    (hold : q.state.thoughtsState = p.state.thoughtsState) (hrows : q.screen.rows = p.screen.rows)
    (hsub : q.screen.subscribed = p.screen.subscribed)
    (hdel : q.screen.deliveries = p.screen.deliveries)
    (hears : p.Hears state → (p.screen.Suits state ↔ C)) (hquiet : ¬ p.Hears state → C) :
    Delivers p (q.dispatch a) C := by
  by_cases h : p.Hears state
  · refine .one state ?_ (hears h)
    rw [dispatch_screen, hstate, hsub, hold, if_pos (by simpa [Hears] using h),
      Screen.newState_deliveries, hdel]
    simp [Screen.delivery, hrows]
  · refine .quiet ?_ (hquiet h)
    rw [dispatch_screen, hstate, hsub, hold, if_neg (by simpa [Hears] using h), hdel]

/-- An action that keeps `thoughtsState` does not reach the screen. -/
theorem dispatch_screen_of_eq {a : Action} {p : Process}
    (h : (mainReducer a (some p.state)).thoughtsState = p.state.thoughtsState) :
    (p.dispatch a).screen = p.screen := by
  rw [dispatch_screen, h]
  simp

theorem fetchThoughtsAction_screen (p : Process) : p.fetchThoughtsAction.screen = p.screen :=
  (fetchThoughtsAction_polled p).screen

/-- What one step delivers to the screen agrees iff the step is in step. -/
theorem step_deliveries {P : Platform} {p p' : Process} {e : Event}
    (hstep : p.step P e = some p') : Delivers p p' (p.InStep e) := by
  cases e with
  | loginPressed username password =>
    cases hstep
    refine .quiet ?_ trivial
    rw [loginAction, send_screen, dispatch_screen_of_eq (by simp)]
    rfl
  | registerPressed username password =>
    cases hstep
    refine .quiet ?_ trivial
    rw [createUserAction, send_screen, dispatch_screen_of_eq (by simp)]
    rfl
  -- the empty state is a change of `thoughtsState`, unless it is empty already
  | logoutSegue =>
    cases hstep
    exact .dispatch {} (by simp) rfl rfl rfl rfl
      (fun h => by simp only [Screen.Suits, InStep, h, forall_const]) (fun h h' => absurd h' h)
  -- Thoughts that are saved reach the screen by a notification only
  | postThoughtPressed text now =>
    cases hstep
    refine .quiet ?_ trivial
    rw [postThoughtPressed, (createThoughtAction_posting P _ _ _ _).screen]
    rfl
  -- the authentication state is not what the screen selects
  | authSucceeded call body =>
    obtain ⟨-, username, -, rfl⟩ := step_authSucceeded.mp hstep
    refine .quiet ?_ trivial
    unfold authSuccess
    split
    · rw [dispatch_screen_of_eq (by simp)]; rfl
    · split <;> rw [dispatch_screen_of_eq (by simp)] <;> rfl
  | authFailed call error =>
    obtain ⟨-, -, rfl⟩ := step_authFailed.mp hstep
    refine .quiet ?_ trivial
    rw [authFailure, dispatch_screen_of_eq (by simp)]
    rfl
  | createSucceeded call =>
    obtain ⟨-, token, text, -, rfl⟩ := step_createSucceeded.mp hstep
    exact .quiet rfl trivial
  | createFailed call error =>
    obtain ⟨-, token, text, -, rfl⟩ := step_createFailed.mp hstep
    exact .quiet rfl trivial
  | fetchSucceeded call body =>
    obtain ⟨-, -, realm, -, rfl⟩ := step_fetchSucceeded.mp hstep
    exact .quiet rfl trivial
  | fetchFailed call error =>
    obtain ⟨-, -, rfl⟩ := step_fetchFailed.mp hstep
    exact .quiet rfl trivial
  | retryFired retry now =>
    simp only [step, Option.ite_none_right_eq_some, Option.some.injEq] at hstep
    obtain ⟨-, rfl⟩ := hstep
    exact .quiet (by rw [(createThoughtAction_posting P _ _ _ _).screen]) trivial
  | timerFired =>
    simp only [step, Option.ite_none_right_eq_some, Option.some.injEq] at hstep
    obtain ⟨-, rfl⟩ := hstep
    exact .quiet (by rw [fetchThoughtsAction_screen]) trivial
  | notified change =>
    rcases observe_cases hstep with ⟨results, rfl, -, -, rfl⟩ |
      ⟨old, results, d, i, m, rfl, hobs, -, hdiff, rfl⟩ | ⟨error, rfl, -, rfl⟩
    · -- the first report reloads the table
      exact .dispatch { loadedThoughtsPayload := some (.initial results) } rfl rfl rfl rfl rfl
        (fun _ => by simp only [Screen.Suits, InStep]) (fun _ => trivial)
    · -- a diff from `old`, unless nobody is logged in
      have hlen := hdiff.length_eq
      by_cases hin : p.loggedIn = true
      · rw [if_pos hin]
        refine .dispatch { loadedThoughtsPayload := some (.update results d i m) } rfl rfl rfl rfl
          rfl (fun h => ?_) (fun h h' => absurd h' h)
        simp only [Screen.Suits, InStep, h, hin, hobs, Observer.observing.injEq, forall_const,
          forall_eq']
        omega
      · rw [if_neg hin]
        exact .quiet rfl fun _ h => absurd h hin
    -- an error takes the payload away, and the table stays as it is
    · refine .dispatch { loadedThoughtsPayload := some (.error error) } rfl rfl rfl rfl rfl
        (fun h => ?_) (fun h h' => absurd h' h)
      simp only [Screen.Suits, InStep, h, forall_const]
  | viewDidLoad => cases hstep; exact .quiet rfl trivial
  | layoutTable =>
    simp only [step, Option.ite_none_left_eq_some, Option.some.injEq] at hstep
    obtain ⟨-, rfl⟩ := hstep
    exact .quiet rfl trivial
  -- the subscription delivers the present state
  | viewDidAppear =>
    simp only [step, Option.ite_none_right_eq_some, Option.some.injEq] at hstep
    obtain ⟨-, rfl⟩ := hstep
    exact .one _ (Screen.newState_deliveries _ _) Iff.rfl
  | viewDidDisappear => cases hstep; exact .quiet rfl trivial

/-- A step after which all deliveries agree is a step that is in step. -/
theorem rowsAgree_step_iff {P : Platform} {p : Process} {e : Event} (h : p.RowsAgree) :
    (∀ p', p.step P e = some p' → p'.RowsAgree) ↔ ((p.step P e).isSome → p.InStep e) := by
  constructor
  · intro hall hsome
    obtain ⟨p', hstep⟩ := Option.isSome_iff_exists.mp hsome
    obtain ⟨new, hnew, hiff⟩ := step_deliveries hstep
    -- the new deliveries are among those of the next state
    refine hiff.mp fun d hd => hall p' hstep d ?_
    rw [hnew]
    exact List.mem_append_right _ hd
  · intro hin p' hstep d hd
    obtain ⟨new, hnew, hiff⟩ := step_deliveries hstep
    rw [hnew] at hd
    -- an old delivery, or one of this step
    cases List.mem_append.mp hd with
    | inl hd =>
      exact h d hd
    | inr hd =>
      exact hiff.mpr (hin (by rw [hstep]; rfl)) d hd

/-- Along every run, each delivery leaves the table with the rows of the store iff each
    step that is taken is in step. -/
theorem rows_agree_iff (P : Platform) (r : Realm) (es : List Event) :
    Always (step P) RowsAgree (launch r) es ↔
      Along (step P) (fun p e => (p.step P e).isSome → p.InStep e) (launch r) es := by
  have hlaunch : (launch r).RowsAgree := by
    rw [RowsAgree, (launch_polled r).screen]
    simp
  rw [always_iff_along, and_iff_right hlaunch]
  exact along_congr (I := RowsAgree) (fun p e h => rowsAgree_step_iff h)
    (fun p e p' h hin hstep => (rowsAgree_step_iff h).mpr hin p' hstep) hlaunch

/-- A thought arrives while the screen shows none; then the screen goes away and comes
    back, and the insertion is applied to the table a second time. -/
def reappearing : List Event :=
  [.loginPressed "ann" "secret",
   .authSucceeded ⟨0, .login "ann" "secret", 1⟩
    (.obj [("auth_token", .str "token"), ("user_id", .num 1)]),
   .viewDidLoad, .layoutTable, .viewDidAppear, .notified (.initial []),
   .fetchSucceeded ⟨1, .fetchThoughts "token", 0⟩
    (.arr [.obj [("text", .str "hi"), ("by", .str "bob"), ("timestamp", .num 0)]]),
   .notified (.update [{ text := "hi", by_ := "bob", timestamp := 0, id := 0 }] [] [0] []),
   .viewDidDisappear, .viewDidAppear]

/-- Not every run keeps the table's rows and the store's thoughts equal in number. -/
theorem reappearing_screen_repeats_diff :
    ¬ ∀ (P : Platform) (r : Realm) (es : List Event), Always (step P) RowsAgree (launch r) es := by
  intro h
  obtain ⟨p, hrun, hp⟩ := exists_run_of_any (step .ascii) (launch .new) reappearing
    (fun p => decide (¬ p.RowsAgree)) (by decide +kernel)
  exact of_decide_eq_true hp (h .ascii .new reappearing reappearing p (List.prefix_refl _) hrun)

end Process

end ReactiveDemo
