import ReactiveDemo.Client.Refinement
import ReactiveDemo.Client.Reducers

/-!
# Runs of the app

What holds between any two callbacks of the app, whoever has subscribed and however
dispatches have nested.

## Key results

- `subscribers_up_to_date`: every subscriber has been handed the present state
- `log_replays`: the log has the reduced actions in order, and determines the state
- `login_screen_shows`: the login screen shows the present state while it is subscribed
-/

namespace ReactiveDemo

namespace App

open ReSwift Transition

/-- What every script keeps holds after every run. -/
theorem runFrom_invariant {I : App → Prop} (hI : ∀ (k : Code) (s t : App), I s →
      execute program depth k s = some t → I t) {P : Platform} {r : Realm} (h0 : I (fresh r))
    {e : List AppEvent} {s : App} (h : runFrom P r e = some s) : I s := by
  obtain ⟨s₀, hlaunch, hrun⟩ := Option.bind_eq_some_iff.mp h
  exact run_invariant (fun s e t hs ht => hI (code P e) s t hs ht)
    (hI launchCode (fresh r) s₀ h0 hlaunch) hrun

/-- After every run the app is in one of the states that its subscriptions keep it in. -/
theorem runFrom_sound {P : Platform} {r : Realm} {e : List AppEvent} {s : App}
    (h : runFrom P r e = some s) : Sound s := by
  have hrel := runFrom_rel P r e
  rw [h] at hrel
  generalize run (Process.step P) (Process.launch r) (e.filterMap AppEvent.process?) = q at hrel
  cases hrel with
  | some hsound => exact hsound.1

/-! ## Subscribers -/

/-- Between callbacks every subscription that is not released has heard the present state. -/
theorem runFrom_coherent {P : Platform} {r : Realm} {e : List AppEvent} {s : App}
    (h : runFrom P r e = some s) : Coherent (fun i a b => isRepeat i a b = true) s := by
  refine runFrom_invariant (fun k s t hs ht => execute_coherent lawful_program hs ht) ?_ h
  intro i hi
  cases hi

/-- Between callbacks the sync service is subscribed, and whoever is subscribed and still
    exists was last handed what it takes for the present state. -/
theorem subscribers_up_to_date {P : Platform} {r : Realm} {e : List AppEvent} {s : App}
    (h : runFrom P r e = some s) : .sync ∈ s.live ∧ ∀ i ∈ s.live,
      ∃ state, s.lastHeard i = some state ∧ isRepeat i state s.state = true := by
  obtain ⟨screens, hlive⟩ := (runFrom_sound h).first
  refine ⟨hlive ▸ List.mem_cons_self, fun i hi => ?_⟩
  exact runFrom_coherent h i (List.mem_of_mem_filter hi) (not_released_of_mem_live hi)

/-- The thoughts screen appears over the login screen and the observer reports. -/
def firstReport : List AppEvent :=
  [.authViewWillAppear, .process .viewDidLoad, .process .layoutTable, .process .viewDidAppear,
    .process (.notified (.initial []))]

theorem subscribers_up_to_date_firstReport : ∃ s, runFrom .ascii .new firstReport = some s ∧
    .sync ∈ s.live ∧ .thoughts 1 ∈ s.live ∧ ∃ state,
      s.lastHeard (.thoughts 1) = some state ∧ isRepeat (.thoughts 1) state s.state = true := by
  obtain ⟨s, hrun, hlive⟩ : ∃ s, runFrom .ascii .new firstReport = some s ∧
      decide (.thoughts 1 ∈ s.live) = true := (Option.any_eq_true _ _).mp (by decide +kernel)
  have hmem : .thoughts 1 ∈ s.live := of_decide_eq_true hlive
  have hup := subscribers_up_to_date hrun
  exact ⟨s, hrun, hup.1, hmem, hup.2 (.thoughts 1) hmem⟩

/-! ## The log -/

/-- However dispatches nest, `loggerMiddleware` prints plain actions only, and in the order in
    which they are reduced: reducing the log gives the state, each field of which is the last
    that one of the logged actions wrote since the last logout. -/
theorem log_replays {P : Platform} {r : Realm} {e : List AppEvent} {s : App}
    (h : runFrom P r e = some s) : ∃ actions, s.printed = actions.map some ∧
      s.state = reduceAll (loadAppState r) actions ∧
      ClosedForm (baseState (loadAppState r) actions) (sinceLogout actions) s.state := by
  have hreplays : Replays program (loadAppState r) s :=
    runFrom_invariant (fun k s t hs ht => execute_replays hs ht) ⟨[], rfl, rfl⟩ h
  obtain ⟨actions, hprinted, hstate⟩ := hreplays
  have hreduce : s.state = reduceAll (loadAppState r) actions := hstate
  refine ⟨actions, hprinted, hreduce, ?_⟩
  rw [hreduce, reduceAll_eq_sinceLogout]
  exact closedForm_reduceAll (fun _ h => isLogout_of_mem_sinceLogout h) _

/-- A login, whose success makes the sync service dispatch a fetch while it is told. -/
def loginAndFetch : List AppEvent :=
  [.authViewWillAppear, .process (.loginPressed "ann" "pw"),
    .process (.authSucceeded ⟨0, .login "ann" "pw", 1⟩
      (.obj [("auth_token", .str "token"), ("user_id", .num 1)]))]

/-- The log of that login: its start, its success and the fetch. -/
theorem log_replays_loginAndFetch :
    ∃ s actions, runFrom .ascii .new loginAndFetch = some s ∧ s.printed = actions.map some ∧
      actions.length = 3 ∧ s.state = reduceAll (loadAppState .new) actions := by
  obtain ⟨s, hrun, hlength⟩ : ∃ s, runFrom .ascii .new loginAndFetch = some s ∧
      decide (s.printed.length = 3) = true := (Option.any_eq_true _ _).mp (by decide +kernel)
  obtain ⟨actions, hprinted, hstate, -⟩ := log_replays hrun
  refine ⟨s, actions, hrun, hprinted, ?_, hstate⟩
  rw [← of_decide_eq_true hlength, hprinted, List.length_map]

/-! ## The login screen -/

/-- A registration that the server refuses, while the login screen is shown. -/
def refusedRegistration : List AppEvent :=
  [.authViewWillAppear, .process (.registerPressed "ann" "pw"),
    .process (.authFailed ⟨0, .signUp "ann" "pw", 1⟩ ⟨none, "Username is taken"⟩)]

/-- While the login screen is subscribed the spinner spins iff the state says loading, and
    an error in the state is the alert it presented last. -/
theorem login_screen_shows {P : Platform} {r : Realm} {e : List AppEvent} {s : App}
    (h : runFrom P r e = some s) (hauth : .auth ∈ s.live) : s.env.auth.Shows s.state := by
  obtain ⟨state, hheard, hsame⟩ :=
    runFrom_coherent h .auth (List.mem_of_mem_filter hauth) (not_released_of_mem_live hauth)
  have hshows := (runFrom_sound h).auth state hheard
  -- the login screen skips repeats of `authState`, so it may have missed changes elsewhere
  have heq : state.authState = s.state.authState := (AppState.beq_iff.mp hsame).1
  exact ⟨heq ▸ hshows.spinning, fun msg hmsg => hshows.alert msg (heq ▸ hmsg)⟩

theorem login_screen_shows_refusedRegistration :
    ∃ s, runFrom .ascii .new refusedRegistration = some s ∧
      s.state.authState.authError = some "Username is taken" ∧ s.env.auth.Shows s.state := by
  obtain ⟨s, hrun, hs⟩ : ∃ s, runFrom .ascii .new refusedRegistration = some s ∧
      decide (s.state.authState.authError = some "Username is taken" ∧ .auth ∈ s.live) = true :=
    (Option.any_eq_true _ _).mp (by decide +kernel)
  obtain ⟨herror, hlive⟩ := of_decide_eq_true hs
  exact ⟨s, hrun, herror, login_screen_shows hrun hlive⟩

end App

end ReactiveDemo
