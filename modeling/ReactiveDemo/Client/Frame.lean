import ReactiveDemo.Client.Process

/-!
# What the handlers change

Reducer equations, and frame lemmas for the operations that every handler is built
from. Dispatching an action runs the sync service, which may start a fetch; so a
dispatch appends fetch requests to `pending` and `outbox` and changes nothing else
besides the state, the timers and the screen.

## Key results

- `fetchThoughtsAction_eq`: the fetch thunk sends one request when a token is there
- `dispatch_state`, `dispatch_realm`, `dispatch_history`, `dispatch_retries`
- `dispatch_calls`: the requests a dispatch adds are fetches
- `idle_step`: the callbacks that leave the Realm, the state and the timers as they are
- `createThoughtAction_posting`: what `createThoughtAction` leaves as it is
-/

namespace ReactiveDemo

/-! ## Reducer equations -/

-- each payload replaces the part of the state it is about, as one literal
@[simp] theorem mainReducer_loading (s : AppState) :
    mainReducer (.authProgress .loading) (some s) =
      { s with authState := { loading := true, currentUserId := s.authState.currentUserId } } := rfl

@[simp] theorem mainReducer_error (msg : String) (s : AppState) :
    mainReducer (.authProgress (.error msg)) (some s) =
      { s with authState :=
        { authError := some msg, currentUserId := s.authState.currentUserId } } := rfl

@[simp] theorem mainReducer_success (u : User) (s : AppState) :
    mainReducer (.authProgress (.success u)) (some s) =
      { s with authState := { currentUserId := some u.id } } := rfl

@[simp] theorem mainReducer_logout (s : Option AppState) :
    mainReducer (.authProgress .logout) s = {} := rfl

@[simp] theorem mainReducer_loadedThoughts (payload : LoadedThoughtsPayload) (s : AppState) :
    mainReducer (.loadedThoughts payload) (some s) =
      { s with thoughtsState := { loadedThoughtsPayload := some payload } } := rfl

/-- A session is what the authentication state and the stored users say. -/
structure Session where
  currentUserId : Option Int
  users : KeyedTable User User.id
deriving DecidableEq

namespace Process

def session (p : Process) : Session := ⟨p.state.authState.currentUserId, p.realm.users⟩

/-! ## Requests -/

def isFetch : Request → Bool
  | .fetchThoughts _ => true
  | _ => false

@[simp] theorem reduce_fetchThoughts (x : ThoughtsRequestPayload) (p : Process) :
    p.reduce (.fetchThoughts x) = p := rfl

@[simp] theorem reduce_createThought (x : ThoughtsRequestPayload) (p : Process) :
    p.reduce (.createThought x) = p := rfl

/-- The fetch thunk sends one request when there is a token, and does nothing otherwise. -/
theorem fetchThoughtsAction_eq (p : Process) :
    p.fetchThoughtsAction = match p.jwtToken with
      | none => p
      | some token => p.send (.fetchThoughts token) 0 := rfl

/-- `q` is `p` after the sync service has run: it may have touched the timers and
    started fetches. -/
structure Polled (p q : Process) : Prop where
  realm : q.realm = p.realm
  state : q.state = p.state
  screen : q.screen = p.screen
  retries : q.retries = p.retries
  history : q.history = p.history
  nextCall : p.nextCall ≤ q.nextCall
  calls : ∃ new : List Call, (∀ c ∈ new, isFetch c.request) ∧
    q.pending = p.pending ++ new ∧ q.outbox = p.outbox ++ new

/-- The sync service may do nothing. -/
theorem Polled.refl (p : Process) : Polled p p :=
  ⟨rfl, rfl, rfl, rfl, rfl, le_refl _, [], by simp, by simp, by simp⟩

/-- Starting or invalidating timers is nothing that anybody else sees. -/
theorem Polled.setTimers (p : Process) (timers : List Bool) : Polled p { p with timers } :=
  ⟨rfl, rfl, rfl, rfl, rfl, le_refl _, [], by simp, by simp, by simp⟩

/-- What the sync service does in two goes it may do in one: the fetches are appended in turn. -/
theorem Polled.trans {p q r : Process} (hpq : Polled p q) (hqr : Polled q r) : Polled p r := by
  obtain ⟨new, hnew, hpend, hout⟩ := hpq.calls
  obtain ⟨new', hnew', hpend', hout'⟩ := hqr.calls
  refine ⟨hqr.realm.trans hpq.realm, hqr.state.trans hpq.state, hqr.screen.trans hpq.screen,
    hqr.retries.trans hpq.retries, hqr.history.trans hpq.history,
    hpq.nextCall.trans hqr.nextCall, new ++ new', ?_, ?_, ?_⟩
  -- fetches of either go
  · intro c hc
    cases List.mem_append.mp hc with
    | inl hc =>
      exact hnew c hc
    | inr hc =>
      exact hnew' c hc
  -- pending and outbox grow by the same requests
  · rw [hpend', hpend, List.append_assoc]
  · rw [hout', hout, List.append_assoc]

/-- A fetch is at most one new request, and its number is a fresh one. -/
theorem fetchThoughtsAction_polled (p : Process) : Polled p p.fetchThoughtsAction := by
  rw [fetchThoughtsAction_eq]
  cases p.jwtToken with
  | none => exact .refl p
  | some token =>
    exact ⟨rfl, rfl, rfl, rfl, rfl, Nat.le_succ _, [⟨p.nextCall, .fetchThoughts token, 0⟩],
      by simp [isFetch], rfl, rfl⟩

/-- A first timer comes with a fetch at once; while there is a timer polling goes on as it is. -/
theorem startPollingForThoughts_polled (p : Process) : Polled p p.startPollingForThoughts := by
  unfold startPollingForThoughts
  split
  · exact .refl p
  · exact (Polled.setTimers p _).trans (fetchThoughtsAction_polled _)

/-- `newState` of the sync service polls while somebody is logged in, and invalidates the
    timers otherwise. -/
theorem syncNewState_polled (p : Process) : Polled p p.syncNewState := by
  unfold syncNewState
  split
  · exact startPollingForThoughts_polled p
  · exact .setTimers p _

/-- Launching loads the state and runs the sync service. -/
theorem launch_polled (r : Realm) : Polled { realm := r, state := loadAppState r } (launch r) := by
  have hsync := syncNewState_polled { realm := r, state := loadAppState r }
  simp only [launch]
  -- `run` polls once more when a user was stored; the timer is there by then
  split
  · exact hsync.trans (startPollingForThoughts_polled _)
  · exact hsync

/-! ## Dispatch -/

/-- `skipRepeats`: the sync service is told of the new state unless it equals the old one. -/
theorem notifySync_polled (old : AppState) (p : Process) : Polled p (p.notifySync old) := by
  unfold notifySync
  split
  · exact .refl p
  · exact syncNewState_polled p

/-- The thoughts screen is told when it is subscribed and its part of the state has changed;
    what it does then concerns the screen alone. -/
theorem notifyScreen_eq (old : AppState) (p : Process) :
    p.notifyScreen old = { p with
      screen := (if p.screen.subscribed && !(p.state.thoughtsState == old.thoughtsState) then
        p.screen.newState p.state.thoughtsState else p.screen) } := by
  unfold notifyScreen
  split <;> rfl

/-- A dispatch runs the reducer, lets the sync service poll, and may redraw the screen. -/
theorem dispatch_polled (a : Action) (p : Process) :
    ∃ q, Polled (p.reduce a) q ∧ ∃ screen, p.dispatch a = { q with screen } := by
  refine ⟨(p.reduce a).notifySync p.state, notifySync_polled _ _, ?_⟩
  rw [dispatch, notifyScreen_eq]
  exact ⟨_, rfl⟩

@[simp] theorem dispatch_realm (a : Action) (p : Process) : (p.dispatch a).realm = p.realm := by
  obtain ⟨q, hq, screen, h⟩ := dispatch_polled a p
  rw [h]; exact hq.realm

@[simp] theorem dispatch_state (a : Action) (p : Process) :
    (p.dispatch a).state = mainReducer a (some p.state) := by
  obtain ⟨q, hq, screen, h⟩ := dispatch_polled a p
  rw [h]; exact hq.state

@[simp] theorem dispatch_retries (a : Action) (p : Process) :
    (p.dispatch a).retries = p.retries := by
  obtain ⟨q, hq, screen, h⟩ := dispatch_polled a p
  rw [h]; exact hq.retries

@[simp] theorem dispatch_history (a : Action) (p : Process) :
    (p.dispatch a).history = p.history := by
  obtain ⟨q, hq, screen, h⟩ := dispatch_polled a p
  rw [h]; exact hq.history

/-- Numbers of requests are not used again. -/
theorem dispatch_nextCall (a : Action) (p : Process) : p.nextCall ≤ (p.dispatch a).nextCall := by
  obtain ⟨q, hq, screen, h⟩ := dispatch_polled a p
  rw [h]; exact hq.nextCall

/-- The requests a dispatch starts are fetches of the sync service. -/
theorem dispatch_calls (a : Action) (p : Process) :
    ∃ new : List Call, (∀ c ∈ new, isFetch c.request) ∧
      (p.dispatch a).pending = p.pending ++ new ∧ (p.dispatch a).outbox = p.outbox ++ new := by
  obtain ⟨q, hq, screen, h⟩ := dispatch_polled a p
  rw [h]; exact hq.calls

/-- The screen after a dispatch: `newState` runs when it is subscribed and its part of
    the state has changed. -/
theorem dispatch_screen (a : Action) (p : Process) :
    (p.dispatch a).screen =
      if p.screen.subscribed &&
        !((mainReducer a (some p.state)).thoughtsState == p.state.thoughtsState) then
        p.screen.newState (mainReducer a (some p.state)).thoughtsState
      else p.screen := by
  -- the sync service comes first, and leaves screen and state to the thoughts screen
  have hq := notifySync_polled p.state (p.reduce a)
  rw [dispatch, notifyScreen_eq]
  simp only [hq.screen, hq.state]
  rfl

/-! ## The remaining building blocks -/

-- sending a request adds it to what is pending and to the outbox, and nothing else
@[simp] theorem send_realm (r : Request) (n : Nat) (p : Process) : (p.send r n).realm = p.realm := rfl
@[simp] theorem send_state (r : Request) (n : Nat) (p : Process) : (p.send r n).state = p.state := rfl
@[simp] theorem send_retries (r : Request) (n : Nat) (p : Process) :
    (p.send r n).retries = p.retries := rfl
@[simp] theorem send_history (r : Request) (n : Nat) (p : Process) :
    (p.send r n).history = p.history := rfl
@[simp] theorem send_screen (r : Request) (n : Nat) (p : Process) :
    (p.send r n).screen = p.screen := rfl
@[simp] theorem send_pending (r : Request) (n : Nat) (p : Process) :
    (p.send r n).pending = p.pending ++ [⟨p.nextCall, r, n⟩] := rfl
@[simp] theorem send_outbox (r : Request) (n : Nat) (p : Process) :
    (p.send r n).outbox = p.outbox ++ [⟨p.nextCall, r, n⟩] := rfl

-- a note changes the history only
@[simp] theorem note_realm (f : History → History) (p : Process) : (p.note f).realm = p.realm := rfl
@[simp] theorem note_state (f : History → History) (p : Process) : (p.note f).state = p.state := rfl
@[simp] theorem note_retries (f : History → History) (p : Process) :
    (p.note f).retries = p.retries := rfl
@[simp] theorem note_screen (f : History → History) (p : Process) :
    (p.note f).screen = p.screen := rfl
@[simp] theorem note_pending (f : History → History) (p : Process) :
    (p.note f).pending = p.pending := rfl
@[simp] theorem note_outbox (f : History → History) (p : Process) :
    (p.note f).outbox = p.outbox := rfl
@[simp] theorem note_history (f : History → History) (p : Process) :
    (p.note f).history = f p.history := rfl

-- a request that has reported is pending no more
@[simp] theorem complete_realm (c : Call) (p : Process) : (p.complete c).realm = p.realm := rfl
@[simp] theorem complete_state (c : Call) (p : Process) : (p.complete c).state = p.state := rfl
@[simp] theorem complete_retries (c : Call) (p : Process) :
    (p.complete c).retries = p.retries := rfl
@[simp] theorem complete_history (c : Call) (p : Process) :
    (p.complete c).history = p.history := rfl
@[simp] theorem complete_screen (c : Call) (p : Process) :
    (p.complete c).screen = p.screen := rfl
@[simp] theorem complete_outbox (c : Call) (p : Process) :
    (p.complete c).outbox = p.outbox := rfl
@[simp] theorem complete_pending (c : Call) (p : Process) :
    (p.complete c).pending = p.pending.erase c := rfl

-- the observer belongs to the screen
@[simp] theorem setObserver_realm (o : Observer) (p : Process) :
    (p.setObserver o).realm = p.realm := rfl
@[simp] theorem setObserver_state (o : Observer) (p : Process) :
    (p.setObserver o).state = p.state := rfl
@[simp] theorem setObserver_retries (o : Observer) (p : Process) :
    (p.setObserver o).retries = p.retries := rfl
@[simp] theorem setObserver_history (o : Observer) (p : Process) :
    (p.setObserver o).history = p.history := rfl
@[simp] theorem setObserver_pending (o : Observer) (p : Process) :
    (p.setObserver o).pending = p.pending := rfl
@[simp] theorem setObserver_outbox (o : Observer) (p : Process) :
    (p.setObserver o).outbox = p.outbox := rfl

@[simp] theorem setObserver_loggedIn (o : Observer) (p : Process) :
    (p.setObserver o).loggedIn = p.loggedIn := rfl

/-! ## What a step can do

A response is processed when its request is pending and of the right kind. -/

/-- The username the callbacks of an authentication request capture. -/
def username? : Request → Option String
  | .signUp username _ => some username
  | .login username _ => some username
  | _ => none

variable {P : Platform} {p p' : Process}

/-- Registration and login share the callback; the username is the one that was typed. -/
theorem step_authSucceeded {call : Call} {body : Json} :
    p.step P (.authSucceeded call body) = some p' ↔
      call ∈ p.pending ∧ ∃ username, username? call.request = some username ∧
        (p.complete call).authSuccess P body.jsonDict username = p' := by
  -- `step` matches on the request that is pending: for the other kinds both sides fail
  by_cases hmem : call ∈ p.pending <;>
    cases hreq : call.request <;> simp [step, hmem, hreq, username?]

theorem step_authFailed {call : Call} {error : RequestError} :
    p.step P (.authFailed call error) = some p' ↔
      call ∈ p.pending ∧ (username? call.request).isSome ∧
        (p.complete call).authFailure error = p' := by
  by_cases hmem : call ∈ p.pending <;>
    cases hreq : call.request <;> simp [step, hmem, hreq, username?]

theorem step_createSucceeded {call : Call} :
    p.step P (.createSucceeded call) = some p' ↔
      call ∈ p.pending ∧ ∃ token text, call.request = .createThought token text ∧
        (p.complete call).createSuccess call.origin = p' := by
  by_cases hmem : call ∈ p.pending <;> cases hreq : call.request <;> simp [step, hmem, hreq]

/-- The failure callback has the text of its request, which the retry posts again. -/
theorem step_createFailed {call : Call} {error : RequestError} :
    p.step P (.createFailed call error) = some p' ↔
      call ∈ p.pending ∧ ∃ token text, call.request = .createThought token text ∧
        (p.complete call).createFailure call.origin text error = p' := by
  by_cases hmem : call ∈ p.pending <;> cases hreq : call.request <;> simp [step, hmem, hreq]

/-- A response that does not cast traps, and then there is no step. -/
theorem step_fetchSucceeded {call : Call} {body : Json} :
    p.step P (.fetchSucceeded call body) = some p' ↔
      call ∈ p.pending ∧ (∃ token, call.request = .fetchThoughts token) ∧
        ∃ realm, mergeElements P body.jsonArray p.realm = some realm ∧
          { p.complete call with realm } = p' := by
  -- the dispatch at the end changes nothing, so the merged Realm is all there is
  by_cases hmem : call ∈ p.pending <;> cases hreq : call.request <;>
    simp [step, hmem, hreq, fetchSuccess]

theorem step_fetchFailed {call : Call} {error : RequestError} :
    p.step P (.fetchFailed call error) = some p' ↔
      call ∈ p.pending ∧ (∃ token, call.request = .fetchThoughts token) ∧ p.complete call = p' := by
  by_cases hmem : call ∈ p.pending <;> cases hreq : call.request <;>
    simp [step, hmem, hreq, fetchFailure]

/-- The callbacks that concern neither the Realm, nor the state of the store, nor the timers. -/
def isIdle : Event → Bool
  | .createSucceeded _ | .createFailed _ _ | .fetchFailed _ _ | .timerFired | .viewDidLoad
  | .layoutTable | .viewDidAppear | .viewDidDisappear => true
  | _ => false

/-- Between `p` and `q` the Realm, the state, the timers and the number of the session stay as
    they are. -/
structure Idle (p q : Process) : Prop where
  realm : q.realm = p.realm
  state : q.state = p.state
  timers : q.timers = p.timers
  number : q.history.session = p.history.session

/-- The session is read from the state and the stored users, which stay. -/
theorem Idle.session_eq (h : Idle p p') : p'.session = p.session := by
  simp only [session, h.realm, h.state]

/-- An idle callback is one whatever it does to requests, retries and the screen. -/
theorem idle_step {e : Event} (he : isIdle e = true) (h : p.step P e = some p') : Idle p p' := by
  cases e with
  | createSucceeded call =>
    obtain ⟨-, token, text, -, rfl⟩ := step_createSucceeded.mp h
    rw [createSuccess, reduce_createThought]
    exact ⟨rfl, rfl, rfl, rfl⟩
  -- the retry is scheduled
  | createFailed call error =>
    obtain ⟨-, token, text, -, rfl⟩ := step_createFailed.mp h
    simp only [createFailure, reduce_createThought]
    exact ⟨rfl, rfl, rfl, rfl⟩
  | fetchFailed call error =>
    obtain ⟨-, -, rfl⟩ := step_fetchFailed.mp h
    exact ⟨rfl, rfl, rfl, rfl⟩
  | timerFired =>
    -- a fetch is started when somebody is logged in
    simp only [step, Option.ite_none_right_eq_some, Option.some.injEq] at h
    obtain ⟨-, rfl⟩ := h
    rw [fetchThoughtsAction_eq]
    split <;> exact ⟨rfl, rfl, rfl, rfl⟩
  | viewDidLoad =>
    cases h
    exact ⟨rfl, rfl, rfl, rfl⟩
  | layoutTable =>
    simp only [step, Option.ite_none_left_eq_some, Option.some.injEq] at h
    obtain ⟨-, rfl⟩ := h
    exact ⟨rfl, rfl, rfl, rfl⟩
  | viewDidAppear =>
    simp only [step, Option.ite_none_right_eq_some, Option.some.injEq] at h
    obtain ⟨-, rfl⟩ := h
    exact ⟨rfl, rfl, rfl, rfl⟩
  | viewDidDisappear =>
    cases h
    exact ⟨rfl, rfl, rfl, rfl⟩
  -- the others are not idle
  | _ => cases he

/-- From `p` to `q` Thoughts may be stored and requests sent; the session, the timers, the
    screen and the presses stay as they are. -/
structure Posting (p q : Process) : Prop where
  users : q.realm.users = p.realm.users
  state : q.state = p.state
  timers : q.timers = p.timers
  screen : q.screen = p.screen
  presses : q.history.presses = p.history.presses
  number : q.history.session = p.history.session

theorem Posting.session_eq (h : Posting p p') : p'.session = p.session := by
  simp only [session, h.users, h.state]

/-- A Post stores a Thought and sends a request, or drops the press; nobody is told of a new
    state. -/
theorem createThoughtAction_posting (P : Platform) (text : String) (press : Nat) (now : Date)
    (p : Process) : Posting p (p.createThoughtAction P text press now) := by
  simp only [createThoughtAction, reduce_createThought]
  split
  -- no token
  · exact ⟨rfl, rfl, rfl, rfl, rfl, rfl⟩
  · split
    -- no user
    · exact ⟨rfl, rfl, rfl, rfl, rfl, rfl⟩
    · -- a request is sent, after a Thought has been stored or not
      unfold persistThought
      split <;> exact ⟨rfl, rfl, rfl, rfl, rfl, rfl⟩

/-- What a notification does: it is dispatched, but for an update that finds nobody
    logged in. -/
theorem observe_cases {change : Change} (h : p.observe change = some p') :
    (∃ results, change = .initial results ∧ p.screen.observer = .waiting ∧ p.Reports results ∧
      p' = (p.setObserver (.observing results)).dispatch (.loadedThoughts (.initial results))) ∨
    (∃ old results d i m, change = .update results d i m ∧ p.screen.observer = .observing old ∧
      p.Reports results ∧ Screen.ValidDiff old results d i m ∧
      p' = if p.loggedIn then (p.setObserver (.observing results)).dispatch
        (.loadedThoughts (.update results d i m)) else p.setObserver (.observing results)) ∨
    (∃ error, change = .error error ∧ p.screen.observer ≠ .stopped ∧
      p' = (p.setObserver .stopped).dispatch (.loadedThoughts (.error error))) := by
  unfold observe at h
  split at h
  -- `.initial`, while the observer waits
  · rename_i results hobs
    split at h
    · rename_i hr
      exact Or.inl ⟨results, rfl, hobs, hr, (Option.some.inj h).symm⟩
    · cases h
  -- `.update`, of what is observed
  · rename_i results d i m old hobs
    split at h
    · rename_i hr
      exact Or.inr (Or.inl ⟨old, results, d, i, m, rfl, hobs, hr.1, hr.2, (Option.some.inj h).symm⟩)
    · cases h
  -- `.error`, waiting or observing
  · rename_i error hobs
    exact Or.inr (Or.inr ⟨error, rfl, by simp [hobs], (Option.some.inj h).symm⟩)
  · rename_i error _ hobs
    exact Or.inr (Or.inr ⟨error, rfl, by simp [hobs], (Option.some.inj h).symm⟩)
  -- no other change is reported
  · cases h

end Process

end ReactiveDemo
