import ReactiveDemo.Client.Process
import ReactiveDemo.ForStd.Run
import ReactiveDemo.ReSwift.Store

/-!
# The app on its store

The whole app as the code of its callbacks, run on the ReSwift store: the sync service,
the login screen and the thoughts screen subscribe to it, and the code dispatches while
their `newState` runs. `Process` has the effect of a dispatch on the sync service and the
thoughts screen built into its steps; here the store brings it about.
-/

namespace ReactiveDemo

/-- The objects that subscribe; `thoughts n` is the `n`-th controller of the thoughts screen. -/
inductive Subscriber where
  | sync
  | auth
  | thoughts (n : Nat)
deriving DecidableEq, Repr

/-- `AuthViewController`. -/
structure AuthScreen where
  spinning : Bool := false
  /-- The messages that `alertError` was called with. -/
  alerts : List String := []
  /-- How often `goToThoughtsList` was called. -/
  segues : Nat := 0

/-- The process but for its store. Of `process` the fields `state` and `screen.subscribed`
    are not used here: the store has them. -/
structure Device where
  process : Process
  auth : AuthScreen := {}
  /-- `headerLabel.text`. -/
  header : Option String := none
  /-- How many controllers of the thoughts screen were loaded. -/
  controllers : Nat := 0

abbrev App := ReSwift.Store AppState Action Device Subscriber

abbrev Code := ReSwift.Script AppState Action Device Subscriber

namespace App

open ReSwift

/-- Code that involves neither the store nor the login screen. -/
def update (f : Process → Process) (k : Code) : Code :=
  .perform (fun d => { d with process := f d.process }) k

/-! ## The sync service -/

/-- The body of `fetchThoughtsAction`. -/
def fetchThoughtsAction : Code :=
  .dispatch (.fetchThoughts .loading) <| .getState fun state d =>
    match state.authState.jwtToken d.process.realm with
    | none => .dispatch (.fetchThoughts (.error "User is not logged in")) .done
    | some token => update (Process.send (.fetchThoughts token) 0) .done

/-- `startPollingForThoughts`. -/
def startPollingForThoughts : Code :=
  .getState fun _ d =>
    if d.process.timers.head? = some true then .done
    else update (fun p => { p with timers := true :: p.timers }) <| .thunk fetchThoughtsAction .done

/-- `ThoughtsSyncService.newState(state:)`. -/
def syncNewState (state : AppState) : Code :=
  .getState fun _ d =>
    if state.authState.loggedIn d.process.realm then startPollingForThoughts
    else update Process.invalidateTimer .done

/-! ## The login screen -/

def alertError (message : String) (d : Device) : Device :=
  { d with auth := { d.auth with alerts := d.auth.alerts ++ [message] } }

def goToThoughtsList (d : Device) : Device :=
  { d with auth := { d.auth with segues := d.auth.segues + 1 } }

/-- `AuthViewController.newState(state:)`. -/
def authNewState (state : AppState) : Code :=
  .perform (fun d => { d with auth := { d.auth with spinning := state.authState.loading } }) <|
    match state.authState.authError with
    | some error => .perform (alertError error) .done
    | none => .getState fun _ d =>
      if state.authState.loggedIn d.process.realm then .perform goToThoughtsList .done else .done

/-! ## The thoughts screen -/

/-- `setHeaderLabel`. -/
def setHeaderLabel (k : Code) : Code :=
  .getState fun state d =>
    match state.authState.currentUser d.process.realm with
    | some user => .perform (fun d => { d with header := some (user.username ++ "'s Feed") }) k
    | none => k

/-- `ThoughtsViewController.newState(state:)`. -/
def thoughtsNewState (state : ThoughtsState) : Code :=
  setHeaderLabel <| update (fun p => { p with screen := p.screen.newState state }) .done

/-! ## The store -/

/-- `store.subscribe(self)`: both overloads for `Equatable` states skip repeats. -/
def wholeState : Subscription AppState AppState :=
  (Subscription.original.skipRepeats (· == ·)).skipRepeats (· == ·)

/-- The subscription of `viewDidAppear`, which `subscribe` makes skip repeats once more. -/
def thoughtsOnly : Subscription AppState ThoughtsState :=
  ((Subscription.original.selectEquatable AppState.thoughtsState).skipRepeats (· == ·)).skipRepeats
    (· == ·)

def program : Program AppState Action Device Subscriber where
  reducer action state := mainReducer action (some state)
  newValues
    | .sync => box wholeState syncNewState
    | .auth => box wholeState authNewState
    | .thoughts _ => box thoughtsOnly thoughtsNewState

/-! ## Authentication -/

/-- The body of `logoutAction`. -/
def logoutAction : Code :=
  update (fun p => { p with realm := p.realm.deleteAll }.noteAuthAct.noteSession) <|
    .dispatch (.authProgress .logout) .done

/-- The body of `createUserAction` and of `loginAction`. -/
def startAuth (request : Request) : Code :=
  update Process.noteAuthAct <| .dispatch (.authProgress .loading) <| .getState fun _ d =>
    update (Process.send request d.process.history.authActs) .done

/-- `authSuccess`. -/
def authSuccess (P : Platform) (json : List (String × Json)) (username : String) : Code :=
  match Json.stringField json "auth_token" with
  | none => .dispatch (.authProgress (.error "No token received")) .done
  | some token =>
    match Json.intField json "user_id" with
    | none => .dispatch (.authProgress (.error "No userId received")) .done
    | some id =>
      let user : User := { username := P.lowercased username, id, jwtToken := token }
      update (fun p => { p with realm := p.realm.saveUser user }.noteSession) <|
        .dispatch (.authProgress (.success user)) .done

/-- The `onFailure` callback of both authentication requests. -/
def authFailure (error : RequestError) : Code :=
  let errorMsg := (error.entity.bind fun e => Json.stringField e.jsonDict "error").getD
    error.userMessage
  .dispatch (.authProgress (.error errorMsg)) .done

/-! ## Posting -/

/-- The `else` branch of the two guards of `createThoughtAction`. -/
def dropPress (press : Nat) : Code :=
  .dispatch (.fetchThoughts (.error "User is not logged in")) <|
    update (Process.note fun h => { h with dropped := h.dropped ++ [press] }) .done

/-- The body of `createThoughtAction`. -/
def createThoughtAction (P : Platform) (text : String) (press : Nat) (now : Date) : Code :=
  .dispatch (.createThought .loading) <| .getState fun state d =>
    match state.authState.jwtToken d.process.realm with
    | none => dropPress press
    | some token =>
      match state.authState.currentUser d.process.realm with
      | none => dropPress press
      | some user =>
        update (Process.persistThought P ⟨user.username, text, now⟩ press) <|
          update (Process.send (.createThought token text) press) .done

/-- `postThoughtPressed`. -/
def postThoughtPressed (P : Platform) (text : String) (now : Date) : Code :=
  .getState fun state d =>
    let press : Press := ⟨text, state.authState.currentUserId⟩
    update (Process.note fun h => { h with presses := h.presses ++ [press] }) <|
      .thunk (createThoughtAction P text d.process.history.presses.length now) .done

def createSuccess (press : Nat) : Code :=
  .dispatch (.createThought .success) <|
    update (Process.note fun h => { h with acknowledged := h.acknowledged ++ [press] }) .done

def createFailure (press : Nat) (text : String) (error : RequestError) : Code :=
  update (fun p => { p with retries := p.retries ++ [⟨press, text⟩] }) <|
    .dispatch (.createThought (.error error.userMessage)) .done

/-! ## Fetching -/

def fetchSuccess (P : Platform) (body : Json) : Code :=
  .getState fun _ d =>
    match Process.mergeElements P body.jsonArray d.process.realm with
    | none => .stop
    | some realm => update (fun p => { p with realm }) <| .dispatch (.fetchThoughts .success) .done

def fetchFailure (error : RequestError) : Code :=
  .dispatch (.fetchThoughts (.error error.userMessage)) .done

/-! ## The observer -/

/-- The callback of `startObservingDatabase`. -/
def observe (change : Change) : Code :=
  .getState fun state d =>
    match change, d.process.screen.observer with
    | .initial results, .waiting =>
      if d.process.Reports results then
        update (Process.setObserver (.observing results)) <|
          .dispatch (.loadedThoughts (.initial results)) .done
      else .stop
    | .update results deletions insertions modifications, .observing old =>
      if d.process.Reports results ∧
          Screen.ValidDiff old results deletions insertions modifications then
        update (Process.setObserver (.observing results)) <|
          if state.authState.loggedIn d.process.realm then
            .dispatch (.loadedThoughts (.update results deletions insertions modifications)) .done
          else .done
      else .stop
    | .error error, .waiting | .error error, .observing _ =>
      update (Process.setObserver .stopped) <| .dispatch (.loadedThoughts (.error error)) .done
    | _, _ => .stop

end App

/-! ## Events -/

/-- The callbacks of the process, and the appearance callbacks of the login screen. -/
inductive AppEvent where
  | process (e : Event)
  | authViewWillAppear
  | authViewDidAppear
  | authViewWillDisappear

def AppEvent.process? : AppEvent → Option Event
  | .process e => some e
  | _ => none

namespace App

open ReSwift

/-- The callbacks of a request run while it is pending, and it reports once. -/
def complete (call : Call) (k : Request → Code) : Code :=
  .getState fun _ d =>
    if call ∈ d.process.pending then update (Process.complete call) (k call.request) else .stop

/-- What the main thread runs for an event of the process. -/
def processCode (P : Platform) : Event → Code
  | .loginPressed username password => .thunk (startAuth (.login username password)) .done
  | .registerPressed username password => .thunk (startAuth (.signUp username password)) .done
  | .logoutSegue => .thunk logoutAction .done
  | .postThoughtPressed text now => postThoughtPressed P text now
  | .authSucceeded call body => complete call fun
    | .signUp username _ => authSuccess P body.jsonDict username
    | .login username _ => authSuccess P body.jsonDict username
    | _ => .stop
  | .authFailed call error => complete call fun
    | .signUp _ _ => authFailure error
    | .login _ _ => authFailure error
    | _ => .stop
  | .createSucceeded call => complete call fun
    | .createThought _ _ => createSuccess call.origin
    | _ => .stop
  | .createFailed call error => complete call fun
    | .createThought _ text => createFailure call.origin text error
    | _ => .stop
  | .fetchSucceeded call body => complete call fun
    | .fetchThoughts _ => fetchSuccess P body
    | _ => .stop
  | .fetchFailed call error => complete call fun
    | .fetchThoughts _ => fetchFailure error
    | _ => .stop
  | .retryFired retry now => .getState fun _ d =>
    if retry ∈ d.process.retries then
      update (fun p => { p with retries := p.retries.erase retry }) <|
        .thunk (createThoughtAction P retry.text retry.press now) .done
    else .stop
  | .timerFired => .getState fun _ d =>
    if true ∈ d.process.timers then .thunk fetchThoughtsAction .done else .stop
  | .notified change => observe change
  -- a new view controller; only the store, weakly, still refers to the old one
  | .viewDidLoad => .getState fun _ d =>
    .release (.thoughts d.controllers) <|
      .perform (fun d => { d with controllers := d.controllers + 1, header := none }) <|
        update (fun p => { p with screen := { p.screen with rows := 0, laidOut := false } }) .done
  | .layoutTable => .getState fun state d =>
    if d.process.screen.laidOut then .stop
    else update (fun p => { p with screen := p.screen.layout state.thoughtsState }) .done
  | .viewDidAppear => .getState fun _ d =>
    if d.process.screen.laidOut then
      .subscribe (.thoughts d.controllers) <| update (Process.setObserver .waiting) .done
    else .stop
  | .viewDidDisappear => .getState fun _ d =>
    .unsubscribe (.thoughts d.controllers) <| update (Process.setObserver .stopped) .done

/-- What the main thread runs for an event. -/
def code (P : Platform) : AppEvent → Code
  | .process e => processCode P e
  | .authViewWillAppear => .subscribe .auth .done
  | .authViewDidAppear => .getState fun state d =>
    if state.authState.loggedIn d.process.realm then .perform goToThoughtsList .done else .done
  | .authViewWillDisappear => .unsubscribe .auth .done

/-- How deep the callbacks of the app nest: a `newState` dispatches, but never a new state. -/
def depth : Nat := 2

def step (P : Platform) (s : App) (e : AppEvent) : Option App := execute program depth (code P e) s

/-- `didFinishLaunchingWithOptions`: the sync service subscribes, and runs. -/
def launchCode : Code :=
  .subscribe .sync <| .getState fun state d =>
    if state.authState.loggedIn d.process.realm then startPollingForThoughts else .done

/-- The store when it is made, before anybody subscribes. -/
def fresh (r : Realm) : App :=
  { state := loadAppState r, env := { process := { realm := r, state := {} } } }

def launch (r : Realm) : Option App := execute program depth launchCode (fresh r)

/-- The app after it was launched on the Realm and the main thread ran the events. -/
def runFrom (P : Platform) (r : Realm) (es : List AppEvent) : Option App :=
  (launch r).bind fun s => Transition.run (step P) s es

/-- The process that the app amounts to. -/
def process (s : App) : Process :=
  { s.env.process with
    state := s.state
    screen := { s.env.process.screen with
      subscribed := Subscriber.thoughts s.env.controllers ∈ s.live } }

end App

end ReactiveDemo
