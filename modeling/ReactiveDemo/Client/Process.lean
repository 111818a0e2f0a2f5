import ReactiveDemo.Client.Screen

/-!
# The client process

One running app: the Realm, the store, the polling timers, the thoughts screen, the
requests whose callbacks are still to run, and the scheduled retries. Every callback
runs to completion on the main thread, so an `Event` is one such callback and `step`
is what it does.

The tags `origin` and the fields of `History` record where a request comes from and
what has happened; no handler reads them.
-/

namespace ReactiveDemo

/-- A request the client makes (`API.swift`). -/
inductive Request where
  | signUp (username password : String)
  | login (username password : String)
  | fetchThoughts (token : String)
  | createThought (token text : String)
deriving DecidableEq, Repr

/-- A request in Siesta's hands. `origin` is the number of the Post press, or of the
    authentication act, that the request comes from. -/
structure Call where
  id : Nat
  request : Request
  origin : Nat
deriving DecidableEq, Repr

/-- The block that `createThoughtAction` hands to `asyncAfter`: it captures the text. -/
structure Retry where
  press : Nat
  text : String
deriving DecidableEq, Repr

/-- Siesta's `RequestError`: the error response's content, if any, and a message. -/
structure RequestError where
  entity : Option Json
  userMessage : String

/-- A press of Post, with the current user at that moment. -/
structure Press where
  text : String
  author : Option Int
deriving DecidableEq, Repr

/-- A Thought that `createThoughtAction` stored locally. -/
structure Saved where
  press : Nat
  text : String
  session : Nat
deriving DecidableEq, Repr

/-- What has happened in this process. -/
structure History where
  /-- How many logins, registrations and logouts were dispatched. -/
  authActs : Nat := 0
  /-- How many logouts and authentication successes were processed. -/
  session : Nat := 0
  presses : List Press := []
  acknowledged : List Nat := []
  dropped : List Nat := []
  saved : List Saved := []

structure Process where
  realm : Realm
  state : AppState
  /-- The timers the sync service has scheduled, latest first, and whether each is valid. -/
  timers : List Bool := []
  screen : Screen := {}
  /-- The requests that have reported neither success nor failure. -/
  pending : List Call := []
  /-- The requests that the network has not handed to the server. -/
  outbox : List Call := []
  retries : List Retry := []
  nextCall : Nat := 0
  history : History := {}

namespace Process

def currentUser (p : Process) : Option User := p.state.authState.currentUser p.realm

def jwtToken (p : Process) : Option String := p.state.authState.jwtToken p.realm

def loggedIn (p : Process) : Bool := p.state.authState.loggedIn p.realm

def note (f : History → History) (p : Process) : Process := { p with history := f p.history }

/-- Start a request. -/
def send (request : Request) (origin : Nat) (p : Process) : Process :=
  let call := { id := p.nextCall, request, origin }
  { p with pending := p.pending ++ [call], outbox := p.outbox ++ [call], nextCall := p.nextCall + 1 }

/-- Run the reducer. This is all that dispatching a `FetchThoughts` or `CreateThought`
    does: they leave the state as it is, and every subscription skips repeats. -/
def reduce (action : Action) (p : Process) : Process :=
  { p with state := mainReducer action (some p.state) }

/-! ## Polling -/

/-- `fetchThoughtsAction`. -/
def fetchThoughtsAction (p : Process) : Process :=
  let p := p.reduce (.fetchThoughts .loading)
  match p.jwtToken with
  | none => p.reduce (.fetchThoughts (.error "User is not logged in"))
  | some token => p.send (.fetchThoughts token) 0

/-- `startPollingForThoughts`: unless the latest timer is valid, schedule one and fire it. -/
def startPollingForThoughts (p : Process) : Process :=
  if p.timers.head? = some true then p
  else fetchThoughtsAction { p with timers := true :: p.timers }

/-- `fetchNewThoughtsTimer?.invalidate()`. -/
def invalidateTimer (p : Process) : Process :=
  { p with timers := match p.timers with
    | [] => []
    | _ :: earlier => false :: earlier }

/-- `ThoughtsSyncService.newState(state:)`. -/
def syncNewState (p : Process) : Process :=
  if p.loggedIn then p.startPollingForThoughts else p.invalidateTimer

/-! ## The store -/

/-- The sync service subscribes to the whole state and skips repeats. -/
def notifySync (old : AppState) (p : Process) : Process :=
  if p.state == old then p else p.syncNewState

/-- The screen subscribes to `thoughtsState` and skips repeats. -/
def notifyScreen (old : AppState) (p : Process) : Process :=
  if p.screen.subscribed && !(p.state.thoughtsState == old.thoughtsState) then
    { p with screen := p.screen.newState p.state.thoughtsState }
  else p

/-- `store.dispatch` of a plain action: reduce, then notify the subscribers. -/
def dispatch (action : Action) (p : Process) : Process :=
  ((p.reduce action).notifySync p.state).notifyScreen p.state

/-! ## Authentication -/

/-- The dispatch of a login, registration or logout makes the earlier ones stale. -/
def noteAuthAct (p : Process) : Process :=
  p.note fun h => { h with authActs := h.authActs + 1 }

def noteSession (p : Process) : Process :=
  p.note fun h => { h with session := h.session + 1 }

/-- `logoutAction`: flush the whole database, then clear the state. -/
def logoutAction (p : Process) : Process :=
  let p := { p with realm := p.realm.deleteAll }
  (p.noteAuthAct.noteSession).dispatch (.authProgress .logout)

/-- `createUserAction`. -/
def createUserAction (username password : String) (p : Process) : Process :=
  let p := p.noteAuthAct.dispatch (.authProgress .loading)
  p.send (.signUp username password) p.history.authActs

/-- `loginAction`. -/
def loginAction (username password : String) (p : Process) : Process :=
  let p := p.noteAuthAct.dispatch (.authProgress .loading)
  p.send (.login username password) p.history.authActs

/-- `authSuccess`. -/
def authSuccess (P : Platform) (json : List (String × Json)) (username : String) (p : Process) :
    Process :=
  match Json.stringField json "auth_token" with
  | none => p.dispatch (.authProgress (.error "No token received"))
  | some token =>
    match Json.intField json "user_id" with
    | none => p.dispatch (.authProgress (.error "No userId received"))
    | some id =>
      let user : User := { username := P.lowercased username, id, jwtToken := token }
      let p := { p with realm := p.realm.saveUser user }
      p.noteSession.dispatch (.authProgress (.success user))

/-- The `onFailure` callback of both authentication requests. -/
def authFailure (error : RequestError) (p : Process) : Process :=
  let errorMsg := (error.entity.bind fun e => Json.stringField e.jsonDict "error").getD
    error.userMessage
  p.dispatch (.authProgress (.error errorMsg))

/-! ## Posting -/

/-- The `else` branch of the two guards of `createThoughtAction`. -/
def dropPress (press : Nat) (p : Process) : Process :=
  (p.reduce (.fetchThoughts (.error "User is not logged in"))).note
    fun h => { h with dropped := h.dropped ++ [press] }

/-- `if Thought.find(by: by, text: text) == nil` the thought is persisted locally. -/
def persistThought (P : Platform) (v : ThoughtValue) (press : Nat) (p : Process) : Process :=
  if (p.realm.findThought P v.by_ v.text).isNone then
    let saved : Saved := ⟨press, v.text, p.history.session⟩
    { p with
      realm := p.realm.saveThought v
      history := { p.history with saved := p.history.saved ++ [saved] } }
  else p

/-- `createThoughtAction`, run by the press `press` or by a retry of it. -/
def createThoughtAction (P : Platform) (text : String) (press : Nat) (now : Date) (p : Process) :
    Process :=
  let p := p.reduce (.createThought .loading)
  match p.jwtToken with
  | none => p.dropPress press
  | some token =>
    match p.currentUser with
    | none => p.dropPress press
    | some user =>
      (p.persistThought P ⟨user.username, text, now⟩ press).send (.createThought token text) press

/-- `postThoughtPressed`. -/
def postThoughtPressed (P : Platform) (text : String) (now : Date) (p : Process) : Process :=
  let press : Press := ⟨text, p.state.authState.currentUserId⟩
  (p.note fun h => { h with presses := h.presses ++ [press] }).createThoughtAction P text
    p.history.presses.length now

/-- The `onSuccess` callback of a create request. -/
def createSuccess (press : Nat) (p : Process) : Process :=
  (p.reduce (.createThought .success)).note
    fun h => { h with acknowledged := h.acknowledged ++ [press] }

/-- The `onFailure` callback of a create request: schedule a retry of the text. -/
def createFailure (press : Nat) (text : String) (error : RequestError) (p : Process) : Process :=
  let retry : Retry := ⟨press, text⟩
  { p with retries := p.retries ++ [retry] }.reduce (.createThought (.error error.userMessage))

/-! ## Fetching -/

/-- One element of the feed; `none` when one of the forced casts traps. -/
def decodeElement (element : Json) : Option ThoughtValue :=
  match element.asDict? with
  | none => none
  | some json =>
    match Json.stringField json "by", Json.stringField json "text",
      Json.timeIntervalField json "timestamp" with
    | some by_, some text, some timestamp => some ⟨by_, text, timestamp⟩
    | _, _, _ => none

/-- The loop of `fetchThoughtsAction`'s `onSuccess`; `none` when it traps. -/
def mergeElements (P : Platform) : List Json → Realm → Option Realm
  | [], r => some r
  | element :: rest, r =>
    match decodeElement element with
    | none => none
    | some v => mergeElements P rest (r.saveIfAbsent P v)

/-- The `onSuccess` callback of a fetch. -/
def fetchSuccess (P : Platform) (body : Json) (p : Process) : Option Process :=
  (mergeElements P body.jsonArray p.realm).map fun realm =>
    { p with realm }.reduce (.fetchThoughts .success)

/-- The `onFailure` callback of a fetch. -/
def fetchFailure (error : RequestError) (p : Process) : Process :=
  p.reduce (.fetchThoughts (.error error.userMessage))

/-! ## The screen -/

/-- What the observer's sorted query can report: Thoughts of the Realm, newest first.
    They need not be all of them: the `beginWrite` of a save delivers what is ready, so
    a callback that saves several Thoughts can report some of them first. -/
def Reports (p : Process) (results : List Thought) : Prop :=
  (∀ t ∈ results, t ∈ p.realm.thoughts.rows) ∧
    results.Pairwise fun a b => b.timestamp ≤ a.timestamp

instance (p : Process) (results : List Thought) : Decidable (p.Reports results) :=
  inferInstanceAs (Decidable (_ ∧ _))

def setObserver (o : Observer) (p : Process) : Process :=
  { p with screen := { p.screen with observer := o } }

/-- The callback of `startObservingDatabase`. An `.update` is dropped when no user is
    logged in, after Realm has counted it as reported; after an `.error` the callback is
    not called again. -/
def observe (change : Change) (p : Process) : Option Process :=
  match change, p.screen.observer with
  | .initial results, .waiting =>
    if p.Reports results then
      some ((p.setObserver (.observing results)).dispatch (.loadedThoughts (.initial results)))
    else none
  | .update results deletions insertions modifications, .observing old =>
    if p.Reports results ∧ Screen.ValidDiff old results deletions insertions modifications then
      let p := p.setObserver (.observing results)
      some (if p.loggedIn then
        p.dispatch (.loadedThoughts (.update results deletions insertions modifications)) else p)
    else none
  | .error error, .waiting | .error error, .observing _ =>
    some ((p.setObserver .stopped).dispatch (.loadedThoughts (.error error)))
  | _, _ => none

/-- `viewDidAppear`: subscribe, which delivers the current state, and run the observer. -/
def viewDidAppear (p : Process) : Process :=
  { p with screen := { (p.screen.newState p.state.thoughtsState) with
    subscribed := true, observer := .waiting } }

/-- `viewDidDisappear`: unsubscribe and stop the observer. -/
def viewDidDisappear (p : Process) : Process :=
  { p with screen := { p.screen with subscribed := false, observer := .stopped } }

end Process

/-! ## Events -/

/-- The callbacks that can run on the main thread. -/
inductive Event where
  | loginPressed (username password : String)
  | registerPressed (username password : String)
  | logoutSegue
  | postThoughtPressed (text : String) (now : Date)
  | authSucceeded (call : Call) (body : Json)
  | authFailed (call : Call) (error : RequestError)
  | createSucceeded (call : Call)
  | createFailed (call : Call) (error : RequestError)
  | fetchSucceeded (call : Call) (body : Json)
  | fetchFailed (call : Call) (error : RequestError)
  | retryFired (retry : Retry) (now : Date)
  | timerFired
  | notified (change : Change)
  | viewDidLoad
  | layoutTable
  | viewDidAppear
  | viewDidDisappear

namespace Process

/-- A request reports once: it leaves `pending` when its callbacks run. -/
def complete (call : Call) (p : Process) : Process := { p with pending := p.pending.erase call }

/-- One callback; `none` when it cannot run in this state, or ends the process by a trap. -/
def step (P : Platform) (p : Process) : Event → Option Process
  | .loginPressed username password => some (p.loginAction username password)
  | .registerPressed username password => some (p.createUserAction username password)
  | .logoutSegue => some p.logoutAction
  | .postThoughtPressed text now => some (p.postThoughtPressed P text now)
  | .authSucceeded call body =>
    if call ∈ p.pending then
      match call.request with
      | .signUp username _ => some ((p.complete call).authSuccess P body.jsonDict username)
      | .login username _ => some ((p.complete call).authSuccess P body.jsonDict username)
      | _ => none
    else none
  | .authFailed call error =>
    if call ∈ p.pending then
      match call.request with
      | .signUp _ _ => some ((p.complete call).authFailure error)
      | .login _ _ => some ((p.complete call).authFailure error)
      | _ => none
    else none
  | .createSucceeded call =>
    if call ∈ p.pending then
      match call.request with
      | .createThought _ _ => some ((p.complete call).createSuccess call.origin)
      | _ => none
    else none
  | .createFailed call error =>
    if call ∈ p.pending then
      match call.request with
      | .createThought _ text => some ((p.complete call).createFailure call.origin text error)
      | _ => none
    else none
  | .fetchSucceeded call body =>
    if call ∈ p.pending then
      match call.request with
      | .fetchThoughts _ => (p.complete call).fetchSuccess P body
      | _ => none
    else none
  | .fetchFailed call error =>
    if call ∈ p.pending then
      match call.request with
      | .fetchThoughts _ => some ((p.complete call).fetchFailure error)
      | _ => none
    else none
  | .retryFired retry now =>
    if retry ∈ p.retries then
      some ({ p with retries := p.retries.erase retry }.createThoughtAction P retry.text
        retry.press now)
    else none
  | .timerFired => if true ∈ p.timers then some p.fetchThoughtsAction else none
  | .notified change => p.observe change
  -- a new view controller; the store holds the old one weakly
  | .viewDidLoad =>
    some { p with screen := { p.screen with rows := 0, laidOut := false, subscribed := false } }
  | .layoutTable =>
    if p.screen.laidOut then none
    else some { p with screen := p.screen.layout p.state.thoughtsState }
  | .viewDidAppear => if p.screen.laidOut then some p.viewDidAppear else none
  | .viewDidDisappear => some p.viewDidDisappear

/-- A fresh process: `loadAppState`, then the sync service subscribes and runs. -/
def launch (r : Realm) : Process :=
  let p : Process := { realm := r, state := loadAppState r }
  let p := p.syncNewState
  if p.loggedIn then p.startPollingForThoughts else p

end Process

end ReactiveDemo
