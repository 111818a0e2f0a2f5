import ReactiveDemo.Client.Realm

/-!
# State, actions and reducers

`Redux/State`, `Redux/Actions` and `Redux/Reducrs`. The state structs are `Equatable`:
`==` on a `LoadedThoughtsPayload` is the function the enum declares, and two Thoughts
are equal when they are the same Realm object, that is, have the same primary key.
-/

namespace ReactiveDemo

structure AuthState where
  loading : Bool := false
  authError : Option String := none
  currentUserId : Option Int := none
deriving DecidableEq, Repr

/-- `LoadedThoughtsPayload`; an `Error` is its `localizedDescription`. -/
inductive LoadedThoughtsPayload where
  | initial (thoughts : List Thought)
  | update (thoughts : List Thought) (deletions insertions modifications : List Nat)
  | error (error : String)
deriving Repr

namespace LoadedThoughtsPayload

/-- `t1.elementsEqual(t2)` on Realm objects. -/
def sameThoughts (t1 t2 : List Thought) : Bool := t1.isEqv t2 fun a b => a.id == b.id

/-- The `==` that the enum declares. -/
def eq : LoadedThoughtsPayload → LoadedThoughtsPayload → Bool
  | .initial t1, .initial t2 => sameThoughts t1 t2
  | .update t1 d1 i1 m1, .update t2 d2 i2 m2 =>
    sameThoughts t1 t2 && d1 == d2 && i1 == i2 && m1 == m2
  | .error e1, .error e2 => e1 == e2
  | _, _ => false

instance : BEq LoadedThoughtsPayload := ⟨eq⟩

end LoadedThoughtsPayload

structure ThoughtsState where
  lastError : Option String := none
  loadedThoughtsPayload : Option LoadedThoughtsPayload := none
deriving BEq, Repr

structure AppState where
  authState : AuthState := {}
  thoughtsState : ThoughtsState := {}
deriving BEq, Repr

namespace AuthState

/-- `currentUser()` looks the current id up in the Realm. -/
def currentUser (s : AuthState) (r : Realm) : Option User := s.currentUserId.bind r.findUser

def jwtToken (s : AuthState) (r : Realm) : Option String := (s.currentUser r).map User.jwtToken

def loggedIn (s : AuthState) (r : Realm) : Bool := (s.jwtToken r).isSome

end AuthState

/-- `thoughts()`: what the table view shows. -/
def ThoughtsState.thoughts (s : ThoughtsState) : List Thought :=
  match s.loadedThoughtsPayload with
  | some (.initial thoughts) => thoughts
  | some (.update thoughts _ _ _) => thoughts
  | _ => []

inductive AuthProgressPayload where
  | error (msg : String)
  | success (user : User)
  | loading
  | logout

inductive ThoughtsRequestPayload where
  | loading
  | error (msg : String)
  | success

/-- The actions that reach the reducers; `other` stands for every other `Action` type. -/
inductive Action where
  | authProgress (payload : AuthProgressPayload)
  | fetchThoughts (payload : ThoughtsRequestPayload)
  | createThought (payload : ThoughtsRequestPayload)
  | loadedThoughts (payload : LoadedThoughtsPayload)
  | other

/-- `AuthProgress.isLogout`. -/
def isLogout : Action → Bool
  | .authProgress .logout => true
  | _ => false

def authProgressReducer (payload : AuthProgressPayload) (state : Option AppState) : AuthState :=
  let oldAuthState := (state.map AppState.authState).getD {}
  let newAuthState : AuthState := { currentUserId := oldAuthState.currentUserId }
  match payload with
  | .error msg => { newAuthState with authError := some msg }
  | .success user => { newAuthState with currentUserId := some user.id }
  | .loading => { newAuthState with loading := true }
  -- all info is cleared
  | .logout => {}

def authReducer (action : Action) (state : Option AppState) : AuthState :=
  match action with
  | .authProgress payload => authProgressReducer payload state
  | _ => (state.map AppState.authState).getD {}

/-- The three request states only print; the state is passed on. -/
def thoughtsRequestActionReducer (_payload : ThoughtsRequestPayload) (state : Option AppState) :
    ThoughtsState :=
  (state.map AppState.thoughtsState).getD {}

def thoughtsReducer (action : Action) (state : Option AppState) : ThoughtsState :=
  match action with
  | .fetchThoughts payload => thoughtsRequestActionReducer payload state
  | .createThought payload => thoughtsRequestActionReducer payload state
  | .loadedThoughts payload => { loadedThoughtsPayload := some payload }
  | _ => (state.map AppState.thoughtsState).getD {}

def mainReducer (action : Action) (state : Option AppState) : AppState :=
  if isLogout action then {}
  else { authState := authReducer action state, thoughtsState := thoughtsReducer action state }

/-- `loadAppState`: the first saved user, if any, is the current user. -/
def loadAppState (r : Realm) : AppState :=
  { authState := { currentUserId := r.users.rows.head?.map User.id } }

/-! ## Equality of states -/

theorem LoadedThoughtsPayload.sameThoughts_refl (ts : List Thought) :
    sameThoughts ts ts = true := by
  induction ts with
  | nil => rfl
  | cons t ts ih => simpa [sameThoughts, List.isEqv] using ih

instance : ReflBEq LoadedThoughtsPayload where
  rfl {a} := by
    change LoadedThoughtsPayload.eq a a = true
    cases a <;> simp [LoadedThoughtsPayload.eq, LoadedThoughtsPayload.sameThoughts_refl]

end ReactiveDemo
