import ReactiveDemo.Client.Posts
import ReactiveDemo.Client.Logout
import ReactiveDemo.Client.StaleAuth

/-!
# Session, database and polling timer

`loggedIn()` reads two stores: the current id in the state, and the users in the Realm. The
sync service is notified of new states only, and starts or stops its timer then. We show
that the three stay in step, and when a relaunch on the Realm finds the same session.

## Key results

- `consistent_step`: the current user is stored, and without one nobody is
- `followed_step`: a step that changes the current id runs the sync service
- `session_in_step`: session, Realm and timer agree in every state of a run
- `relaunch_resumes_iff`: when `loadAppState` gives the current user of the running store
-/

namespace ReactiveDemo

open Transition

/-- A current user is stored, and without one nobody is. -/
structure Session.Consistent (s : Session) : Prop where
  noUser_iff : s.currentUserId = none ↔ s.users.rows = []
  current : ∀ id, s.currentUserId = some id → (s.users.find id).isSome

namespace Process

/-! ## Session and Realm -/

variable {P : Platform} {p p' : Process} {e : Event}

/-- The session that a response with a token and an id starts. -/
theorem consistent_upsert (users : KeyedTable User User.id) (u : User) :
    Session.Consistent ⟨some u.id, users.upsert u⟩ := by
  have hmem : u ∈ (users.upsert u).rows := KeyedTable.mem_upsert.mpr (Or.inl rfl)
  refine ⟨?_, ?_⟩
  · constructor
    · intro hnone
      cases hnone
    · intro hnil
      rw [hnil] at hmem
      cases hmem
  · intro id hid
    rw [← Option.some.inj hid, KeyedTable.find_upsert_self]
    rfl

/-- Every step keeps the session consistent. -/
theorem consistent_step (hs : p.session.Consistent) (h : p.step P e = some p') :
    p'.session.Consistent := by
  rcases session_step h with ⟨-, hsession⟩ | ⟨-, -, hsession⟩ |
    ⟨-, call, body, username, token, id, -, -, -, -, -, hsession⟩
  · rw [hsession]
    exact hs
  · -- a logout leaves neither an id nor a user
    rw [hsession]
    exact ⟨by simp, fun id hid => by cases hid⟩
  · rw [hsession]
    exact consistent_upsert p.realm.users { username := P.lowercased username, id, jwtToken := token }

/-- `loadAppState` makes the first stored user the current one. -/
theorem consistent_launch (r : Realm) : (launch r).session.Consistent := by
  have hpolled := launch_polled r
  have hsession : (launch r).session = ⟨r.users.rows.head?.map User.id, r.users⟩ := by
    simp only [session, hpolled.state, hpolled.realm, loadAppState]
  rw [hsession]
  refine ⟨by simp, ?_⟩
  intro id hid
  obtain ⟨u, hu, rfl⟩ := Option.map_eq_some_iff.mp hid
  have hmem : u ∈ r.users.rows := List.mem_of_mem_head? hu
  rw [KeyedTable.find_eq_some.mpr ⟨hmem, rfl⟩]
  rfl

/-- In a consistent session somebody is logged in iff there is a current id. -/
theorem loggedIn_eq_isSome (hs : p.session.Consistent) :
    p.loggedIn = p.state.authState.currentUserId.isSome := by
  rw [Bool.eq_iff_iff, loggedIn_iff]
  constructor
  · rintro ⟨user, huser⟩
    rw [(mem_of_currentUser huser).2]
    rfl
  · intro hsome
    obtain ⟨id, hid⟩ := Option.isSome_iff_exists.mp hsome
    obtain ⟨user, huser⟩ := Option.isSome_iff_exists.mp (hs.current id hid)
    refine ⟨user, ?_⟩
    rw [currentUser, AuthState.currentUser, hid]
    exact huser

/-! ## The timer -/

/-- The latest timer is valid iff somebody is logged in, and the earlier ones are not. -/
structure TimersFollow (loggedIn : Bool) (timers : List Bool) : Prop where
  latest : timers.head? = some true ↔ loggedIn = true
  earlier : ∀ valid ∈ timers.tail, valid = false

/-- Then there is one valid timer, or none. -/
theorem TimersFollow.count_eq {loggedIn : Bool} {timers : List Bool}
    (h : TimersFollow loggedIn timers) :
    timers.count true = if loggedIn then 1 else 0 := by
  cases timers with
  | nil =>
    have hout : loggedIn = false := by simpa using h.latest
    rw [hout]
    rfl
  | cons latest earlier =>
    -- all timers but the latest are invalid
    have hnone : earlier.count true = 0 := by
      rw [List.count_eq_zero]
      intro hmem
      cases h.earlier true hmem
    have hlatest : latest = loggedIn := by
      rw [Bool.eq_iff_iff]
      simpa using h.latest
    rw [List.count_cons, hnone, hlatest]
    cases loggedIn <;> rfl

/-- The sync service puts the timers right, whatever the latest one was. -/
theorem timersFollow_syncNewState (h : ∀ valid ∈ p.timers.tail, valid = false) :
    TimersFollow p.loggedIn p.syncNewState.timers := by
  unfold syncNewState
  cases hin : p.loggedIn with
  | true =>
    rw [if_pos rfl]
    unfold startPollingForThoughts
    split
    · -- the latest timer goes on
      rename_i hvalid
      exact ⟨by simp [hvalid], h⟩
    · -- a new one is scheduled, and fires at once
      rename_i hinvalid
      have htimers : (fetchThoughtsAction { p with timers := true :: p.timers }).timers =
          true :: p.timers := by
        rw [fetchThoughtsAction_eq]
        split <;> rfl
      rw [htimers]
      refine ⟨by simp, ?_⟩
      -- the timer that was the latest is not valid
      intro valid hmem
      cases htimers : p.timers with
      | nil =>
        rw [List.tail_cons, htimers] at hmem
        cases hmem
      | cons latest earlier =>
        rw [htimers] at h hinvalid
        rw [List.tail_cons, htimers] at hmem
        rcases List.mem_cons.mp hmem with rfl | hmem
        · simpa using hinvalid
        · exact h valid hmem
  | false =>
    -- only the latest one can be valid, and it is invalidated
    rw [if_neg (by simp)]
    unfold invalidateTimer
    cases htimers : p.timers with
    | nil => exact ⟨by simp, by simp⟩
    | cons latest earlier =>
      rw [htimers] at h
      exact ⟨by simp, h⟩

/-- From `p` to `p'` the current id and the timers stay as they are, or the sync service has
    run on the session of `p'`. -/
def Followed (p p' : Process) : Prop :=
  (p'.timers = p.timers ∧
    p'.state.authState.currentUserId = p.state.authState.currentUserId) ∨
  ∃ q : Process, q.timers = p.timers ∧ q.session = p'.session ∧ p'.timers = q.syncNewState.timers

/-- States that `==` takes for the same have the same current id. -/
theorem currentUserId_eq_of_beq {s t : AppState} (h : (s == t) = true) :
    s.authState.currentUserId = t.authState.currentUserId := by
  have hauth : (s.authState == t.authState && s.thoughtsState == t.thoughtsState) = true := h
  rw [Bool.and_eq_true, beq_iff_eq] at hauth
  rw [hauth.1]

/-- A dispatch runs the sync service, or leaves the current id as it is. -/
theorem dispatch_followed {q : Process} (htimers : q.timers = p.timers)
    (hid : q.state.authState.currentUserId = p.state.authState.currentUserId) (a : Action) :
    Followed p (q.dispatch a) := by
  -- the screen has no part in the timers
  have hdispatch : (q.dispatch a).timers = ((q.reduce a).notifySync q.state).timers := by
    rw [dispatch, notifyScreen_eq]
  by_cases hsame : (mainReducer a (some q.state) == q.state) = true
  · -- a repeated state is not passed on, and has the same id
    left
    have hskip : (q.reduce a).notifySync q.state = q.reduce a := if_pos hsame
    rw [hdispatch, hskip, dispatch_state, currentUserId_eq_of_beq hsame, hid]
    exact ⟨htimers, rfl⟩
  -- any other state is passed on, and the sync service goes by it
  · right
    have hrun : (q.reduce a).notifySync q.state = (q.reduce a).syncNewState := if_neg hsame
    refine ⟨q.reduce a, htimers, ?_, by rw [hdispatch, hrun]⟩
    simp only [session, dispatch_state, dispatch_realm]
    rfl

/-- `createThoughtAction` dispatches nothing that changes the state. -/
theorem createThoughtAction_followed (P : Platform) (text : String) (press : Nat) (now : Date)
    (p : Process) : Followed p (p.createThoughtAction P text press now) := by
  left
  have hposting := createThoughtAction_posting P text press now p
  exact ⟨hposting.timers, congrArg Session.currentUserId hposting.session_eq⟩

/-- A step that changes the current id runs the sync service. -/
theorem followed_step (h : p.step P e = some p') : Followed p p' := by
  cases e with
  | loginPressed username password =>
    cases h
    exact dispatch_followed (p := p) (q := p.noteAuthAct) rfl rfl _
  | registerPressed username password =>
    cases h
    exact dispatch_followed (p := p) (q := p.noteAuthAct) rfl rfl _
  | logoutSegue =>
    -- the Realm is emptied before the dispatch
    cases h
    exact dispatch_followed rfl rfl _
  | postThoughtPressed text now =>
    cases h
    exact createThoughtAction_followed P text p.history.presses.length now (p.addPress text)
  -- whichever of its three dispatches it ends with
  | authSucceeded call body =>
    obtain ⟨-, username, -, rfl⟩ := step_authSucceeded.mp h
    unfold authSuccess
    split
    · exact dispatch_followed rfl rfl _
    · split
      · exact dispatch_followed rfl rfl _
      · exact dispatch_followed rfl rfl _
  | authFailed call error =>
    obtain ⟨-, -, rfl⟩ := step_authFailed.mp h
    exact dispatch_followed rfl rfl _
  | fetchSucceeded call body =>
    obtain ⟨-, -, realm, -, rfl⟩ := step_fetchSucceeded.mp h
    -- a fetched feed changes no state
    exact Or.inl ⟨rfl, rfl⟩
  | retryFired retry now =>
    simp only [step, Option.ite_none_right_eq_some, Option.some.injEq] at h
    obtain ⟨-, rfl⟩ := h
    exact createThoughtAction_followed P retry.text retry.press now
      { p with retries := p.retries.erase retry }
  | notified change =>
    rcases observe_cases h with ⟨results, -, -, -, rfl⟩ |
      ⟨old, results, d, i, m, -, -, -, -, rfl⟩ | ⟨error, -, -, rfl⟩
    · exact dispatch_followed rfl rfl _
    · split
      · exact dispatch_followed rfl rfl _
      -- nobody is logged in: it is not dispatched
      · exact Or.inl ⟨rfl, rfl⟩
    · exact dispatch_followed rfl rfl _
  | _ =>
    have hidle := idle_step rfl h
    exact Or.inl ⟨hidle.timers, by rw [hidle.state]⟩

/-- Where the timers follow the session, they follow the next one. -/
theorem timers_step (hs : p.session.Consistent) (ht : TimersFollow p.loggedIn p.timers)
    (h : p.step P e = some p') : TimersFollow p'.loggedIn p'.timers := by
  rcases followed_step h with ⟨htimers, hid⟩ | ⟨q, hq, hsession, htimers⟩
  · -- with the same id somebody is logged in iff somebody was
    have hin : p'.loggedIn = p.loggedIn := by
      rw [loggedIn_eq_isSome (consistent_step hs h), loggedIn_eq_isSome hs, hid]
    rw [htimers, hin]
    exact ht
  · -- the sync service has looked at the new session
    have hin : p'.loggedIn = q.loggedIn := by
      rw [Bool.eq_iff_iff, loggedIn_iff, loggedIn_iff, currentUser_eq_of_session hsession]
    rw [htimers, hin]
    exact timersFollow_syncNewState (by rw [hq]; exact ht.earlier)

/-- The sync service is notified at launch, and its `run` finds a timer already. -/
theorem timers_launch (r : Realm) : TimersFollow (launch r).loggedIn (launch r).timers := by
  have hpolled := syncNewState_polled { realm := r, state := loadAppState r }
  -- subscribing hands the sync service the loaded state
  have hsync : TimersFollow _ (syncNewState { realm := r, state := loadAppState r }).timers :=
    timersFollow_syncNewState (by simp)
  have hin : (syncNewState { realm := r, state := loadAppState r }).loggedIn =
      loggedIn { realm := r, state := loadAppState r } := by
    simp only [loggedIn, hpolled.state, hpolled.realm]
  rw [← hin] at hsync
  -- so the timer is there when `run` looks, and polling is not started twice
  have hlaunch : launch r = syncNewState { realm := r, state := loadAppState r } := by
    simp only [launch]
    split
    · rename_i hlogged
      rw [startPollingForThoughts, if_pos (hsync.latest.mpr hlogged)]
    · rfl
  rw [hlaunch]
  exact hsync

/-! ## In step -/

/-- Session, Realm and polling timer agree. -/
structure SessionInStep (p : Process) : Prop where
  noUser_iff : p.state.authState.currentUserId = none ↔ p.realm.users.rows = []
  current : ∀ id, p.state.authState.currentUserId = some id → (p.realm.findUser id).isSome
  timers : p.timers.count true = if p.loggedIn then 1 else 0

/-- The session changes at a logout, or by a response with a token and an id. -/
def GuardsSession (P : Platform) (p : Process) (e : Event) : Prop :=
  ∀ p', p.step P e = some p' → p'.session ≠ p.session →
    e = .logoutSegue ∨ e.isAuthSuccess = true

theorem guardsSession (P : Platform) (p : Process) (e : Event) : GuardsSession P p e := by
  intro p' h hne
  rcases session_step h with ⟨-, hsession⟩ | ⟨-, rfl, -⟩ |
    ⟨-, call, body, username, token, id, rfl, -, -, htoken, hid, -⟩
  · exact absurd hsession hne
  · exact Or.inl rfl
  · right
    simp [Event.isAuthSuccess, htoken, hid]

/-- In every state of every run session, Realm and polling timer agree, and nothing but a
    logout or a response with a token and an id changes the session. -/
theorem session_in_step (P : Platform) (r : Realm) (es : List Event) :
    Always (step P) SessionInStep (launch r) es ∧ Along (step P) (GuardsSession P) (launch r) es := by
  constructor
  · intro pre p _ hrun
    have hinv : p.session.Consistent ∧ TimersFollow p.loggedIn p.timers :=
      run_invariant (I := fun p => p.session.Consistent ∧ TimersFollow p.loggedIn p.timers)
        (fun _ _ _ ⟨hs, ht⟩ h => ⟨consistent_step hs h, timers_step hs ht h⟩)
        ⟨consistent_launch r, timers_launch r⟩ hrun
    exact ⟨hinv.1.noUser_iff, hinv.1.current, hinv.2.count_eq⟩
  · rw [along_iff]
    intro _ e _ p _ _
    exact guardsSession P p e

/-! ## Relaunch -/

/-- `loadAppState` on the Realm gives the current user of the running store. -/
def Resumes (p : Process) : Prop :=
  (loadAppState p.realm).authState.currentUserId = p.state.authState.currentUserId

instance (p : Process) : Decidable p.Resumes := inferInstanceAs (Decidable (_ = _))

/-- A response with a token and an id names the first stored user, if there is one. -/
def NamesFirstUser (p : Process) : Event → Prop
  | .authSucceeded call body => call ∈ p.pending → (username? call.request).isSome →
    ∀ token id, Json.stringField body.jsonDict "auth_token" = some token →
      Json.intField body.jsonDict "user_id" = some id →
      ∀ user, p.realm.users.rows.head? = some user → user.id = id
  | _ => True

/-- Whether a relaunch resumes the session is a matter of the session. -/
theorem resumes_iff {s : Session} (h : p.session = s) :
    p.Resumes ↔ s.users.rows.head?.map User.id = s.currentUserId := by
  rw [← h]
  rfl

/-- A step leads to a session that a relaunch resumes iff the response it processes, if it
    starts a session, names the first stored user. -/
theorem resumes_step_iff (hp : p.Resumes) :
    (∀ p', p.step P e = some p' → p'.Resumes) ↔ p.NamesFirstUser e := by
  constructor
  · intro hstep
    cases e with
    | authSucceeded call body =>
      -- an upsert leaves the first user where it is
      intro hmem hname token id htoken hid user huser
      obtain ⟨username, husername⟩ := Option.isSome_iff_exists.mp hname
      have hp' := hstep _ (step_authSucceeded.mpr ⟨hmem, username, husername, rfl⟩)
      rw [resumes_iff (authSuccess_session P _ _ _), htoken, hid] at hp'
      have hhead : (p.realm.users.rows.head?.map User.id).getD id = id :=
        Option.some.inj ((KeyedTable.head?_upsert _ _).symm.trans hp')
      rw [huser] at hhead
      exact hhead
    -- no other event names a user
    | _ => trivial
  · intro hfirst p' h
    rcases session_step h with ⟨-, hsession⟩ | ⟨-, -, hsession⟩ |
      ⟨-, call, body, username, token, id, rfl, hmem, husername, htoken, hid, hsession⟩
    -- the session stays
    · rw [resumes_iff hsession]
      exact hp
    -- it ends, and no user is stored
    · rw [resumes_iff hsession]
      rfl
    -- it begins with the user of the response, stored first if there was none
    · rw [resumes_iff hsession, KeyedTable.head?_upsert]
      cases hhead : p.realm.users.rows.head? with
      | none => rfl
      | some user =>
        have hname : (username? call.request).isSome := by
          rw [husername]
          rfl
        rw [Option.map_some, Option.getD_some, hfirst hmem hname token id htoken hid user hhead]

/-- A relaunch resumes the session in every state of a run iff every response that starts a
    session finds no user stored, or names the first one. -/
theorem relaunch_resumes_iff (P : Platform) (r : Realm) (es : List Event) :
    Always (step P) Resumes (launch r) es ↔
      Along (step P) NamesFirstUser (launch r) es := by
  have hlaunch : (launch r).Resumes := by
    have hpolled := launch_polled r
    rw [Resumes, hpolled.state, hpolled.realm]
  rw [always_iff_along, and_iff_right hlaunch]
  exact along_congr (I := Resumes) (fun p e hp => resumes_step_iff hp)
    (fun p e p' hp hfirst h => (resumes_step_iff hp).mpr hfirst p' h) hlaunch

/-- ann and bob log in one after the other, and nobody logs out in between. -/
def overlappingLogins : List Event :=
  [.loginPressed "ann" "secret", .loginPressed "bob" "hunter2",
   .authSucceeded ⟨0, .login "ann" "secret", 1⟩
    (.obj [("auth_token", .str "a"), ("user_id", .num 1)]),
   .authSucceeded ⟨1, .login "bob" "hunter2", 2⟩
    (.obj [("auth_token", .str "b"), ("user_id", .num 2)])]

/-- Not every run from an empty Realm stays in sessions that a relaunch resumes: bob is
    logged in, and a relaunch logs ann in. -/
theorem relaunch_changes_user :
    ¬ ∀ (P : Platform) (es : List Event), Always (step P) Resumes (launch .new) es := by
  intro h
  obtain ⟨p, hrun, hp⟩ := exists_run_of_any (step .ascii) (launch .new) overlappingLogins
    (fun p => decide (¬ p.Resumes)) (by decide +kernel)
  exact of_decide_eq_true hp (h .ascii _ _ p (List.prefix_refl _) hrun)

end Process

end ReactiveDemo
