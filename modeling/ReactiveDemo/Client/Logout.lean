import ReactiveDemo.Client.Merge
import ReactiveDemo.ForStd.Run

/-!
# What logging out leaves behind

`logoutAction` empties the Realm and resets the state, but cancels nothing. Of the
callbacks that can still run, the thunks for posts and polls and the `.update`
notification look at the login state; the `onSuccess` of a fetch does not. So until
the next login succeeds, everything stays empty iff no fetch delivers an element.

## Key results

- `loggedOut_step`: a step that delivers no element keeps the process empty
- `logout_leaves_nothing_iff`: the exact condition on the callbacks after a logout
-/

namespace ReactiveDemo

open Transition

/-- The elements that an event hands to the loop of `fetchThoughtsAction`. -/
def Event.elements : Event → List Json
  | .fetchSucceeded _ body => body.jsonArray
  | _ => []

/-- A successful authentication response: it carries a token and a user id. -/
def Event.isAuthSuccess : Event → Bool
  | .authSucceeded _ body =>
    (Json.stringField body.jsonDict "auth_token").isSome &&
      (Json.intField body.jsonDict "user_id").isSome
  | _ => false

/-- The events before the first successful authentication response. -/
def untilAuthSuccess (es : List Event) : List Event := es.takeWhile fun e => !e.isAuthSuccess

namespace Process

/-- The Realm holds no User and no Thought, and the store shows no thought. -/
structure LeavesNothing (p : Process) : Prop where
  users : p.realm.users.rows = []
  thoughts : p.realm.thoughts.rows = []
  shown : p.state.thoughtsState.thoughts = []

instance (p : Process) : Decidable p.LeavesNothing :=
  decidable_of_iff (p.realm.users.rows = [] ∧ p.realm.thoughts.rows = [] ∧
    p.state.thoughtsState.thoughts = [])
    ⟨fun ⟨a, b, c⟩ => ⟨a, b, c⟩, fun h => ⟨h.1, h.2, h.3⟩⟩

/-- The process is empty and no user is current. -/
structure LoggedOut (p : Process) : Prop extends LeavesNothing p where
  noUser : p.state.authState.currentUserId = none

theorem loggedOut_logoutAction (p : Process) : p.logoutAction.LoggedOut := by
  constructor
  · constructor <;> simp [logoutAction, noteAuthAct, noteSession, ThoughtsState.thoughts]
  · simp [logoutAction, noteAuthAct, noteSession]

/-- `LoggedOut` reads the Realm, the current user and the shown thoughts only. -/
theorem LoggedOut.congr {p q : Process} (h : p.LoggedOut) (hrealm : q.realm = p.realm)
    (hthoughts : q.state.thoughtsState = p.state.thoughtsState)
    (huser : q.state.authState.currentUserId = p.state.authState.currentUserId) :
    q.LoggedOut := by
  refine ⟨⟨?_, ?_, ?_⟩, ?_⟩
  · rw [hrealm]; exact h.users
  · rw [hrealm]; exact h.thoughts
  · rw [hthoughts]; exact h.shown
  · rw [huser]; exact h.noUser

theorem LoggedOut.currentUser_eq {p : Process} (h : p.LoggedOut) : p.currentUser = none := by
  simp [currentUser, AuthState.currentUser, h.noUser]

theorem LoggedOut.jwtToken_eq {p : Process} (h : p.LoggedOut) : p.jwtToken = none := by
  simpa [jwtToken, AuthState.jwtToken, currentUser] using h.currentUser_eq

theorem LoggedOut.loggedIn_eq {p : Process} (h : p.LoggedOut) : p.loggedIn = false := by
  simpa [loggedIn, AuthState.loggedIn, jwtToken] using h.jwtToken_eq

/-- The guard of `createThoughtAction` holds a post or a retry back. -/
theorem LoggedOut.createThoughtAction {p : Process} (h : p.LoggedOut) (P : Platform)
    (text : String) (press : Nat) (now : Date) :
    (p.createThoughtAction P text press now).LoggedOut := by
  have hnone : p.createThoughtAction P text press now = p.dropPress press := by
    simp only [Process.createThoughtAction, reduce_createThought, h.jwtToken_eq]
  rw [hnone]
  exact h.congr rfl rfl rfl

/-- Without a token and an id the response only sets the error text. -/
theorem LoggedOut.authSuccess {p : Process} (h : p.LoggedOut) (P : Platform) {body : Json}
    (hbody : (Event.authSucceeded call body).isAuthSuccess = false) (username : String) :
    (p.authSuccess P body.jsonDict username).LoggedOut := by
  simp only [Event.isAuthSuccess, Bool.and_eq_false_iff, Option.isSome_eq_false_iff,
    Option.isNone_iff_eq_none] at hbody
  unfold Process.authSuccess
  cases htoken : Json.stringField body.jsonDict "auth_token" with
  | none => exact h.congr (by simp) (by simp) (by simp)
  | some token =>
    cases hid : Json.intField body.jsonDict "user_id" with
    | none => exact h.congr (by simp) (by simp) (by simp)
    | some id => simp [htoken, hid] at hbody

/-- Every notification reports an empty result: the Realm holds no Thought. -/
theorem LoggedOut.observe {p p' : Process} (h : p.LoggedOut) {change : Change}
    (hstep : p.observe change = some p') : p'.LoggedOut := by
  -- a report is of rows of the Realm
  have hempty : ∀ results, p.Reports results → results = [] := by
    intro results hr
    refine List.eq_nil_iff_forall_not_mem.mpr fun t ht => ?_
    have := hr.1 t ht
    rw [h.thoughts] at this
    exact absurd this List.not_mem_nil
  rcases observe_cases hstep with ⟨results, rfl, -, hr, rfl⟩ |
    ⟨old, results, d, i, m, rfl, -, hr, -, rfl⟩ | ⟨error, rfl, -, rfl⟩
  -- an `.initial` brings no Thought into the state
  · obtain rfl := hempty results hr
    exact ⟨⟨by simpa using h.users, by simpa using h.thoughts, by simp [ThoughtsState.thoughts]⟩,
      by simpa using h.noUser⟩
  -- nobody is logged in, so an `.update` is not dispatched
  · rw [h.loggedIn_eq]
    exact h.congr rfl rfl rfl
  -- an error leaves the state without Thoughts
  · exact ⟨⟨by simpa using h.users, by simpa using h.thoughts, by simp [ThoughtsState.thoughts]⟩,
      by simpa using h.noUser⟩

/-- The fetch handler stores a Thought as soon as its response has an element. -/
theorem rows_ne_nil_of_mergeElements {P : Platform} {js : List Json} {r r' : Realm}
    (h : mergeElements P js r = some r') (hjs : js ≠ []) : r'.thoughts.rows ≠ [] := by
  obtain ⟨vs, hvs, rfl⟩ := mergeElements_eq_some.mp h
  obtain ⟨v, hv⟩ : ∃ v, v ∈ vs := by
    cases vs with
    | nil =>
      cases js with
      | nil => exact absurd rfl hjs
      | cons j js => simp [List.mapM_cons, Option.bind_eq_some_iff] at hvs
    | cons v vs => exact ⟨v, List.mem_cons_self⟩
  obtain ⟨t, ht, -⟩ := (Realm.findThought_isSome P).mp (Realm.findThought_mergeValues P hv r)
  exact List.ne_nil_of_mem ht

/-- A step that is no login success and delivers no element keeps the process empty. -/
theorem loggedOut_step {P : Platform} {p p' : Process} {e : Event} (h : p.LoggedOut)
    (hauth : e.isAuthSuccess = false) (helems : e.elements = []) (hstep : p.step P e = some p') :
    p'.LoggedOut := by
  cases e with
  | loginPressed username password =>
    cases hstep
    exact h.congr (by simp [loginAction, noteAuthAct]) (by simp [loginAction, noteAuthAct])
      (by simp [loginAction, noteAuthAct])
  | registerPressed username password =>
    cases hstep
    exact h.congr (by simp [createUserAction, noteAuthAct]) (by simp [createUserAction, noteAuthAct])
      (by simp [createUserAction, noteAuthAct])
  | logoutSegue =>
    cases hstep
    exact loggedOut_logoutAction p
  | postThoughtPressed text now =>
    cases hstep
    -- nobody is logged in, so the press is dropped
    refine LoggedOut.createThoughtAction ?_ P text _ now
    exact h.congr rfl rfl rfl
  | authSucceeded call body =>
    obtain ⟨-, username, -, rfl⟩ := step_authSucceeded.mp hstep
    -- without a token or an id the response only reports an error
    refine LoggedOut.authSuccess ?_ P hauth username
    exact h.congr rfl rfl rfl
  | authFailed call error =>
    obtain ⟨-, -, rfl⟩ := step_authFailed.mp hstep
    exact h.congr (by simp [authFailure]) (by simp [authFailure]) (by simp [authFailure])
  | fetchSucceeded call body =>
    obtain ⟨-, -, realm, hmerge, rfl⟩ := step_fetchSucceeded.mp hstep
    -- a feed without elements stores nothing
    simp only [Event.elements] at helems
    rw [helems, mergeElements, Option.some.injEq] at hmerge
    exact h.congr hmerge.symm rfl rfl
  | retryFired retry now =>
    simp only [step, Option.ite_none_right_eq_some, Option.some.injEq] at hstep
    obtain ⟨-, rfl⟩ := hstep
    refine LoggedOut.createThoughtAction ?_ P retry.text retry.press now
    exact h.congr rfl rfl rfl
  | notified change => exact h.observe hstep
  | _ =>
    have hidle := idle_step rfl hstep
    exact h.congr hidle.realm (by rw [hidle.state]) (by rw [hidle.state])

/-- In a logged-out process a step leads to an empty one iff it delivers no element. -/
theorem leavesNothing_step_iff {P : Platform} {p : Process} {e : Event} (h : p.LoggedOut)
    (hauth : e.isAuthSuccess = false) :
    (∀ p', p.step P e = some p' → p'.LeavesNothing) ↔ ((p.step P e).isSome → e.elements = []) := by
  constructor
  · intro hempty hsome
    obtain ⟨p', hstep⟩ := Option.isSome_iff_exists.mp hsome
    by_contra helems
    cases e with
    | fetchSucceeded call body =>
      have hp' := hempty p' hstep
      obtain ⟨-, -, realm, hmerge, rfl⟩ := step_fetchSucceeded.mp hstep
      exact rows_ne_nil_of_mergeElements hmerge helems hp'.thoughts
    | _ => exact helems rfl
  · intro helems p' hstep
    exact (loggedOut_step h hauth (helems (by rw [hstep]; rfl)) hstep).toLeavesNothing

/-- After a logout and until the next login succeeds, everything stays empty iff no
    fetch response with an element is processed. -/
theorem logout_leaves_nothing_iff (P : Platform) (p : Process) (es : List Event) :
    Always (step P) LeavesNothing p.logoutAction (untilAuthSuccess es) ↔
      Along (step P) (fun q e => (q.step P e).isSome → e.elements = []) p.logoutAction
        (untilAuthSuccess es) := by
  rw [always_iff_along, and_iff_right (loggedOut_logoutAction p).toLeavesNothing]
  have hout := loggedOut_logoutAction p
  have hauth : ∀ e ∈ untilAuthSuccess es, e.isAuthSuccess = false := fun e he => by
    simpa using List.mem_takeWhile_imp he
  -- the state before each event is logged out
  exact along_congr_of_mem (I := LoggedOut) (fun q e he hq => leavesNothing_step_iff hq (hauth e he))
    (fun q q' e he hq helems hstep =>
      loggedOut_step hq (hauth e he) (helems (by rw [hstep]; rfl)) hstep) hout

/-- A poll is outstanding when the user logs out; its response is stored all the same. -/
def pollBeforeLogout : List Event :=
  [.loginPressed "ann" "secret",
   .authSucceeded ⟨0, .login "ann" "secret", 1⟩
    (.obj [("auth_token", .str "token"), ("user_id", .num 1)])]

/-- The response of the poll that the login has started. -/
def lateFeed : List Event :=
  [.fetchSucceeded ⟨1, .fetchThoughts "token", 0⟩
    (.arr [.obj [("text", .str "hi"), ("by", .str "bob"), ("timestamp", .num 0)]])]

/-- Not every run leaves the Realm empty from a logout to the next login. -/
theorem late_feed_survives_logout :
    ¬ ∀ (P : Platform) (r : Realm) (before after : List Event) (p : Process),
      run (step P) (launch r) before = some p →
      Always (step P) LeavesNothing p.logoutAction (untilAuthSuccess after) := by
  intro h
  obtain ⟨p, hrun, hp⟩ := exists_run_of_any (step .ascii) (launch .new) pollBeforeLogout
    (fun p => (run (step .ascii) p.logoutAction lateFeed).any fun q : Process =>
      decide (¬ q.LeavesNothing))
    (by decide +kernel)
  rw [Option.any_eq_true] at hp
  obtain ⟨q, hq, hne⟩ := hp
  exact of_decide_eq_true hne
    (h .ascii .new pollBeforeLogout lateFeed p hrun lateFeed q (List.prefix_refl _) hq)

end Process

end ReactiveDemo
