import ReactiveDemo.Client.Frame
import ReactiveDemo.ForStd.Run

/-!
# Late authentication responses

The callbacks of a login or registration carry no generation check. A response is
*stale* when another login, registration or logout was dispatched after its request
was issued. We characterise the stale responses that change the session: exactly the
successes with a token and a user id, unless they repeat the stored session.

## Key results

- `authSuccess_session`: what a success response does to the session
- `responses_fresh_iff`: along a run no stale response changes the session iff every
  stale success with token and id repeats the session that is there
-/

namespace ReactiveDemo

open Transition

/-- The request whose response an event processes, when it is an authentication. -/
def Event.authCall : Event → Option Call
  | .authSucceeded call _ => some call
  | .authFailed call _ => some call
  | _ => none

namespace Process

/-- A later login, registration or logout has been dispatched. -/
def Stale (p : Process) (call : Call) : Prop := call.origin < p.history.authActs

instance (p : Process) (call : Call) : Decidable (p.Stale call) := Nat.decLt _ _

/-- If the event is the response to an authentication request and changes the session,
    the request is not stale. -/
def FreshResponse (P : Platform) (p : Process) (e : Event) : Prop :=
  ∀ call p', e.authCall = some call → p.step P e = some p' → p'.session ≠ p.session →
    ¬ p.Stale call

/-- A stale success response with a token and an id repeats the session: its user is
    the current user and is stored with the same name and token. -/
def HarmlessResponse (P : Platform) (p : Process) : Event → Prop
  | .authSucceeded call body => call ∈ p.pending → p.Stale call →
    ∀ username token id, username? call.request = some username →
      Json.stringField body.jsonDict "auth_token" = some token →
      Json.intField body.jsonDict "user_id" = some id →
      p.state.authState.currentUserId = some id ∧
        p.realm.findUser id = some { username := P.lowercased username, id, jwtToken := token }
  | _ => True

/-- What `authSuccess` does to the session. -/
theorem authSuccess_session (P : Platform) (json : List (String × Json)) (username : String)
    (p : Process) :
    (p.authSuccess P json username).session =
      match Json.stringField json "auth_token", Json.intField json "user_id" with
      | some token, some id => ⟨some id, p.realm.users.upsert
          { username := P.lowercased username, id, jwtToken := token }⟩
      | _, _ => p.session := by
  unfold authSuccess
  cases Json.stringField json "auth_token" with
  | none => simp [session]
  | some token =>
    cases Json.intField json "user_id" with
    | none => simp [session]
    | some id => simp [session, noteSession]

/-- A failure response reports its error and leaves the session alone. -/
theorem authFailure_session (error : RequestError) (p : Process) :
    (p.authFailure error).session = p.session := by
  simp [authFailure, session]

/-- Saving a user leaves the stored users as they are iff that very user is stored. -/
theorem upsert_eq_self_iff {t : KeyedTable User User.id} {u : User} :
    t.upsert u = t ↔ t.find u.id = some u := by
  constructor
  · intro h
    rw [← h, KeyedTable.find_upsert_self]
  · intro h
    exact KeyedTable.upsert_of_mem (KeyedTable.find_eq_some.mp h).1

/-- A success response leaves the session as it is iff it lacks the token or the id,
    or repeats the session. -/
theorem authSuccess_session_eq_iff (P : Platform) (json : List (String × Json))
    (username : String) (p : Process) :
    (p.authSuccess P json username).session = p.session ↔
      ∀ token id, Json.stringField json "auth_token" = some token →
        Json.intField json "user_id" = some id →
        p.state.authState.currentUserId = some id ∧
          p.realm.findUser id = some { username := P.lowercased username, id, jwtToken := token } := by
  rw [authSuccess_session]
  cases Json.stringField json "auth_token" with
  | none => simp
  | some token =>
    cases Json.intField json "user_id" with
    | none => simp
    | some id =>
      -- the id must be current, and `save` must find the User as it is
      simp only [session, Session.mk.injEq, upsert_eq_self_iff, Option.some.injEq]
      constructor
      · rintro ⟨hid, hfind⟩ _ _ rfl rfl
        exact ⟨hid.symm, hfind⟩
      · intro h
        obtain ⟨hid, hfind⟩ := h token id rfl rfl
        exact ⟨hid.symm, hfind⟩

/-- One step: the response is fresh or changes nothing iff it is harmless. -/
theorem freshResponse_iff (P : Platform) (p : Process) (e : Event) :
    FreshResponse P p e ↔ HarmlessResponse P p e := by
  cases e with
  | authSucceeded call body =>
    simp only [FreshResponse, HarmlessResponse, Event.authCall, Option.some.injEq,
      step_authSucceeded]
    constructor
    · intro h hmem hstale username token id huser htoken hid
      by_contra hne
      refine h call _ rfl ⟨hmem, username, huser, rfl⟩ (fun heq => hne ?_) hstale
      exact (authSuccess_session_eq_iff P _ username (p.complete call)).mp heq token id htoken hid
    · rintro h _ p' rfl ⟨hmem, username, huser, rfl⟩ hne hstale
      refine hne ((authSuccess_session_eq_iff P _ username (p.complete call)).mpr ?_)
      intro token id htoken hid
      exact h hmem hstale username token id huser htoken hid
  | authFailed call error =>
    simp only [FreshResponse, HarmlessResponse, Event.authCall, Option.some.injEq, step_authFailed,
      iff_true]
    rintro _ p' rfl ⟨-, -, rfl⟩ hne
    -- a failure only reports an error
    exact absurd (authFailure_session error (p.complete call)) hne
  | _ => simp [FreshResponse, HarmlessResponse, Event.authCall]

/-- Along a run no stale response changes the session iff every stale success response
    with a token and an id repeats the session it meets. -/
theorem responses_fresh_iff (P : Platform) (r : Realm) (es : List Event) :
    Along (step P) (FreshResponse P) (launch r) es ↔
      Along (step P) (HarmlessResponse P) (launch r) es :=
  along_congr (I := fun _ => True) (fun p e _ => freshResponse_iff P p e)
    (fun _ _ _ _ _ _ => trivial) trivial

/-- ann presses Login twice. The first response opens the thoughts screen, where she logs out;
    the second one then logs her in again. -/
def loginAfterLogout : List Event :=
  [.loginPressed "ann" "secret", .loginPressed "ann" "secret",
   .authSucceeded ⟨0, .login "ann" "secret", 1⟩
    (.obj [("auth_token", .str "first"), ("user_id", .num 1)]),
   .viewDidLoad, .layoutTable, .viewDidAppear, .logoutSegue, .viewDidDisappear,
   .authSucceeded ⟨1, .login "ann" "secret", 2⟩
    (.obj [("auth_token", .str "second"), ("user_id", .num 1)])]

/-- Not every run keeps the session from stale responses. -/
theorem stale_response_logs_in :
    ¬ ∀ (P : Platform) (r : Realm) (es : List Event),
      Along (step P) (FreshResponse P) (launch r) es := by
  intro h
  obtain ⟨t, hrun, ht⟩ := exists_run_of_any (step .ascii) (launch .new)
    (loginAfterLogout.take 8)
    (fun t => (t.step .ascii loginAfterLogout[8]).any fun u =>
      decide (t.Stale ⟨1, .login "ann" "secret", 2⟩ ∧ u.session ≠ t.session))
    (by decide +kernel)
  rw [Option.any_eq_true] at ht
  obtain ⟨u, hstep, hu⟩ := ht
  obtain ⟨hstale, hne⟩ := of_decide_eq_true hu
  exact along_iff.mp (h .ascii .new loginAfterLogout) _ _ [] t rfl hrun _ u rfl hstep hne hstale

end Process

end ReactiveDemo
