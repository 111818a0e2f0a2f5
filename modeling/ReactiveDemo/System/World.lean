import ReactiveDemo.Client.Thoughts
import ReactiveDemo.System.Feed

/-!
# Client, network and server

One running app, the server, and the network between them. The network hands a request to
the server at any time, once, also after the client has given it up; a response reaches the
client later, out of order, or never; and the client may report a failure of any pending
request at any time. Other clients send the server whatever they like.

## Key results

- `step_cases`: a step moves the client, or lets the server handle a request
- `client_cases`: what the client sees of a step
- `client_invariant`: invariants of the client's callbacks are invariants of the system
-/

namespace ReactiveDemo

open Transition Server

/-- The HTTP request that the client makes. -/
def Request.http : Request → HttpRequest
  | .signUp username password => .usersCreate (form username password)
  | .login username password => .usersAuthenticate (form username password)
  | .fetchThoughts token => .thoughtsIndex (some token) []
  | .createThought token text => .thoughtsCreate (some token) [("text", .str text)]

/-- What the server has answered. `mark` is the number of rows of `thoughts` when it
    handled the request. -/
structure Reply where
  call : Call
  outcome : Outcome
  mark : Nat

/-- A row that the server inserted for a request of this client. -/
structure Created where
  call : Call
  row : ThoughtRow
deriving DecidableEq

structure World where
  client : Process
  db : Database
  /-- The responses in the network; one that has been reported stays, and is not again. -/
  inbox : List Reply := []
  /-- History: the rows inserted for this client. -/
  created : List Created := []
  /-- History: the marks of the feeds merged since the last logout. -/
  merged : List Nat := []

/-- The steps of the whole system. -/
inductive Act where
  /-- A callback of the client that is no response. -/
  | client (e : Event)
  /-- The server handles a request of the client. -/
  | serve (call : Call) (env : Env)
  /-- The response with this index is reported to the client as a success. -/
  | succeed (index : Nat)
  /-- The request is reported as failed: an error response, a timeout, a lost connection. -/
  | fail (call : Call) (error : RequestError)
  /-- The server handles a request of somebody else. -/
  | other (env : Env) (request : HttpRequest)

namespace Event

/-- Events that are not responses to requests. -/
def isLocal : Event → Bool
  | .authSucceeded _ _ | .authFailed _ _ | .createSucceeded _ | .createFailed _ _
  | .fetchSucceeded _ _ | .fetchFailed _ _ => false
  | _ => true

/-- The callback of a successful response. -/
def succeeded (call : Call) (body : Json) : Event :=
  match call.request with
  | .signUp _ _ | .login _ _ => .authSucceeded call body
  | .fetchThoughts _ => .fetchSucceeded call body
  | .createThought _ _ => .createSucceeded call

/-- The callback of a failure. -/
def failed (call : Call) (error : RequestError) : Event :=
  match call.request with
  | .signUp _ _ | .login _ _ => .authFailed call error
  | .fetchThoughts _ => .fetchFailed call error
  | .createThought _ _ => .createFailed call error

theorem isLogout_succeeded (call : Call) (body : Json) : (succeeded call body).isLogout = false := by
  unfold succeeded
  cases call.request <;> rfl

theorem isLogout_failed (call : Call) (error : RequestError) :
    (failed call error).isLogout = false := by
  unfold failed
  cases call.request <;> rfl

theorem succeeded_of_isFetch {call : Call} (h : Process.isFetch call.request = true)
    (body : Json) : succeeded call body = .fetchSucceeded call body := by
  unfold succeeded
  cases hreq : call.request <;> simp [hreq, Process.isFetch] at h ⊢

end Event

/-- The step is a logout of the client. -/
def Act.isLogout : Act → Bool
  | .client e => e.isLogout
  | _ => false

namespace World

/-- The client's process and the server's database at the start. -/
def start (r : Realm) (db : Database) : World := { client := Process.launch r, db }

/-- The rows of `thoughts` that are new in `db'`. -/
def newRows (db db' : Database) : List ThoughtRow :=
  db'.thoughts.rows.drop db.thoughts.rows.length

/-- The server handles the request `call`. -/
def serve (G : Gems) (call : Call) (env : Env) (w : World) : World :=
  let result := handle G env call.request.http w.db
  { w with
    client := { w.client with outbox := w.client.outbox.erase call }
    db := result.2
    inbox := w.inbox ++ [⟨call, result.1, w.db.thoughts.rows.length⟩]
    created := w.created ++ (newRows w.db result.2).map fun row => ⟨call, row⟩ }

/-- One step; `none` when it is not possible. -/
def step (G : Gems) (P : Platform) (w : World) : Act → Option World
  | .client e =>
    if e.isLocal then
      (w.client.step P e).map fun client =>
        { w with client, merged := if e.isLogout then [] else w.merged }
    else none
  | .serve call env => if call ∈ w.client.outbox then some (w.serve G call env) else none
  | .succeed index =>
    match w.inbox[index]? with
    | some ⟨call, .ok response, mark⟩ =>
      -- Siesta reports a response with an error status as a failure
      if response.status < 400 then
        (w.client.step P (Event.succeeded call response.body)).map fun client =>
          { w with client, merged :=
            if Process.isFetch call.request then w.merged ++ [mark] else w.merged }
      else none
    | _ => none
  | .fail call error =>
    (w.client.step P (Event.failed call error)).map fun client => { w with client }
  | .other env request => some { w with db := (handle G env request w.db).2 }

variable {G : Gems} {P : Platform} {w w' : World} {a : Act}

/-- A step moves the client on an event of its own, or lets the server handle one of its
    requests, or reports a success or a failure, or is somebody else's request. -/
theorem step_cases (h : w.step G P a = some w') :
    (∃ e, a = .client e ∧ e.isLocal = true ∧ w.client.step P e = some w'.client ∧
      w' = { w with client := w'.client, merged := if e.isLogout then [] else w.merged }) ∨
    (∃ call env, a = .serve call env ∧ call ∈ w.client.outbox ∧ w' = w.serve G call env) ∨
    (∃ index call response mark, a = .succeed index ∧ ⟨call, .ok response, mark⟩ ∈ w.inbox ∧
      response.status < 400 ∧
      w.client.step P (Event.succeeded call response.body) = some w'.client ∧
      w' = { w with client := w'.client, merged :=
        if Process.isFetch call.request then w.merged ++ [mark] else w.merged }) ∨
    (∃ call error, a = .fail call error ∧
      w.client.step P (Event.failed call error) = some w'.client ∧
      w' = { w with client := w'.client }) ∨
    (∃ env request, a = .other env request ∧
      w' = { w with db := (handle G env request w.db).2 }) := by
  cases a with
  | client e =>
    simp only [step, Option.ite_none_right_eq_some, Option.map_eq_some_iff] at h
    obtain ⟨hlocal, client, hclient, rfl⟩ := h
    exact Or.inl ⟨e, rfl, hlocal, hclient, rfl⟩
  | serve call env =>
    simp only [step, Option.ite_none_right_eq_some, Option.some.injEq] at h
    exact Or.inr (Or.inl ⟨call, env, rfl, h.1, h.2.symm⟩)
  | succeed index =>
    -- the response is looked up in the network
    simp only [step] at h
    split at h
    · rename_i call response mark hget
      simp only [Option.ite_none_right_eq_some, Option.map_eq_some_iff] at h
      obtain ⟨hstatus, client, hclient, rfl⟩ := h
      exact Or.inr (Or.inr (Or.inl ⟨index, call, response, mark, rfl,
        List.mem_of_getElem? hget, hstatus, hclient, rfl⟩))
    · cases h
  | fail call error =>
    simp only [step, Option.map_eq_some_iff] at h
    obtain ⟨client, hclient, rfl⟩ := h
    exact Or.inr (Or.inr (Or.inr (Or.inl ⟨call, error, rfl, hclient, rfl⟩)))
  | other env request =>
    cases h
    exact Or.inr (Or.inr (Or.inr (Or.inr ⟨env, request, rfl, rfl⟩)))

/-! ## What the client sees -/

/-- The step runs the client's callback `e`: one of its own, or a report of the network. -/
inductive Raises (w : World) : Act → Event → Prop
  | own {e : Event} (hlocal : e.isLocal = true) : Raises w (.client e) e
  | success {index : Nat} {call : Call} {response : Response} {mark : Nat}
      (hreply : ⟨call, .ok response, mark⟩ ∈ w.inbox) (hstatus : response.status < 400) :
      Raises w (.succeed index) (Event.succeeded call response.body)
  | failure (call : Call) (error : RequestError) :
      Raises w (.fail call error) (Event.failed call error)

theorem isLocal_succeeded (call : Call) (body : Json) :
    (Event.succeeded call body).isLocal = false := by
  unfold Event.succeeded
  cases call.request <;> rfl

theorem isLocal_failed (call : Call) (error : RequestError) :
    (Event.failed call error).isLocal = false := by
  unfold Event.failed
  cases call.request <;> rfl

/-- An event of the client's own is the whole step. -/
theorem Raises.eq_client {e : Event} (h : w.Raises a e) (hlocal : e.isLocal = true) :
    a = .client e := by
  cases h with
  | own _ => rfl
  | success _ _ =>
    rw [isLocal_succeeded] at hlocal
    cases hlocal
  | failure call error =>
    rw [isLocal_failed] at hlocal
    cases hlocal

/-- A create request fails when the step says so. -/
theorem Raises.eq_fail {call : Call} {error : RequestError}
    (h : w.Raises a (.createFailed call error)) : a = .fail call error := by
  generalize he : Event.createFailed call error = e at h
  cases h with
  | own hlocal =>
    subst he
    cases hlocal
  | success _ _ =>
    unfold Event.succeeded at he
    split at he <;> cases he
  | failure call' error' =>
    unfold Event.failed at he
    split at he <;> cases he
    rfl

/-- A create request succeeds when its response has come in. -/
theorem Raises.reply_of_createSucceeded {call : Call} (h : w.Raises a (.createSucceeded call)) :
    ∃ response mark, ⟨call, .ok response, mark⟩ ∈ w.inbox ∧ response.status < 400 := by
  generalize he : Event.createSucceeded call = e at h
  cases h with
  | own hlocal =>
    subst he
    cases hlocal
  | @success index call' response mark hreply hstatus =>
    unfold Event.succeeded at he
    split at he <;> cases he
    exact ⟨response, mark, hreply, hstatus⟩
  | failure call' error' =>
    unfold Event.failed at he
    split at he <;> cases he

/-- An authentication succeeds when its response has come in. -/
theorem Raises.reply_of_authSucceeded {call : Call} {body : Json}
    (h : w.Raises a (.authSucceeded call body)) : ∃ response mark,
      ⟨call, .ok response, mark⟩ ∈ w.inbox ∧ response.status < 400 ∧ response.body = body := by
  generalize he : Event.authSucceeded call body = e at h
  -- neither a callback of the client itself nor a failure is a success
  cases h with
  | own hlocal =>
    subst he
    cases hlocal
  | @success index call' response mark hreply hstatus =>
    unfold Event.succeeded at he
    split at he <;> cases he
    · exact ⟨response, mark, hreply, hstatus, rfl⟩
    · exact ⟨response, mark, hreply, hstatus, rfl⟩
  | failure call' error' =>
    unfold Event.failed at he
    split at he <;> cases he

/-- The client logs out in a step of its own. -/
theorem Raises.isLogout_eq {e : Event} (h : w.Raises a e) : e.isLogout = a.isLogout := by
  cases h with
  | own _ => rfl
  | success _ _ => exact Event.isLogout_succeeded _ _
  | failure call error => exact Event.isLogout_failed call error

/-- The client runs a callback, and the server's side is as before; or the client's outbox
    and the server's side are all that may change. -/
theorem client_cases (h : w.step G P a = some w') :
    (∃ e, w.Raises a e ∧ w.client.step P e = some w'.client ∧ w'.db = w.db ∧
      w'.inbox = w.inbox ∧ w'.created = w.created) ∨
    (∃ call env, a = .serve call env ∧ call ∈ w.client.outbox ∧ w' = w.serve G call env) ∨
    (∃ env request, a = .other env request ∧
      w' = { w with db := (handle G env request w.db).2 }) := by
  rcases step_cases h with ⟨e, rfl, hlocal, hclient, heq⟩ | hserve |
    ⟨index, call, response, mark, rfl, hreply, hstatus, hclient, heq⟩ |
    ⟨call, error, rfl, hclient, heq⟩ | hother
  · exact Or.inl ⟨e, .own hlocal, hclient, by rw [heq], by rw [heq], by rw [heq]⟩
  · exact Or.inr (Or.inl hserve)
  · exact Or.inl ⟨_, .success hreply hstatus, hclient, by rw [heq], by rw [heq], by rw [heq]⟩
  · exact Or.inl ⟨_, .failure call error, hclient, by rw [heq], by rw [heq], by rw [heq]⟩
  · exact Or.inr (Or.inr hother)

/-- What every callback of the client keeps, and what does not depend on the outbox, every
    step of the system keeps. -/
theorem client_invariant {I : Process → Prop}
    (hstep : ∀ p e p', I p → p.step P e = some p' → I p')
    (houtbox : ∀ p outbox, I p → I { p with outbox }) (h : I w.client)
    (hw : w.step G P a = some w') : I w'.client := by
  rcases client_cases hw with ⟨e, -, hclient, -⟩ | ⟨call, env, -, -, rfl⟩ | ⟨env, request, -, rfl⟩
  · exact hstep _ e _ h hclient
  · exact houtbox _ _ h
  · exact h

/-- The step from `w` to `w'` sends the create request `call`. -/
def Sends (call : Call) (w w' : World) : Prop :=
  creates w'.client.outbox = creates w.client.outbox ++ [call]

instance (call : Call) (w w' : World) : Decidable (Sends call w w') :=
  inferInstanceAs (Decidable (_ = _))

/-- A create request is sent by `createThoughtAction`, with the current user's token, and the
    text and the number of the press that it runs for. -/
theorem sends_cases {call : Call} (h : w.step G P a = some w') (hsends : Sends call w w') :
    ∃ e user text press, a = .client e ∧ w.client.step P e = some w'.client ∧
      w.client.currentUser = some user ∧ Process.Runs text press w.client e ∧
      call = ⟨w.client.nextCall, .createThought user.jwtToken text, press⟩ := by
  unfold Sends at hsends
  have hlen := congrArg List.length hsends
  rw [List.length_append, List.length_singleton] at hlen
  rcases client_cases h with ⟨e, hraises, hclient, -⟩ | ⟨served, env, -, -, rfl⟩ |
    ⟨env, request, -, rfl⟩
  -- the outbox grows, so the step has run the action
  · rcases Process.sends_step hclient with hunsent | ⟨user, text, press, huser, hruns, hsent⟩
    · rw [hunsent.outbox] at hlen
      omega
    · rw [hsent.outbox] at hsends
      have hcall := List.append_cancel_left hsends
      have hlocal : e.isLocal = true := by
        rcases hruns with ⟨now, rfl, -⟩ | ⟨now, rfl, -⟩ <;> rfl
      exact ⟨e, user, text, press, hraises.eq_client hlocal, hclient, huser, hruns,
        (List.singleton_inj.mp hcall).symm⟩
  · -- serving a request only takes one off the outbox
    have herase := List.length_erase_le (a := served) (l := creates w.client.outbox)
    rw [← creates_erase] at herase
    simp only [serve] at hlen
    omega
  · simp only at hlen
    omega

/-- A retry sends a create request with the current user's token. -/
theorem sends_of_retry {retry : Retry} {now : Date} {user : User}
    (h : w.step G P (.client (.retryFired retry now)) = some w')
    (huser : w.client.currentUser = some user) :
    Sends ⟨w.client.nextCall, .createThought user.jwtToken retry.text, retry.press⟩ w w' := by
  simp only [step, Event.isLocal, if_true, Option.map_eq_some_iff, Process.step,
    Option.ite_none_right_eq_some, Option.some.injEq] at h
  obtain ⟨client, ⟨-, rfl⟩, rfl⟩ := h
  have hsends := Process.createThoughtAction_sends P retry.text retry.press now
    (p := { w.client with retries := w.client.retries.erase retry }) huser
  exact hsends.outbox

/-- What carries the number of a press goes on carrying its text. -/
theorem texts_step (h : w.client.Texts) (hw : w.step G P a = some w') : w'.client.Texts :=
  client_invariant (fun _ _ _ ht hstep => Process.texts_step ht hstep)
    (fun _ _ ht => ⟨ht.pending, ht.retries, ht.saved⟩) h hw

/-- Every press stays in exactly one pile. -/
theorem ledger_step (h : w.client.Ledger) (hw : w.step G P a = some w') : w'.client.Ledger :=
  client_invariant (fun _ _ _ hl hstep => Process.ledger_step hl hstep) (fun _ _ hl => hl) h hw

/-- The tables grow in every step. -/
theorem grows_step (h : w.step G P a = some w') : w.db.Grows w'.db := by
  rcases client_cases h with ⟨e, -, -, hdb, -⟩ | ⟨call, env, -, -, rfl⟩ | ⟨env, request, -, rfl⟩
  · rw [hdb]
    exact .refl _
  · exact grows_handle G env call.request.http w.db
  · exact grows_handle G env request w.db

/-- Between logouts the Realm only grows. -/
theorem rows_subset_step (hlogout : a.isLogout = false) (h : w.step G P a = some w') :
    w.client.realm.thoughts.rows ⊆ w'.client.realm.thoughts.rows := by
  rcases client_cases h with ⟨e, hraises, hclient, -⟩ | ⟨call, env, -, -, rfl⟩ |
    ⟨env, request, -, rfl⟩
  · exact Process.rows_subset_step (hraises.isLogout_eq.trans hlogout) hclient
  · exact List.Subset.refl _
  · exact List.Subset.refl _

end World

end ReactiveDemo
