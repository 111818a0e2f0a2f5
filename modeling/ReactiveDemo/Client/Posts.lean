import ReactiveDemo.Client.Merge
import ReactiveDemo.ForStd.Piles

/-!
# Posts

A press of Post runs `createThoughtAction`; so does a retry. The action is dropped when
nobody is logged in, and otherwise sends one create request; a failure of the request
schedules one retry. So the presses are jobs that lie in one of four piles: outstanding,
scheduled, acknowledged or dropped.

## Key results

- `step_posts`: the five things a step can do to posts
- `ledger_step`: every step keeps each press in exactly one pile
- `outstanding_add_scheduled_le`: requests and retries do not outnumber the presses
- `session_step`: a step changes the session only by starting a new one
- `dropped_step`, `waiting_step`: no step of a session drops a press
-/

namespace ReactiveDemo

def isCreate : Request → Bool
  | .createThought _ _ => true
  | _ => false

/-- The create requests among the calls. -/
def creates (calls : List Call) : List Call := calls.filter fun c => isCreate c.request

@[simp] theorem creates_append (l m : List Call) : creates (l ++ m) = creates l ++ creates m := by
  simp [creates]

theorem mem_creates {c : Call} {l : List Call} :
    c ∈ creates l ↔ c ∈ l ∧ isCreate c.request = true := by
  simp [creates]

theorem creates_erase (c : Call) (l : List Call) : creates (l.erase c) = (creates l).erase c :=
  List.erase_filter.symm

theorem creates_erase_of_not {c : Call} (h : isCreate c.request = false) (l : List Call) :
    creates (l.erase c) = creates l := by
  rw [creates_erase]
  apply List.erase_of_not_mem
  rw [mem_creates, h]
  simp

/-- Taking a call off adds no create request. -/
theorem creates_erase_subset (c : Call) (l : List Call) : creates (l.erase c) ⊆ creates l := by
  rw [creates_erase]
  exact List.erase_subset

/-- Taking a call off keeps the other create requests. -/
theorem mem_creates_erase {c d : Call} {l : List Call} (hc : c ∈ creates l) (hne : c ≠ d) :
    c ∈ creates (l.erase d) := by
  rw [creates_erase]
  exact (List.mem_erase_of_ne hne).mpr hc

theorem creates_eq_nil_of_isFetch {l : List Call} (h : ∀ c ∈ l, Process.isFetch c.request = true) :
    creates l = [] := by
  rw [creates, List.filter_eq_nil_iff]
  intro c hc
  have hfetch := h c hc
  cases hreq : c.request <;> simp [hreq, Process.isFetch, isCreate] at hfetch ⊢

namespace Process

/-- From `p` to `q` nothing happens to posts. -/
structure Quiet (p q : Process) : Prop where
  pending : creates q.pending = creates p.pending
  outbox : creates q.outbox = creates p.outbox
  nextCall : p.nextCall ≤ q.nextCall
  retries : q.retries = p.retries
  presses : q.history.presses = p.history.presses
  acknowledged : q.history.acknowledged = p.history.acknowledged
  dropped : q.history.dropped = p.history.dropped
  saved : q.history.saved = p.history.saved

theorem Quiet.refl (p : Process) : Quiet p p :=
  ⟨rfl, rfl, le_refl _, rfl, rfl, rfl, rfl, rfl⟩

theorem Quiet.trans {p q r : Process} (h : Quiet p q) (h' : Quiet q r) : Quiet p r :=
  ⟨h'.pending.trans h.pending, h'.outbox.trans h.outbox, h.nextCall.trans h'.nextCall,
    h'.retries.trans h.retries, h'.presses.trans h.presses,
    h'.acknowledged.trans h.acknowledged, h'.dropped.trans h.dropped, h'.saved.trans h.saved⟩

/-- The sync service only fetches: among the create requests, nothing changes. -/
theorem Polled.quiet {p q : Process} (h : Polled p q) : Quiet p q := by
  obtain ⟨new, hnew, hpending, houtbox⟩ := h.calls
  have hnil := creates_eq_nil_of_isFetch hnew
  refine ⟨?_, ?_, h.nextCall, h.retries, ?_, ?_, ?_, ?_⟩
  · rw [hpending, creates_append, hnil, List.append_nil]
  · rw [houtbox, creates_append, hnil, List.append_nil]
  · rw [h.history]
  · rw [h.history]
  · rw [h.history]
  · rw [h.history]

/-- The same of a dispatch, whose new requests are fetches. -/
theorem dispatch_quiet (a : Action) (p : Process) : Quiet p (p.dispatch a) := by
  obtain ⟨new, hnew, hpending, houtbox⟩ := dispatch_calls a p
  have hnil := creates_eq_nil_of_isFetch hnew
  refine ⟨?_, ?_, dispatch_nextCall a p, dispatch_retries a p, ?_, ?_, ?_, ?_⟩
  · rw [hpending, creates_append, hnil, List.append_nil]
  · rw [houtbox, creates_append, hnil, List.append_nil]
  · rw [dispatch_history]
  · rw [dispatch_history]
  · rw [dispatch_history]
  · rw [dispatch_history]

/-- A dispatch after a part where nothing happens to posts. -/
theorem Quiet.dispatch {p q : Process} (h : Quiet p q) (a : Action) : Quiet p (q.dispatch a) :=
  h.trans (dispatch_quiet a q)

theorem send_quiet {r : Request} (h : isCreate r = false) (n : Nat) (p : Process) :
    Quiet p (p.send r n) := by
  refine ⟨?_, ?_, Nat.le_succ _, rfl, rfl, rfl, rfl, rfl⟩
  · rw [send_pending, creates_append]
    simp [creates, h]
  · rw [send_outbox, creates_append]
    simp [creates, h]

theorem complete_quiet {call : Call} (h : isCreate call.request = false) (p : Process) :
    Quiet p (p.complete call) :=
  ⟨creates_erase_of_not h _, rfl, le_refl _, rfl, rfl, rfl, rfl, rfl⟩

/-- Requests with a username are no create requests. -/
theorem isCreate_of_username? {r : Request} (h : (username? r).isSome) : isCreate r = false := by
  cases r <;> simp [username?, isCreate] at h ⊢

/-! ## What an action does -/

theorem jwtToken_eq (p : Process) : p.jwtToken = p.currentUser.map User.jwtToken := rfl

/-- `createThoughtAction` drops the press when nobody is logged in, and sends one request
    with the current user's token otherwise. -/
theorem createThoughtAction_cases (P : Platform) (text : String) (press : Nat) (now : Date)
    (p : Process) :
    (p.currentUser = none ∧ p.createThoughtAction P text press now = p.dropPress press) ∨
    ∃ user, p.currentUser = some user ∧ p.createThoughtAction P text press now =
      (p.persistThought P ⟨user.username, text, now⟩ press).send
        (.createThought user.jwtToken text) press := by
  cases huser : p.currentUser with
  | none =>
    left
    simp [createThoughtAction, jwtToken_eq, huser]
  | some user =>
    right
    exact ⟨user, rfl, by simp [createThoughtAction, jwtToken_eq, huser]⟩

/-- Storing the local copy touches the Realm and records a save. -/
theorem persistThought_eq (P : Platform) (v : ThoughtValue) (press : Nat) (p : Process) :
    ∃ realm saved, p.persistThought P v press =
        { p with realm, history := { p.history with saved := p.history.saved ++ saved } } ∧
      realm.users = p.realm.users ∧ p.realm.thoughts.rows ⊆ realm.thoughts.rows ∧
      (saved = [] ∨ saved = [⟨press, v.text, p.history.session⟩]) := by
  unfold persistThought
  split
  · refine ⟨p.realm.saveThought v, [⟨press, v.text, p.history.session⟩], rfl, rfl, ?_, Or.inr rfl⟩
    rw [Realm.saveThought_rows]
    exact List.subset_append_left _ _
  · refine ⟨p.realm, [], ?_, rfl, List.Subset.refl _, Or.inl rfl⟩
    rw [List.append_nil]

/-- From `p` to `p'` the create request `call` for `text` is sent; at most a local save of
    its press is recorded besides. -/
structure Sends (call : Call) (text : String) (p p' : Process) : Prop where
  pending : creates p'.pending = creates p.pending ++ [call]
  outbox : creates p'.outbox = creates p.outbox ++ [call]
  nextCall : p'.nextCall = p.nextCall + 1
  retries : p'.retries = p.retries
  session : p'.session = p.session
  history : ∃ saved, p'.history = { p.history with saved := p.history.saved ++ saved } ∧
    (saved = [] ∨ saved = [⟨call.origin, text, p.history.session⟩])

/-- With a current user, `createThoughtAction` sends a request with that user's token. -/
theorem createThoughtAction_sends (P : Platform) (text : String) (press : Nat) (now : Date)
    {p : Process} {user : User} (huser : p.currentUser = some user) :
    Sends ⟨p.nextCall, .createThought user.jwtToken text, press⟩ text p
      (p.createThoughtAction P text press now) := by
  rcases createThoughtAction_cases P text press now p with ⟨hnone, -⟩ | ⟨user', huser', heq⟩
  -- somebody is logged in
  · rw [huser] at hnone
    cases hnone
  · rw [huser, Option.some.injEq] at huser'
    subst huser'
    obtain ⟨realm, saved, hpersist, husers, -, hsaved⟩ :=
      persistThought_eq P ⟨user.username, text, now⟩ press p
    rw [heq, hpersist]
    -- the Thought is saved or was there; the users stay
    refine ⟨?_, ?_, rfl, rfl, ?_, saved, rfl, hsaved⟩
    · simp [creates, isCreate]
    · simp [creates, isCreate]
    · simp only [Process.session, send_state, send_realm, husers]

theorem logoutAction_quiet (p : Process) : Quiet p p.logoutAction := by
  have h : Quiet p { p with realm := p.realm.deleteAll }.noteAuthAct.noteSession :=
    ⟨rfl, rfl, le_refl _, rfl, rfl, rfl, rfl, rfl⟩
  exact h.dispatch _

/-- An authentication response posts nothing. -/
theorem authSuccess_quiet (P : Platform) (json : List (String × Json)) (username : String)
    (p : Process) : Quiet p (p.authSuccess P json username) := by
  have h : ∀ realm, Quiet p (noteSession { p with realm }) :=
    fun realm => ⟨rfl, rfl, le_refl _, rfl, rfl, rfl, rfl, rfl⟩
  unfold authSuccess
  split
  · exact dispatch_quiet _ _
  · split
    · exact dispatch_quiet _ _
    -- the User is saved, and the session noted, before the dispatch
    · exact (h _).dispatch _

theorem loginAction_quiet (username password : String) (p : Process) :
    Quiet p (p.loginAction username password) := by
  have h : Quiet p p.noteAuthAct := ⟨rfl, rfl, le_refl _, rfl, rfl, rfl, rfl, rfl⟩
  exact (h.dispatch _).trans (send_quiet rfl _ _)

theorem createUserAction_quiet (username password : String) (p : Process) :
    Quiet p (p.createUserAction username password) := by
  have h : Quiet p p.noteAuthAct := ⟨rfl, rfl, le_refl _, rfl, rfl, rfl, rfl, rfl⟩
  exact (h.dispatch _).trans (send_quiet rfl _ _)

/-- A notification moves the observer and dispatches. -/
theorem observe_quiet {p p' : Process} {change : Change} (h : p.observe change = some p') :
    Quiet p p' := by
  have hset : ∀ o, Quiet p (p.setObserver o) :=
    fun o => ⟨rfl, rfl, le_refl _, rfl, rfl, rfl, rfl, rfl⟩
  rcases observe_cases h with ⟨results, -, -, -, rfl⟩ | ⟨old, results, d, i, m, -, -, -, -, rfl⟩ |
    ⟨error, -, -, rfl⟩
  · exact (hset _).dispatch _
  · split
    · exact (hset _).dispatch _
    · exact hset _
  · exact (hset _).dispatch _

/-- The process with a new press, whose action is still to run. -/
def addPress (text : String) (p : Process) : Process :=
  p.note fun h => { h with presses := h.presses ++ [⟨text, p.state.authState.currentUserId⟩] }

theorem postThoughtPressed_eq (P : Platform) (text : String) (now : Date) (p : Process) :
    p.postThoughtPressed P text now =
      (p.addPress text).createThoughtAction P text p.history.presses.length now := rfl

/-! ## What a step does to posts -/

variable {P : Platform} {p p' : Process} {e : Event}

/-- The callbacks that post, post again, or hear of a create request. -/
def isPostEvent : Event → Bool
  | .postThoughtPressed _ _ | .retryFired _ _ | .createSucceeded _ | .createFailed _ _ => true
  | _ => false

/-- Nothing else happens to posts. -/
theorem quiet_step (he : isPostEvent e = false) (h : p.step P e = some p') : Quiet p p' := by
  have hscreen : ∀ screen, Quiet p { p with screen } :=
    fun screen => ⟨rfl, rfl, le_refl _, rfl, rfl, rfl, rfl, rfl⟩
  cases e with
  | loginPressed username password =>
    cases h
    exact loginAction_quiet username password p
  | registerPressed username password =>
    cases h
    exact createUserAction_quiet username password p
  | logoutSegue =>
    cases h
    exact logoutAction_quiet p
  | authSucceeded call body =>
    obtain ⟨-, username, huser, rfl⟩ := step_authSucceeded.mp h
    -- the request that has reported was no create request
    have hcall : isCreate call.request = false := isCreate_of_username? (by rw [huser]; rfl)
    exact (complete_quiet hcall p).trans (authSuccess_quiet P _ _ _)
  | authFailed call error =>
    obtain ⟨-, huser, rfl⟩ := step_authFailed.mp h
    exact (complete_quiet (isCreate_of_username? huser) p).dispatch _
  | fetchSucceeded call body =>
    obtain ⟨-, ⟨token, hreq⟩, realm, -, rfl⟩ := step_fetchSucceeded.mp h
    have hcall : isCreate call.request = false := by rw [hreq]; rfl
    exact (complete_quiet hcall p).trans ⟨rfl, rfl, le_refl _, rfl, rfl, rfl, rfl, rfl⟩
  | fetchFailed call error =>
    obtain ⟨-, ⟨token, hreq⟩, rfl⟩ := step_fetchFailed.mp h
    have hcall : isCreate call.request = false := by rw [hreq]; rfl
    exact complete_quiet hcall p
  | timerFired =>
    simp only [step, Option.ite_none_right_eq_some, Option.some.injEq] at h
    obtain ⟨-, rfl⟩ := h
    exact (fetchThoughtsAction_polled p).quiet
  | notified change => exact observe_quiet h
  -- what is left concerns the screen
  | viewDidLoad =>
    cases h
    exact hscreen _
  | layoutTable =>
    simp only [step, Option.ite_none_left_eq_some, Option.some.injEq] at h
    obtain ⟨-, rfl⟩ := h
    exact hscreen _
  | viewDidAppear =>
    simp only [step, Option.ite_none_right_eq_some, Option.some.injEq] at h
    obtain ⟨-, rfl⟩ := h
    exact hscreen _
  | viewDidDisappear =>
    cases h
    exact hscreen _
  | postThoughtPressed _ _ | retryFired _ _ | createSucceeded _ | createFailed _ _ => cases he

/-- A step posts, retries, or processes the success or the failure of a create request;
    or nothing happens to posts. -/
theorem step_posts (h : p.step P e = some p') :
    (∃ text now, e = .postThoughtPressed text now ∧ p' = p.postThoughtPressed P text now) ∨
    (∃ retry now, e = .retryFired retry now ∧ retry ∈ p.retries ∧
      p' = { p with retries := p.retries.erase retry }.createThoughtAction P retry.text
        retry.press now) ∨
    (∃ call token text, e = .createSucceeded call ∧ call ∈ p.pending ∧
      call.request = .createThought token text ∧
      p' = (p.complete call).createSuccess call.origin) ∨
    (∃ call token text error, e = .createFailed call error ∧ call ∈ p.pending ∧
      call.request = .createThought token text ∧
      p' = (p.complete call).createFailure call.origin text error) ∨
    Quiet p p' := by
  cases e with
  | postThoughtPressed text now =>
    cases h
    exact Or.inl ⟨text, now, rfl, rfl⟩
  | retryFired retry now =>
    simp only [step, Option.ite_none_right_eq_some, Option.some.injEq] at h
    exact Or.inr (Or.inl ⟨retry, now, rfl, h.1, h.2.symm⟩)
  | createSucceeded call =>
    obtain ⟨hmem, token, text, hreq, rfl⟩ := step_createSucceeded.mp h
    exact Or.inr (Or.inr (Or.inl ⟨call, token, text, rfl, hmem, hreq, rfl⟩))
  | createFailed call error =>
    obtain ⟨hmem, token, text, hreq, rfl⟩ := step_createFailed.mp h
    exact Or.inr (Or.inr (Or.inr (Or.inl ⟨call, token, text, error, rfl, hmem, hreq, rfl⟩)))
  -- all other events are none of these four
  | _ => exact Or.inr (Or.inr (Or.inr (Or.inr (quiet_step rfl h))))

/-! ## The ledger of presses -/

/-- The presses with an outstanding create request. -/
def outstanding (p : Process) : List Nat := (creates p.pending).map Call.origin

/-- The presses with a scheduled retry. -/
def scheduled (p : Process) : List Nat := p.retries.map Retry.press

/-- Every press has one outstanding request or one scheduled retry, or was acknowledged
    once, or dropped once. -/
def Ledger (p : Process) : Prop :=
  Piles p.history.presses.length
    [p.outstanding, p.scheduled, p.history.acknowledged, p.history.dropped]

/-- The ledger, as a sum of counts. -/
theorem ledger_iff (p : Process) : p.Ledger ↔ ∀ k,
    p.outstanding.count k + p.scheduled.count k + p.history.acknowledged.count k +
      p.history.dropped.count k = if k < p.history.presses.length then 1 else 0 := by
  rw [Ledger, piles_iff_count]
  simp only [List.flatten_cons, List.flatten_nil, List.append_nil, List.count_append, add_assoc]

/-- Completing a create request takes its press off the outstanding ones. -/
theorem count_outstanding_complete {call : Call} (hmem : call ∈ p.pending)
    (hcreate : isCreate call.request = true) (k : Nat) :
    p.outstanding.count k = (p.complete call).outstanding.count k +
      if call.origin = k then 1 else 0 := by
  have hperm := List.perm_cons_erase (mem_creates.mpr ⟨hmem, hcreate⟩)
  rw [outstanding, (hperm.map Call.origin).count_eq, List.map_cons, List.count_cons, outstanding,
    complete_pending, creates_erase]
  simp

/-- Firing a retry takes its press off the scheduled ones. -/
theorem count_scheduled_erase {retry : Retry} (hmem : retry ∈ p.retries) (k : Nat) :
    p.scheduled.count k = ((p.retries.erase retry).map Retry.press).count k +
      if retry.press = k then 1 else 0 := by
  have hperm := List.perm_cons_erase hmem
  rw [scheduled, (hperm.map Retry.press).count_eq, List.map_cons, List.count_cons]
  simp

/-- From `p` to `p'` the press is put on one of two piles. -/
structure PutOn (press : Nat) (p p' : Process) : Prop where
  scheduled : p'.scheduled = p.scheduled
  acknowledged : p'.history.acknowledged = p.history.acknowledged
  moved : (p'.outstanding = p.outstanding ++ [press] ∧ p'.history.dropped = p.history.dropped) ∨
    (p'.outstanding = p.outstanding ∧ p'.history.dropped = p.history.dropped ++ [press])

/-- One of the two piles counts one more. -/
theorem PutOn.count {press : Nat} (h : PutOn press p p') (k : Nat) :
    p'.outstanding.count k + p'.history.dropped.count k =
      p.outstanding.count k + p.history.dropped.count k + if press = k then 1 else 0 := by
  rcases h.moved with ⟨hout, hdrop⟩ | ⟨hout, hdrop⟩
  · rw [hout, hdrop, List.count_append, List.count_singleton]
    simp only [beq_iff_eq]
    omega
  · rw [hout, hdrop, List.count_append, List.count_singleton]
    simp only [beq_iff_eq]
    omega

/-- `createThoughtAction` puts its press on one of two piles. -/
theorem createThoughtAction_putOn (P : Platform) (text : String) (press : Nat) (now : Date)
    (p : Process) : PutOn press p (p.createThoughtAction P text press now) := by
  rcases createThoughtAction_cases P text press now p with ⟨-, heq⟩ | ⟨user, huser, -⟩
  · rw [heq]
    exact ⟨rfl, rfl, Or.inr ⟨rfl, rfl⟩⟩
  · have hsends := createThoughtAction_sends P text press now huser
    obtain ⟨saved, hhistory, -⟩ := hsends.history
    refine ⟨?_, by rw [hhistory], Or.inl ⟨?_, by rw [hhistory]⟩⟩
    · rw [scheduled, hsends.retries]
      rfl
    · rw [outstanding, hsends.pending, List.map_append]
      rfl

theorem Quiet.ledger (h : Quiet p p') (hl : p.Ledger) : p'.Ledger := by
  unfold Ledger outstanding scheduled at *
  rw [h.presses, h.pending, h.retries, h.acknowledged, h.dropped]
  exact hl

/-- Every step keeps each press in exactly one pile. -/
theorem ledger_step (hl : p.Ledger) (h : p.step P e = some p') : p'.Ledger := by
  rcases step_posts h with ⟨text, now, -, rfl⟩ | ⟨retry, now, -, hmem, rfl⟩ |
    ⟨call, token, text, -, hmem, hreq, rfl⟩ | ⟨call, token, text, error, -, hmem, hreq, rfl⟩ |
    hquiet
  · -- a new press is put on a pile
    rw [ledger_iff] at hl ⊢
    intro k
    have hput := createThoughtAction_putOn P text p.history.presses.length now (p.addPress text)
    have hposting := createThoughtAction_posting P text p.history.presses.length now
      (p.addPress text)
    have hlen : (p.postThoughtPressed P text now).history.presses.length =
        p.history.presses.length + 1 := by
      rw [postThoughtPressed_eq, hposting.presses]
      exact List.length_append
    -- the action outstands or drops the new press, once
    have hcount : (p.postThoughtPressed P text now).outstanding.count k +
        (p.postThoughtPressed P text now).history.dropped.count k =
        p.outstanding.count k + p.history.dropped.count k +
          if p.history.presses.length = k then 1 else 0 := hput.count k
    have hsched : (p.postThoughtPressed P text now).scheduled = p.scheduled := hput.scheduled
    have hack : (p.postThoughtPressed P text now).history.acknowledged =
        p.history.acknowledged := hput.acknowledged
    have hk := hl k
    rw [hlen, hsched, hack]
    split at hk <;> split at hcount <;> split <;> omega
  · -- a retry leaves its pile
    rw [ledger_iff] at hl ⊢
    intro k
    have hput := createThoughtAction_putOn P retry.text retry.press now
      { p with retries := p.retries.erase retry }
    have hposting := createThoughtAction_posting P retry.text retry.press now
      { p with retries := p.retries.erase retry }
    -- and is outstanding again, or dropped
    have hcount := hput.count k
    have hsched := count_scheduled_erase hmem k
    have hsame : ({ p with retries := p.retries.erase retry } : Process).outstanding =
        p.outstanding := rfl
    have hk := hl k
    rw [hposting.presses, hput.scheduled, hput.acknowledged]
    rw [hsame] at hcount
    simp only [scheduled] at hsched hk ⊢
    split at hk <;> split at hcount <;> simp_all <;> omega
  · -- from outstanding to acknowledged
    rw [ledger_iff] at hl ⊢
    intro k
    -- the completed request was outstanding once
    have hcount := count_outstanding_complete hmem (by rw [hreq]; rfl) k
    have hk := hl k
    have hout : ((p.complete call).createSuccess call.origin).outstanding =
        (p.complete call).outstanding := rfl
    have hack : ((p.complete call).createSuccess call.origin).history.acknowledged =
        p.history.acknowledged ++ [call.origin] := rfl
    have hother : ((p.complete call).createSuccess call.origin).scheduled = p.scheduled ∧
        ((p.complete call).createSuccess call.origin).history.dropped = p.history.dropped ∧
        ((p.complete call).createSuccess call.origin).history.presses = p.history.presses :=
      ⟨rfl, rfl, rfl⟩
    rw [hout, hack, hother.1, hother.2.1, hother.2.2, List.count_append, List.count_singleton]
    simp only [beq_iff_eq]
    omega
  · -- from outstanding to scheduled
    rw [ledger_iff] at hl ⊢
    intro k
    have hcount := count_outstanding_complete hmem (by rw [hreq]; rfl) k
    have hk := hl k
    have hout : ((p.complete call).createFailure call.origin text error).outstanding =
        (p.complete call).outstanding := rfl
    have hsched : ((p.complete call).createFailure call.origin text error).scheduled =
        p.scheduled ++ [call.origin] := by
      simp [scheduled, createFailure]
    have hother :
        ((p.complete call).createFailure call.origin text error).history = p.history := rfl
    rw [hout, hsched, hother, List.count_append, List.count_singleton]
    simp only [beq_iff_eq]
    omega
  -- no pile has changed
  · exact hquiet.ledger hl

/-- A fresh process has no presses. -/
theorem ledger_launch (r : Realm) : (launch r).Ledger := by
  apply (launch_polled r).quiet.ledger
  rw [ledger_iff]
  intro k
  simp [outstanding, scheduled, creates]

/-- The outstanding requests and scheduled retries do not outnumber the presses. -/
theorem outstanding_add_scheduled_le (hl : p.Ledger) :
    (creates p.pending).length + p.retries.length ≤ p.history.presses.length := by
  have hlen := Piles.length_le [p.outstanding, p.scheduled]
    [p.history.acknowledged, p.history.dropped] hl
  simpa [outstanding, scheduled] using hlen

/-- A press has one outstanding request at most. -/
theorem eq_of_origin_eq (hl : p.Ledger) {c c' : Call} (hc : c ∈ creates p.pending)
    (hc' : c' ∈ creates p.pending) (horigin : c.origin = c'.origin) : c = c' := by
  have hnodup : p.outstanding.Nodup := by
    rw [List.nodup_iff_count_le_one]
    intro k
    have hk := (ledger_iff p).mp hl k
    split at hk <;> omega
  exact List.inj_on_of_nodup_map hnodup hc hc' horigin

/-- No request of an acknowledged press is outstanding. -/
theorem not_acknowledged_of_outstanding (hl : p.Ledger) {c : Call} (hc : c ∈ creates p.pending) :
    c.origin ∉ p.history.acknowledged := by
  intro hack
  have hout : c.origin ∈ p.outstanding := List.mem_map_of_mem hc
  have hk := (ledger_iff p).mp hl c.origin
  have hack' := List.count_pos_iff.mpr hack
  have hout' := List.count_pos_iff.mpr hout
  split at hk <;> omega

/-- An outstanding request stays so until it is acknowledged or fails. -/
theorem pending_step (h : p.step P e = some p') {c : Call} (hc : c ∈ creates p.pending) :
    c ∈ creates p'.pending ∨ c.origin ∈ p'.history.acknowledged ∨
      ∃ error, e = .createFailed c error := by
  -- what `createThoughtAction` does, for a press and for a retry alike
  have hrun : ∀ (q : Process) (text : String) (press : Nat) (now : Date),
      q.pending = p.pending → c ∈ creates (q.createThoughtAction P text press now).pending := by
    intro q text press now hq
    rcases createThoughtAction_cases P text press now q with ⟨-, heq⟩ | ⟨user, huser, -⟩
    · rw [heq]
      show c ∈ creates q.pending
      rw [hq]
      exact hc
    · rw [(createThoughtAction_sends P text press now huser).pending, hq]
      exact List.mem_append_left _ hc
  rcases step_posts h with ⟨text, now, -, rfl⟩ | ⟨retry, now, -, -, rfl⟩ |
    ⟨call, token, text, -, -, -, rfl⟩ | ⟨call, token, text, error, rfl, -, -, rfl⟩ | hquiet
  · exact Or.inl (hrun (p.addPress text) text p.history.presses.length now rfl)
  · exact Or.inl (hrun { p with retries := p.retries.erase retry } retry.text retry.press now rfl)
  · by_cases hcall : c = call
    · subst hcall
      exact Or.inr (Or.inl (List.mem_append_right _ (List.mem_singleton_self _)))
    · exact Or.inl (mem_creates_erase hc hcall)
  · by_cases hcall : c = call
    · subst hcall
      exact Or.inr (Or.inr ⟨error, rfl⟩)
    · exact Or.inl (mem_creates_erase hc hcall)
  · rw [hquiet.pending]
    exact Or.inl hc

/-- An acknowledged press stays acknowledged. -/
theorem acknowledged_step (h : p.step P e = some p') :
    p.history.acknowledged ⊆ p'.history.acknowledged := by
  rcases step_posts h with ⟨text, now, -, rfl⟩ | ⟨retry, now, -, -, rfl⟩ |
    ⟨call, token, text, -, -, -, rfl⟩ | ⟨call, token, text, error, -, -, -, rfl⟩ | hquiet
  · have hput := createThoughtAction_putOn P text p.history.presses.length now (p.addPress text)
    rw [postThoughtPressed_eq, hput.acknowledged]
    exact List.Subset.refl _
  · have hput := createThoughtAction_putOn P retry.text retry.press now
      { p with retries := p.retries.erase retry }
    rw [hput.acknowledged]
    exact List.Subset.refl _
  · exact List.subset_append_left _ _
  · exact List.Subset.refl _
  · rw [hquiet.acknowledged]
    exact List.Subset.refl _

/-! ## Sessions -/

/-- The session says who the current user is. -/
theorem currentUser_eq_of_session (h : p'.session = p.session) :
    p'.currentUser = p.currentUser := by
  have hid : p'.state.authState.currentUserId = p.state.authState.currentUserId :=
    congrArg Session.currentUserId h
  have husers : p'.realm.users = p.realm.users := congrArg Session.users h
  simp only [currentUser, AuthState.currentUser, hid, Realm.findUser, husers]

theorem loggedIn_iff (p : Process) : p.loggedIn = true ↔ ∃ user, p.currentUser = some user := by
  rw [← Option.isSome_iff_exists]
  simp [loggedIn, AuthState.loggedIn, AuthState.jwtToken, currentUser]

/-- The current user is stored, under the current id. -/
theorem mem_of_currentUser {user : User} (h : p.currentUser = some user) :
    user ∈ p.realm.users.rows ∧ p.state.authState.currentUserId = some user.id := by
  obtain ⟨id, hid, hfind⟩ := Option.bind_eq_some_iff.mp h
  obtain ⟨hmem, rfl⟩ := KeyedTable.find_eq_some.mp hfind
  exact ⟨hmem, hid⟩

/-- A step keeps the session, or it starts a new one: a logout, or a successful
    authentication response, which stores the user it names. -/
theorem session_step (h : p.step P e = some p') :
    (p'.history.session = p.history.session ∧ p'.session = p.session) ∨
    (p'.history.session = p.history.session + 1 ∧ e = .logoutSegue ∧
      p'.session = ⟨none, .empty⟩) ∨
    (p'.history.session = p.history.session + 1 ∧ ∃ call body username token id,
      e = .authSucceeded call body ∧ call ∈ p.pending ∧
      username? call.request = some username ∧
      Json.stringField body.jsonDict "auth_token" = some token ∧
      Json.intField body.jsonDict "user_id" = some id ∧
      p'.session = ⟨some id, p.realm.users.upsert
        { username := P.lowercased username, id, jwtToken := token }⟩) := by
  cases e with
  | loginPressed username password =>
    cases h
    left
    simp [session, loginAction, noteAuthAct]
  | registerPressed username password =>
    cases h
    left
    simp [session, createUserAction, noteAuthAct]
  | logoutSegue =>
    -- a new session of nobody, in an empty Realm
    cases h
    right; left
    simp [logoutAction, noteSession, noteAuthAct, session]
  -- a Post and a retry may save a Thought, which is no part of the session
  | postThoughtPressed text now =>
    cases h
    left
    have hposting := createThoughtAction_posting P text p.history.presses.length now
      (p.addPress text)
    exact ⟨hposting.number, hposting.session_eq⟩
  | authSucceeded call body =>
    obtain ⟨hmem, username, huser, rfl⟩ := step_authSucceeded.mp h
    unfold authSuccess
    split
    · left
      simp [session]
    · rename_i token htoken
      split
      · left
        simp [session]
      · rename_i id hid
        -- only a response with a token and an id starts a session
        right; right
        refine ⟨by simp [noteSession], call, body, username, token, id, rfl, hmem, huser, htoken,
          hid, ?_⟩
        simp [session, noteSession]
  | authFailed call error =>
    obtain ⟨-, -, rfl⟩ := step_authFailed.mp h
    left
    simp [session, authFailure]
  -- merging adds Thoughts, and no User
  | fetchSucceeded call body =>
    obtain ⟨-, -, realm, hmerge, rfl⟩ := step_fetchSucceeded.mp h
    obtain ⟨vs, -, rfl⟩ := mergeElements_eq_some.mp hmerge
    left
    simp [session]
  | retryFired retry now =>
    simp only [step, Option.ite_none_right_eq_some, Option.some.injEq] at h
    obtain ⟨-, rfl⟩ := h
    have hposting := createThoughtAction_posting P retry.text retry.press now
      { p with retries := p.retries.erase retry }
    exact Or.inl ⟨hposting.number, hposting.session_eq⟩
  | notified change =>
    left
    rcases observe_cases h with ⟨results, -, -, -, rfl⟩ |
      ⟨old, results, d, i, m, -, -, -, -, rfl⟩ | ⟨error, -, -, rfl⟩
    · simp [session]
    · split <;> simp [session]
    · simp [session]
  -- the rest is idle
  | _ =>
    have hidle := idle_step rfl h
    exact Or.inl ⟨hidle.number, hidle.session_eq⟩

/-- A stored user was stored before, or comes from the response that is processed. -/
theorem users_step (h : p.step P e = some p') {u : User} (hu : u ∈ p'.realm.users.rows) :
    u ∈ p.realm.users.rows ∨ ∃ call body username, e = .authSucceeded call body ∧
      username? call.request = some username ∧ u.username = P.lowercased username ∧
      Json.stringField body.jsonDict "auth_token" = some u.jwtToken ∧
      Json.intField body.jsonDict "user_id" = some u.id := by
  have husers : p'.realm.users = p'.session.users := rfl
  rw [husers] at hu
  -- the users change with the session only
  rcases session_step h with ⟨-, hsession⟩ | ⟨-, -, hsession⟩ |
    ⟨-, call, body, username, token, id, rfl, -, huser, htoken, hid, hsession⟩
  · rw [hsession] at hu
    exact Or.inl hu
  -- a logout leaves none
  · rw [hsession] at hu
    cases hu
  · rw [hsession] at hu
    -- the upsert puts one User in, and keeps others
    rcases KeyedTable.mem_upsert.mp hu with rfl | ⟨hu, -⟩
    · exact Or.inr ⟨call, body, username, rfl, huser, rfl, htoken, hid⟩
    · exact Or.inl hu

theorem session_le_step (h : p.step P e = some p') : p.history.session ≤ p'.history.session := by
  rcases session_step h with ⟨heq, -⟩ | ⟨heq, -⟩ | ⟨heq, -⟩ <;> omega

/-- No step drops a press while a user is logged in. -/
theorem dropped_step (hin : p.loggedIn = true) (h : p.step P e = some p') :
    p'.history.dropped = p.history.dropped := by
  obtain ⟨user, huser⟩ := (loggedIn_iff p).mp hin
  -- with a current user the guards of `createThoughtAction` pass
  have hkeep : ∀ (q : Process) (text : String) (press : Nat) (now : Date),
      q.currentUser = some user →
        (q.createThoughtAction P text press now).history.dropped = q.history.dropped := by
    intro q text press now hq
    obtain ⟨saved, hhistory, -⟩ := (createThoughtAction_sends P text press now hq).history
    rw [hhistory]
  -- only a press and a retry run it
  rcases step_posts h with ⟨text, now, -, rfl⟩ | ⟨retry, now, -, -, rfl⟩ |
    ⟨call, token, text, -, -, -, rfl⟩ | ⟨call, token, text, error, -, -, -, rfl⟩ | hquiet
  · exact hkeep (p.addPress text) text _ now huser
  · exact hkeep { p with retries := p.retries.erase retry } retry.text retry.press now huser
  · rfl
  · rfl
  · exact hquiet.dropped

/-- A press that waits while a user is logged in goes on waiting, or is acknowledged. -/
theorem waiting_step {user : User} (huser : p.currentUser = some user) (h : p.step P e = some p')
    {k : Nat} (hk : k ∈ p.outstanding ∨ k ∈ p.scheduled) :
    k ∈ p'.outstanding ∨ k ∈ p'.scheduled ∨
      ∃ call, e = .createSucceeded call ∧ call ∈ creates p.pending ∧ call.origin = k := by
  -- completing a request keeps the other requests outstanding
  have hcomplete : ∀ call, k ∈ p.outstanding → call.origin ≠ k →
      k ∈ (p.complete call).outstanding := by
    intro call hout hne
    obtain ⟨c, hc, rfl⟩ := List.mem_map.mp hout
    have hcall : c ≠ call := fun heq => hne (by rw [heq])
    exact List.mem_map_of_mem (mem_creates_erase hc hcall)
  rcases step_posts h with ⟨text, now, -, rfl⟩ | ⟨retry, now, -, hretry, rfl⟩ |
    ⟨call, token, text, rfl, hmem, hreq, rfl⟩ | ⟨call, token, text, error, -, hmem, hreq, rfl⟩ |
    hquiet
  -- a new press joins the piles
  · have hsends := createThoughtAction_sends P text p.history.presses.length now
      (p := p.addPress text) huser
    cases hk with
    | inl hout =>
      left
      rw [postThoughtPressed_eq, outstanding, hsends.pending, List.map_append]
      exact List.mem_append_left _ hout
    | inr hsched =>
      right; left
      rw [postThoughtPressed_eq, scheduled, hsends.retries]
      exact hsched
  -- a retry goes from the schedule to the outstanding requests
  · have hsends := createThoughtAction_sends P retry.text retry.press now
      (p := { p with retries := p.retries.erase retry }) huser
    cases hk with
    | inl hout =>
      left
      rw [outstanding, hsends.pending, List.map_append]
      exact List.mem_append_left _ hout
    | inr hsched =>
      obtain ⟨r, hr, rfl⟩ := List.mem_map.mp hsched
      by_cases heq : r = retry
      · left
        rw [outstanding, hsends.pending, List.map_append, heq]
        exact List.mem_append_right _ (List.mem_singleton_self _)
      · right; left
        rw [scheduled, hsends.retries]
        exact List.mem_map_of_mem ((List.mem_erase_of_ne heq).mpr hr)
  -- the request that succeeded may be the one of the press
  · rcases hk with hout | hsched
    · by_cases horigin : call.origin = k
      · exact Or.inr (Or.inr ⟨call, rfl, mem_creates.mpr ⟨hmem, by rw [hreq]; rfl⟩, horigin⟩)
      · exact Or.inl (hcomplete call hout horigin)
    · exact Or.inr (Or.inl hsched)
  · -- the press of the failed request is scheduled now
    have hsched' : ((p.complete call).createFailure call.origin text error).scheduled =
        p.scheduled ++ [call.origin] := by
      simp [scheduled, createFailure]
    cases hk with
    | inl hout =>
      by_cases horigin : call.origin = k
      · right; left
        rw [hsched', horigin]
        exact List.mem_append_right _ (List.mem_singleton_self _)
      · exact Or.inl (hcomplete call hout horigin)
    | inr hsched =>
      right; left
      rw [hsched']
      exact List.mem_append_left _ hsched
  -- neither pile has changed
  · unfold outstanding scheduled at *
    rw [hquiet.pending, hquiet.retries]
    cases hk with
    | inl hout =>
      exact Or.inl hout
    | inr hsched =>
      exact Or.inr (Or.inl hsched)

end Process

end ReactiveDemo
