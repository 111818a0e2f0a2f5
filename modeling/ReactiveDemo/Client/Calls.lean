import ReactiveDemo.Client.Frame

/-!
# The requests a callback starts

Requests are numbered in the order in which they are started. A callback starts requests
after those that are pending; the callback of a response first takes its own request off.

## Key results

- `step_issued_local`, `step_issued_response`: what a callback does to the pending requests
- `Numbered.step`: no two pending requests have the same number
-/

namespace ReactiveDemo.Process

/-- From `p` to `q` requests are started, with the next numbers. -/
def Issued (p q : Process) : Prop :=
  ∃ new : List Call, q.pending = p.pending ++ new ∧
    new.map Call.id = List.range' p.nextCall new.length ∧ q.nextCall = p.nextCall + new.length

theorem Issued.none {p q : Process} (hpending : q.pending = p.pending)
    (hnext : q.nextCall = p.nextCall) : Issued p q :=
  ⟨[], by rw [hpending, List.append_nil], rfl, hnext⟩

theorem Issued.refl (p : Process) : Issued p p := .none rfl rfl

theorem Issued.trans {p q r : Process} (hpq : Issued p q) (hqr : Issued q r) : Issued p r := by
  obtain ⟨new, hpending, hids, hnext⟩ := hpq
  obtain ⟨new', hpending', hids', hnext'⟩ := hqr
  refine ⟨new ++ new', ?_, ?_, ?_⟩
  · rw [hpending', hpending, List.append_assoc]
  · rw [List.map_append, hids, hids', hnext, List.length_append, List.range'_append_1]
  · rw [hnext', hnext, List.length_append, Nat.add_assoc]

/-- Only the pending requests and the next number matter. -/
theorem Issued.congr {p q p' q' : Process} (h : Issued p q) (hp : p'.pending = p.pending)
    (hpnext : p'.nextCall = p.nextCall) (hq : q'.pending = q.pending)
    (hqnext : q'.nextCall = q.nextCall) : Issued p' q' := by
  unfold Issued at h ⊢
  rw [hp, hpnext, hq, hqnext]
  exact h

theorem send_issued (request : Request) (origin : Nat) (p : Process) :
    Issued p (p.send request origin) :=
  ⟨[⟨p.nextCall, request, origin⟩], rfl, rfl, rfl⟩

theorem fetchThoughtsAction_issued (p : Process) : Issued p p.fetchThoughtsAction := by
  rw [fetchThoughtsAction_eq]
  cases p.jwtToken with
  | none => exact .refl p
  | some token => exact send_issued _ _ p

theorem startPollingForThoughts_issued (p : Process) : Issued p p.startPollingForThoughts := by
  unfold startPollingForThoughts
  split
  · exact .refl p
  · exact (Issued.none rfl rfl).trans (fetchThoughtsAction_issued _)

theorem syncNewState_issued (p : Process) : Issued p p.syncNewState := by
  unfold syncNewState
  split
  · exact startPollingForThoughts_issued p
  · exact .none rfl rfl

/-- What a dispatch starts are the fetches of the sync service, numbered in their order. -/
theorem dispatch_issued (a : Action) (p : Process) : Issued p (p.dispatch a) := by
  have hsync : Issued p ((p.reduce a).notifySync p.state) := by
    refine Issued.trans (.none rfl rfl) (q := p.reduce a) ?_
    unfold notifySync
    split
    · exact .refl _
    · exact syncNewState_issued _
  -- the screen starts no request
  refine hsync.congr rfl rfl ?_ ?_
  · rw [dispatch, notifyScreen_eq]
  · rw [dispatch, notifyScreen_eq]

theorem launch_issued (r : Realm) : Issued { realm := r, state := loadAppState r } (launch r) := by
  have hsync := syncNewState_issued { realm := r, state := loadAppState r }
  simp only [launch]
  split
  · exact hsync.trans (startPollingForThoughts_issued _)
  · exact hsync

/-- A Post starts at most one request. -/
theorem createThoughtAction_issued (P : Platform) (text : String) (press : Nat) (now : Date)
    (p : Process) : Issued p (p.createThoughtAction P text press now) := by
  simp only [createThoughtAction, reduce_createThought]
  split
  -- without a session nothing is sent
  · exact .none rfl rfl
  · split
    · exact .none rfl rfl
    · -- the Thought is stored first, or not
      refine Issued.trans ?_ (send_issued _ _ _)
      unfold persistThought
      split <;> exact .none rfl rfl

/-- What both authentication thunks do. -/
theorem authenticate_issued (p : Process) (request : Request) (origin : Nat) :
    Issued p ((p.noteAuthAct.dispatch (.authProgress .loading)).send request origin) :=
  have hnote : Issued p p.noteAuthAct := .none rfl rfl
  hnote.trans ((dispatch_issued _ _).trans (send_issued _ _ _))

theorem authSuccess_issued (P : Platform) (json : List (String × Json)) (username : String)
    (p : Process) : Issued p (p.authSuccess P json username) := by
  unfold authSuccess
  split
  · exact dispatch_issued _ p
  · split
    · exact dispatch_issued _ p
    · exact (Issued.none rfl rfl).trans (dispatch_issued _ _)

/-- A notification starts what its dispatch starts. -/
theorem observe_issued {change : Change} {p p' : Process} (h : p.observe change = some p') :
    Issued p p' := by
  -- moving the observer on starts nothing
  rcases observe_cases h with ⟨results, -, -, -, rfl⟩ | ⟨old, results, d, i, m, -, -, -, -, rfl⟩ |
    ⟨error, -, -, rfl⟩
  · exact (Issued.none rfl rfl).trans (dispatch_issued _ _)
  · split
    · exact (Issued.none rfl rfl).trans (dispatch_issued _ _)
    · exact .none rfl rfl
  · exact (Issued.none rfl rfl).trans (dispatch_issued _ _)

end Process

/-- The request whose callback the event is. -/
def Event.call? : Event → Option Call
  | .authSucceeded call _ | .authFailed call _ | .createSucceeded call | .createFailed call _
  | .fetchSucceeded call _ | .fetchFailed call _ => some call
  | _ => none

namespace Process

variable {P : Platform} {p p' : Process}

/-- A callback that is no response starts requests. -/
theorem step_issued_local {e : Event} (he : e.call? = none) (h : p.step P e = some p') :
    Issued p p' := by
  cases e with
  | loginPressed username password =>
    cases h
    -- one request, after the fetches of the dispatch
    exact authenticate_issued p _ _
  | registerPressed username password =>
    cases h
    exact authenticate_issued p _ _
  | logoutSegue =>
    cases h
    exact (Issued.none rfl rfl).trans (dispatch_issued _ _)
  | postThoughtPressed text now =>
    cases h
    -- the press is noted before its action runs
    exact (Issued.none rfl rfl).trans (createThoughtAction_issued P text _ now _)
  | retryFired retry now =>
    simp only [step, Option.ite_none_right_eq_some, Option.some.injEq] at h
    obtain ⟨-, rfl⟩ := h
    -- the retry is taken off the schedule before
    exact (Issued.none rfl rfl).trans (createThoughtAction_issued P _ _ now _)
  | timerFired =>
    simp only [step, Option.ite_none_right_eq_some, Option.some.injEq] at h
    obtain ⟨-, rfl⟩ := h
    exact fetchThoughtsAction_issued p
  | notified change => exact observe_issued h
  -- the screen sends nothing
  | viewDidLoad =>
    cases h
    exact .none rfl rfl
  | layoutTable =>
    simp only [step, Option.ite_none_left_eq_some, Option.some.injEq] at h
    obtain ⟨-, rfl⟩ := h
    exact .none rfl rfl
  | viewDidAppear =>
    simp only [step, Option.ite_none_right_eq_some, Option.some.injEq] at h
    obtain ⟨-, rfl⟩ := h
    exact .none rfl rfl
  | viewDidDisappear =>
    cases h
    exact .none rfl rfl
  | _ => cases he

/-- The callback of a response takes its request off, and starts requests. -/
theorem step_issued_response {e : Event} {call : Call} (he : e.call? = some call)
    (h : p.step P e = some p') : call ∈ p.pending ∧ Issued (p.complete call) p' := by
  cases e with
  | authSucceeded c body =>
    cases he
    obtain ⟨hmem, username, -, rfl⟩ := step_authSucceeded.mp h
    exact ⟨hmem, authSuccess_issued P _ username _⟩
  | authFailed c error =>
    cases he
    obtain ⟨hmem, -, rfl⟩ := step_authFailed.mp h
    exact ⟨hmem, dispatch_issued _ _⟩
  | createSucceeded c =>
    cases he
    obtain ⟨hmem, token, text, -, rfl⟩ := step_createSucceeded.mp h
    -- a post that arrived, or failed, starts nothing at once: a retry is only scheduled
    exact ⟨hmem, .none rfl rfl⟩
  | createFailed c error =>
    cases he
    obtain ⟨hmem, token, text, -, rfl⟩ := step_createFailed.mp h
    exact ⟨hmem, .none rfl rfl⟩
  | fetchSucceeded c body =>
    cases he
    obtain ⟨hmem, -, realm, -, rfl⟩ := step_fetchSucceeded.mp h
    exact ⟨hmem, .none rfl rfl⟩
  | fetchFailed c error =>
    cases he
    obtain ⟨hmem, -, rfl⟩ := step_fetchFailed.mp h
    exact ⟨hmem, .none rfl rfl⟩
  -- the others are no responses
  | _ => cases he

/-! ## The numbers of pending requests -/

/-- The pending requests have different numbers, given out already. -/
structure Numbered (p : Process) : Prop where
  nodup : (p.pending.map Call.id).Nodup
  lt : ∀ call ∈ p.pending, call.id < p.nextCall

/-- New requests are numbered from `nextCall` on, so numbers stay unique and below the next
    one. -/
theorem Numbered.issued (h : p.Numbered) (hissued : Issued p p') : p'.Numbered := by
  obtain ⟨new, hpending, hids, hnext⟩ := hissued
  -- the new numbers are the range that begins at `nextCall`
  have hnew : ∀ call ∈ new, p.nextCall ≤ call.id ∧ call.id < p.nextCall + new.length := by
    intro call hcall
    have hid := List.mem_map_of_mem (f := Call.id) hcall
    rw [hids, List.mem_range'_1] at hid
    exact hid
  constructor
  · rw [hpending, List.map_append]
    -- old numbers are below it, new ones are not
    refine h.nodup.append (hids ▸ List.nodup_range' ..) ?_
    intro id hold hid
    obtain ⟨call, hcall, rfl⟩ := List.mem_map.mp hold
    obtain ⟨call', hcall', heq⟩ := List.mem_map.mp hid
    have := h.lt call hcall
    have := (hnew call' hcall').1
    omega
  · intro call hcall
    rw [hpending] at hcall
    rw [hnext]
    cases List.mem_append.mp hcall with
    | inl hold => exact Nat.lt_add_right _ (h.lt call hold)
    | inr hmem => exact (hnew call hmem).2

theorem Numbered.complete (h : p.Numbered) (call : Call) : (p.complete call).Numbered where
  nodup := h.nodup.sublist (List.erase_sublist.map Call.id)
  lt c hc := h.lt c (List.mem_of_mem_erase hc)

theorem Numbered.step {e : Event} (h : p.Numbered) (hstep : p.step P e = some p') :
    p'.Numbered := by
  cases he : e.call? with
  | none => exact h.issued (step_issued_local he hstep)
  | some call => exact (h.complete call).issued (step_issued_response he hstep).2

theorem numbered_launch (r : Realm) : (launch r).Numbered := by
  refine Numbered.issued ⟨?_, ?_⟩ (launch_issued r)
  · exact List.nodup_nil
  · exact fun call hcall => by cases hcall

/-- The requests that a callback started are those with numbers from `n` on. -/
def startedFrom (n : Nat) (p : Process) : List Call := p.pending.filter fun call => n ≤ call.id

/-- They come after those that were pending. -/
theorem pending_eq_startedFrom (h : p.Numbered) (hissued : Issued p p') :
    p'.pending = p.pending ++ startedFrom p.nextCall p' := by
  obtain ⟨new, hpending, hids, -⟩ := hissued
  have hold : p.pending.filter (fun call => p.nextCall ≤ call.id) = [] := by
    rw [List.filter_eq_nil_iff]
    intro call hcall
    have := h.lt call hcall
    simpa using this
  have hnew : new.filter (fun call => p.nextCall ≤ call.id) = new := by
    rw [List.filter_eq_self]
    intro call hcall
    have hid := List.mem_map_of_mem (f := Call.id) hcall
    rw [hids, List.mem_range'_1] at hid
    exact decide_eq_true hid.1
  rw [startedFrom, hpending, List.filter_append, hold, hnew, List.nil_append]

end Process

end ReactiveDemo
