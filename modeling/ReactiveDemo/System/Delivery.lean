import ReactiveDemo.System.Feed
import ReactiveDemo.System.Stack
import ReactiveDemo.System.Tokens

/-!
# What the network may do

The steps of `World` are all that Siesta, its queues and the networking provider can make
the client see.

## Key results

- `Stack.refines_world`: a run of the client, Siesta and the server is a run of `World`
- `Stack.reported_once`: a request runs at most one of its callbacks, and at most once
- `Stack.answered_reports`: a request that was answered reports, without anybody else's help
- `World.report_possible`: the client does not trap on what the server sends
-/

namespace ReactiveDemo.Stack

open Transition Server

variable {Data : Type} {F : Foundation Data} {G : Gems} {P : Platform} {s s' : Stack Data}

/-- The system `w` is what is left of `s` without Siesta. -/
structure Shows (s : Stack Data) (w : World) : Prop where
  client : w.client = s.client
  db : w.db = s.db
  inbox : w.inbox = s.inbox

/-- What was called, was called with the response that completed the request. -/
theorem completedValue_of_mem {r : Wire Data} (hr : r.Sound F.delegate)
    {c : Hook × Siesta.ResponseInfo Data Parsed} (hc : c ∈ r.called) :
    r.completedValue = some c.2 := by
  cases hvalue : r.completedValue with
  | none =>
    rw [((Siesta.LiveRequest.pays_of_waiting hvalue).mp hr.pays).1] at hc
    cases hc
  | some info =>
    have hmem := (Siesta.LiveRequest.called_prefix hr.pays hvalue).subset hc
    obtain ⟨hook, -, heq⟩ := List.mem_map.mp hmem
    rw [← heq]

/-- A success that a request reports is one of the server. -/
theorem Linked.reply_of_success {call : Call} {r : Wire Data} (h : Linked F s.inbox call r)
    (hcarries : ∀ reply ∈ s.inbox, F.Carries reply.outcome)
    {info : Siesta.ResponseInfo Data Parsed} (hvalue : r.completedValue = some info)
    {entity : Siesta.Entity Data Parsed} (hinfo : info.response = .success entity) :
    ∃ (index : Nat) (response : Response) (mark : Nat),
      s.inbox[index]? = some ⟨call, .ok response, mark⟩ ∧ response.status < 400 ∧
        jsonOf entity.content = response.body := by
  cases h.sound.genuine.completed info hvalue with
  | inr hcancelled =>
    rw [h.kept] at hcancelled
    cases hcancelled.1
  | inl hnetwork =>
    obtain ⟨c, hc, rfl⟩ := hnetwork
    cases h.heard c hc with
    | inl herror =>
      -- an error of the provider is no success
      obtain ⟨error, heq, -⟩ := Foundation.response_of_isError (F := F) (.inr herror)
      rw [heq] at hinfo
      cases hinfo
    | inr hreply =>
      obtain ⟨⟨call', outcome, mark⟩, hmem, rfl, rfl⟩ := hreply
      obtain ⟨index, hindex⟩ := List.mem_iff_getElem?.mp hmem
      obtain ⟨response, rfl, hstatus, hbody⟩ :=
        Foundation.success_of_completion (hcarries _ hmem) hinfo
      exact ⟨index, response, mark, hindex, hstatus, hbody⟩

/-- A callback that runs is a report of the network. -/
theorem Linked.reports {call : Call} {r : Wire Data} (h : Linked F s.inbox call r)
    (hcarries : ∀ reply ∈ s.inbox, F.Carries reply.outcome) {e : Event}
    (he : e ∈ callbacks call r.called) {w : World} (hw : Shows s w) {client : Process}
    (hstep : s.client.step P e = some client) :
    ∃ a w', w.step G P a = some w' ∧ w'.client = client ∧ w'.db = w.db ∧ w'.inbox = w.inbox := by
  obtain ⟨⟨hook, info⟩, hc, hcallback⟩ := List.mem_filterMap.mp he
  have hvalue := completedValue_of_mem h.sound hc
  rw [← hw.client] at hstep
  unfold callback? at hcallback
  -- which of the callbacks ran, and with what
  split at hcallback
  · next entity _ hinfo =>
    cases hcallback
    -- a success was in the network, and has the body of its reply
    obtain ⟨index, response, mark, hindex, hstatus, hbody⟩ :=
      h.reply_of_success hcarries hvalue hinfo
    rw [hbody] at hstep
    rw [← hw.inbox] at hindex
    let merged := if Process.isFetch call.request then w.merged ++ [mark] else w.merged
    refine ⟨.succeed index, { w with client, merged }, ?_, rfl, rfl, rfl⟩
    simp only [World.step, hindex, if_pos hstatus, hstep, Option.map_some]
    rfl
  · next error _ hinfo =>
    cases hcallback
    -- a failure may be reported at any time
    refine ⟨.fail call ⟨error.entity.map fun e => jsonOf e.content, error.userMessage⟩,
      { w with client }, ?_, rfl, rfl, rfl⟩
    simp only [World.step, hstep, Option.map_some]
  · cases hcallback

/-! ## Steps -/

theorem inbox_complete {index : Nat} {call : Call} {r : Wire Data} {c : Siesta.Completion Data}
    (h : s.complete F index call r c = some s') : s'.inbox = s.inbox := by
  simp only [Stack.complete, Option.map_eq_some_iff] at h
  obtain ⟨r', -, rfl⟩ := h
  rfl

/-- Replies stay; the server adds its answers. -/
theorem inbox_step {a : Act Data} (hs : s.step F G P a = some s') :
    s'.inbox = s.inbox ∨ ∃ call env mark,
      s'.inbox = s.inbox ++ [⟨call, (handle G env call.request.http s.db).1, mark⟩] := by
  cases a with
  | client e =>
    simp only [Stack.step, Option.ite_none_right_eq_some, Option.map_eq_some_iff] at hs
    obtain ⟨-, client, -, rfl⟩ := hs
    exact .inl rfl
  | serve call env =>
    simp only [Stack.step, Option.ite_none_right_eq_some, Option.some.injEq] at hs
    obtain ⟨-, rfl⟩ := hs
    exact .inr ⟨call, env, _, rfl⟩
  | other env request =>
    cases hs
    exact .inl rfl
  -- passing on a reply, or an error, takes no reply away
  | respond index reply =>
    simp only [Stack.step] at hs
    split at hs
    · split at hs
      · exact .inl (inbox_complete hs)
      · cases hs
    · cases hs
  | lose index completion =>
    simp only [Stack.step] at hs
    split at hs
    · split at hs
      · exact .inl (inbox_complete hs)
      · cases hs
    · cases hs
  | queue index e =>
    simp only [Stack.step] at hs
    split at hs
    · split at hs
      · simp only [Stack.runQueue, Option.bind_eq_some_iff, Option.map_eq_some_iff] at hs
        obtain ⟨r', -, client, -, rfl⟩ := hs
        -- callbacks run on the client only
        exact .inl rfl
      · cases hs
    · cases hs

theorem inbox_subset_step {a : Act Data} (hs : s.step F G P a = some s') : s.inbox ⊆ s'.inbox := by
  rcases inbox_step hs with hsame | ⟨call, env, mark, hmore⟩
  · exact hsame ▸ List.Subset.refl _
  · exact hmore ▸ List.subset_append_left _ _

/-- One step of the stack is one step of `World`, or none that the client or the server
    sees. -/
theorem step_refines {a : Act Data} (h : Wired F s)
    (hcarries : ∀ reply ∈ s.inbox, F.Carries reply.outcome) {w : World} (hw : Shows s w)
    (hs : s.step F G P a = some s') :
    ∃ acts w', run (World.step G P) w acts = some w' ∧ Shows s' w' := by
  -- what happens inside Siesta is no step of `World`
  have hsilent : ∀ index call r c, s.complete F index call r c = some s' →
      ∃ acts w', run (World.step G P) w acts = some w' ∧ Shows s' w' := by
    intro index call r c hcomplete
    simp only [Stack.complete, Option.map_eq_some_iff] at hcomplete
    obtain ⟨r', -, rfl⟩ := hcomplete
    exact ⟨[], w, rfl, hw.client, hw.db, hw.inbox⟩
  cases a with
  | client e =>
    simp only [Stack.step, Option.ite_none_right_eq_some, Option.map_eq_some_iff] at hs
    obtain ⟨hlocal, client, hclient, rfl⟩ := hs
    rw [← hw.client] at hclient
    let merged := if e.isLogout then [] else w.merged
    refine ⟨[.client e], { w with client, merged }, ?_, rfl, hw.db, hw.inbox⟩
    simp only [run, World.step, if_pos hlocal, hclient, Option.map_some, Option.bind_some]
    rfl
  | serve call env =>
    simp only [Stack.step, Option.ite_none_right_eq_some, Option.some.injEq] at hs
    obtain ⟨hmem, rfl⟩ := hs
    rw [← hw.client] at hmem
    refine ⟨[.serve call env], w.serve G call env, ?_, ?_, ?_, ?_⟩
    · simp only [run, World.step, if_pos hmem, Option.bind_some]
    · simp only [World.serve, hw.client]
    · simp only [World.serve, hw.db]
    · simp only [World.serve, hw.db, hw.inbox]
  | other env request =>
    cases hs
    refine ⟨[.other env request], { w with db := (handle G env request w.db).2 }, rfl,
      hw.client, ?_, hw.inbox⟩
    simp only [hw.db]
  | respond index reply =>
    simp only [Stack.step] at hs
    split at hs
    · split at hs
      · exact hsilent _ _ _ _ hs
      · cases hs
    · cases hs
  | lose index completion =>
    simp only [Stack.step] at hs
    split at hs
    · split at hs
      · exact hsilent _ _ _ _ hs
      · cases hs
    · cases hs
  | queue index e =>
    simp only [Stack.step] at hs
    split at hs
    · next call r hget =>
      split at hs
      · next he =>
        simp only [Stack.runQueue, Option.bind_eq_some_iff, Option.map_eq_some_iff] at hs
        obtain ⟨r', hr', client, hrun, rfl⟩ := hs
        have hlinked := (h.tracked _ (List.mem_of_getElem? hget)).toLinked.queue he hr'
        obtain ⟨-, -, -, hgrows⟩ := Siesta.LiveRequest.queue_step he hr'
        rcases callbacks_drop hlinked.sound hlinked.hooks hgrows call with
          ⟨-, hnew⟩ | ⟨-, event, -, hone, hnew⟩
        -- no callback of the app ran
        · rw [hnew, run_nil, Option.some.injEq] at hrun
          subst hrun
          exact ⟨[], w, rfl, hw.client, hw.db, hw.inbox⟩
        -- one did: the report is the step
        · rw [hnew, run_cons_eq_some] at hrun
          obtain ⟨client', hstep, hrest⟩ := hrun
          cases hrest
          have hevent : event ∈ callbacks call r'.called := by
            rw [hone]
            exact List.mem_singleton_self event
          obtain ⟨a, w', hw', hclient, hdb, hinbox⟩ := hlinked.reports hcarries hevent hw hstep
          exact ⟨[a], w', run_cons_eq_some.mpr ⟨w', hw', run_nil w'⟩, hclient,
            hdb.trans hw.db, hinbox.trans hw.inbox⟩
      · cases hs
    · cases hs

/-- Whatever the queues and the networking provider do, the client and the server go through
    a run of `World`, if the JSON of the replies is read as it was written. -/
theorem refines_world {r : Realm} {db : Database} {acts : List (Act Data)}
    (h : run (step F G P) (start r db) acts = some s)
    (hcarries : ∀ reply ∈ s.inbox, F.Carries reply.outcome) :
    ∃ acts' w, run (World.step G P) (World.start r db) acts' = some w ∧
      w.client = s.client ∧ w.db = s.db ∧ w.inbox = s.inbox := by
  let I (s : Stack Data) : Prop := Wired F s ∧ ((∀ reply ∈ s.inbox, F.Carries reply.outcome) →
    ∃ acts' w, run (World.step G P) (World.start r db) acts' = some w ∧ Shows s w)
  have hI : I s := by
    refine run_invariant (I := I) (fun s a s' hs hstep => ⟨hs.1.step hstep, fun hcarries => ?_⟩)
      ⟨wired_start r db, fun _ => ⟨[], World.start r db, rfl, rfl, rfl, rfl⟩⟩ h
    -- the replies so far are among those in the end
    have hbefore : ∀ reply ∈ s.inbox, F.Carries reply.outcome :=
      fun reply hreply => hcarries reply (inbox_subset_step hstep hreply)
    obtain ⟨acts', w, hrun, hw⟩ := hs.2 hbefore
    obtain ⟨more, w', hmore, hw'⟩ := step_refines hs.1 hbefore hw hstep
    exact ⟨acts' ++ more, w', run_append_eq_some.mpr ⟨w, hrun, hmore⟩, hw'⟩
  obtain ⟨acts', w, hrun, hw⟩ := hI.2 hcarries
  exact ⟨acts', w, hrun, hw.client, hw.db, hw.inbox⟩

/-- On a fresh installation ann registers; the provider reports the reply twice. -/
def twiceReported : List (Act (Option Json)) :=
  [.client (.registerPressed "ann" "secret"),
   .serve ⟨0, .signUp "ann" "secret", 1⟩ (sampleEnv 0),
   .respond 0 0, .respond 0 0,
   .queue 0 .runMain, .queue 0 .runMain,
   .queue 0 (.processed 1), .queue 0 (.processed 0),
   .queue 0 .runMain, .queue 0 .runMain, .queue 0 .runMain]

/-- Ann is logged in, as in `World`. -/
theorem refines_world_twiceReported : ∃ s acts' w,
    run (step .reference .reference .ascii) (start .new .empty) twiceReported = some s ∧
    run (World.step .reference .ascii) (World.start .new .empty) acts' = some w ∧
    w.client = s.client ∧ s.client.loggedIn = true := by
  obtain ⟨s, hrun, hs⟩ := exists_run_of_any (step .reference .reference .ascii)
    (start .new .empty) twiceReported (fun s => s.client.loggedIn) (by decide +kernel)
  obtain ⟨acts', w, hworld, hclient, -⟩ :=
    refines_world hrun fun reply _ => Foundation.carries_reference reply.outcome
  exact ⟨s, acts', w, hrun, hworld, hclient, hs⟩

/-- Every pending request of the client is in Siesta's hands. A request runs at most one of the
    app's callbacks, at most once, and is pending until then; once it was answered and nothing
    of it is left on the queues, it has run one. -/
theorem reported_once {r : Realm} {db : Database} {acts : List (Act Data)}
    (h : run (step F G P) (start r db) acts = some s) :
    (∀ call ∈ s.client.pending, ∃ w, (call, w) ∈ s.requests) ∧
    ∀ call w, (call, w) ∈ s.requests →
      (callbacks call w.called).length ≤ 1 ∧
      (call ∈ s.client.pending ↔ callbacks call w.called = []) ∧
      (w.received ≠ [] → w.Quiet → (callbacks call w.called).length = 1) := by
  have hwired : Wired F s := wired_run h
  refine ⟨fun call hcall => ?_, fun call w hw => ?_⟩
  · obtain ⟨⟨call', w⟩, hmem, rfl⟩ := List.mem_map.mp (hwired.issued hcall)
    exact ⟨w, hmem⟩
  · have htracked := hwired.tracked _ hw
    refine ⟨?_, htracked.pending, fun hanswer hquiet => ?_⟩
    -- a hook is called once, and one of the two callbacks takes the response
    · rcases callbacks_called htracked.sound htracked.hooks call with hnone | ⟨e, -, hone⟩
      · rw [hnone]
        exact Nat.zero_le 1
      · rw [hone]
        exact le_refl 1
    -- nothing is left to run, so every hook was called
    · obtain ⟨info, -, hcalled⟩ := htracked.sound.called_of_quiet hquiet (.inl hanswer)
      obtain ⟨e, -, hone⟩ := callbacks_hooks call info
      rw [hcalled, htracked.hooks, hone]
      rfl

/-- Of the registration one callback has run; the fetch that it started is pending. -/
theorem reported_once_twiceReported : ∃ s,
    run (step .reference .reference .ascii) (start .new .empty) twiceReported = some s ∧
    s.client.pending.length = 1 ∧
    (s.requests.map fun x => (callbacks x.1 x.2.called).length) = [1, 0] ∧
    ∀ call w, (call, w) ∈ s.requests →
      (call ∈ s.client.pending ↔ callbacks call w.called = []) := by
  obtain ⟨s, hrun, hs⟩ := exists_run_of_any (step .reference .reference .ascii)
    (start .new .empty) twiceReported
    (fun s => decide (s.client.pending.length = 1 ∧
      (s.requests.map fun x => (callbacks x.1 x.2.called).length) = [1, 0])) (by decide +kernel)
  obtain ⟨hpending, hlengths⟩ := of_decide_eq_true hs
  exact ⟨s, hrun, hpending, hlengths, fun call w hw => ((reported_once hrun).2 call w hw).2.1⟩

end ReactiveDemo.Stack

namespace ReactiveDemo

open Transition Server

/-! ## The client does not trap -/

/-- The replies are what the server has answered to the requests they are for. -/
def Answers (G : Gems) (inbox : List Reply) : Prop :=
  ∀ reply ∈ inbox, ∃ env db, reply.outcome = (handle G env reply.call.request.http db).1

/-- The answer to a fetch is a list of elements that the client can read, or an error. -/
theorem feed_of_fetch {G : Gems} {env : Env} {token : String} {db : Database} {response : Response}
    (h : (handle G env (Request.fetchThoughts token).http db).1 = .ok response) :
    ∃ vs, response.body.jsonArray.mapM Process.decodeElement = some vs := by
  simp only [Request.http, handle, authenticateRequest] at h
  split at h
  · cases h
  · cases h
    exact ⟨[], rfl⟩
  · have hindex : thoughtsIndex G [] db = .ok response := h
    obtain ⟨-, thoughts, vs, -, hvs, -⟩ := thoughtsIndex_eq_ok hindex
    exact ⟨vs, hvs⟩

namespace Process

variable {P : Platform} {p : Process} {call : Call}

/-- A pending request can fail at any time. -/
theorem failed_possible (hcall : call ∈ p.pending) (error : RequestError) :
    ∃ p', p.step P (Event.failed call error) = some p' := by
  unfold Event.failed
  cases hreq : call.request <;> simp [step, hcall, hreq]

/-- A pending request can succeed, if it is no fetch of elements that cannot be read. -/
theorem succeeded_possible (hcall : call ∈ p.pending) {body : Json}
    (hbody : ∀ token, call.request = .fetchThoughts token →
      ∃ vs, body.jsonArray.mapM decodeElement = some vs) :
    ∃ p', p.step P (Event.succeeded call body) = some p' := by
  unfold Event.succeeded
  cases hreq : call.request with
  | signUp username password => simp [step, hcall, hreq]
  | login username password => simp [step, hcall, hreq]
  | createThought token text => simp [step, hcall, hreq]
  | fetchThoughts token =>
    obtain ⟨vs, hvs⟩ := hbody token hreq
    simp [step, hcall, hreq, fetchSuccess, mergeElements_of_decode P _ hvs]

end Process

/-- What the server has sent as a success, a pending request can report. -/
theorem Answers.succeeded_possible {G : Gems} {P : Platform} {inbox : List Reply}
    (h : Answers G inbox) {p : Process} {call : Call} {response : Response} {mark : Nat}
    (hreply : ⟨call, .ok response, mark⟩ ∈ inbox) (hcall : call ∈ p.pending) :
    ∃ p', p.step P (Event.succeeded call response.body) = some p' := by
  refine Process.succeeded_possible hcall fun token hreq => ?_
  obtain ⟨env, db, houtcome⟩ := h _ hreply
  rw [hreq] at houtcome
  exact feed_of_fetch houtcome.symm

/-- What the server adds is its answer to the request. -/
theorem Answers.append {G : Gems} {inbox : List Reply} (h : Answers G inbox) (call : Call)
    (env : Env) (db : Database) (mark : Nat) :
    Answers G (inbox ++ [⟨call, (handle G env call.request.http db).1, mark⟩]) := by
  intro reply hreply
  cases List.mem_append.mp hreply with
  | inl hold => exact h reply hold
  | inr hnew =>
    rw [List.mem_singleton.mp hnew]
    exact ⟨env, db, rfl⟩

namespace World

variable {G : Gems} {P : Platform} {w w' : World}

theorem answers_step {a : Act} (h : Answers G w.inbox) (hw : w.step G P a = some w') :
    Answers G w'.inbox := by
  rcases client_cases hw with ⟨e, -, -, -, hinbox, -⟩ | ⟨call, env, -, -, rfl⟩ |
    ⟨env, request, -, rfl⟩
  · rw [hinbox]
    exact h
  · exact h.append call env w.db _
  · exact h

/-- The fetch of ann's app, once she is registered. -/
def firstFetch : Call := ⟨1, .fetchThoughts "1.86400", 0⟩

/-- The server has answered it with a feed. -/
def FeedComes (w : World) : Prop :=
  firstFetch ∈ w.client.pending ∧
    ∃ reply ∈ w.inbox[1]?, reply.call = firstFetch ∧ reply.outcome.status = 200

instance (w : World) : Decidable (FeedComes w) := inferInstanceAs (Decidable (_ ∧ _))

end World

/-! ## Requests that were answered -/

namespace Stack

variable {Data : Type} {F : Foundation Data} {G : Gems} {P : Platform} {s s' : Stack Data}

theorem answers_step {a : Act Data} (h : Answers G s.inbox) (hs : s.step F G P a = some s') :
    Answers G s'.inbox := by
  rcases inbox_step hs with hsame | ⟨call, env, mark, hmore⟩
  · exact hsame ▸ h
  · exact hmore ▸ h.append call env s.db mark

/-- What holds of the stack at all times. -/
structure Runs (F : Foundation Data) (G : Gems) (s : Stack Data) : Prop where
  wired : Wired F s
  answers : Answers G s.inbox

theorem runs_step {a : Act Data} (h : Runs F G s) (hs : s.step F G P a = some s') :
    Runs F G s' := ⟨h.wired.step hs, answers_step h.answers hs⟩

theorem runs_run {r : Realm} {db : Database} {acts : List (Act Data)}
    (h : run (step F G P) (start r db) acts = some s) : Runs F G s :=
  run_invariant (fun _ _ _ hs hstep => runs_step hs hstep)
    ⟨wired_start r db, fun _ hreply => by cases hreply⟩ h

/-- The callback that a pending request runs does not trap. -/
theorem callback_possible {call : Call} {r : Wire Data} (h : Linked F s.inbox call r)
    (hanswers : Answers G s.inbox) (hcarries : ∀ reply ∈ s.inbox, F.Carries reply.outcome)
    {e : Event} (he : e ∈ callbacks call r.called) (hcall : call ∈ s.client.pending) :
    ∃ client, s.client.step P e = some client := by
  obtain ⟨⟨hook, info⟩, hc, hcallback⟩ := List.mem_filterMap.mp he
  have hvalue := completedValue_of_mem h.sound hc
  unfold callback? at hcallback
  split at hcallback
  · next entity _ hinfo =>
    cases hcallback
    -- a success that the server has sent: the casts go through
    obtain ⟨index, response, mark, hindex, -, hbody⟩ := h.reply_of_success hcarries hvalue hinfo
    rw [hbody]
    exact hanswers.succeeded_possible (List.mem_of_getElem? hindex) hcall
  · cases hcallback
    -- a failure has nothing to cast
    exact Process.failed_possible hcall _
  · cases hcallback

/-- A step that Siesta's queues can make for a request is possible. -/
theorem queue_possible (h : Runs F G s) (hcarries : ∀ reply ∈ s.inbox, F.Carries reply.outcome)
    {index : Nat} {call : Call} {r r' : Wire Data} (hget : s.requests[index]? = some (call, r))
    {e : Siesta.Event (Siesta.Completion Data) Hook} (he : e.isQueue = true)
    (hr' : r.step F.delegate e = some r') :
    ∃ client, s.step F G P (.queue index e) =
      some (advance client { s with requests := s.requests.set index (call, r') }) := by
  have htracked := h.wired.tracked _ (List.mem_of_getElem? hget)
  have hlinked := htracked.toLinked.queue he hr'
  obtain ⟨-, -, -, hgrows⟩ := Siesta.LiveRequest.queue_step he hr'
  have hrun : ∃ client, run (Process.step P) s.client
      (callbacks call (r'.called.drop r.called.length)) = some client := by
    rcases callbacks_drop hlinked.sound hlinked.hooks hgrows call with
      ⟨-, hnew⟩ | ⟨hold, event, -, hone, hnew⟩
    · exact ⟨s.client, by rw [hnew, run_nil]⟩
    · -- none was called before, so the request is pending
      have hevent : event ∈ callbacks call r'.called := by
        rw [hone]
        exact List.mem_singleton_self event
      obtain ⟨client, hclient⟩ := callback_possible (P := P) hlinked h.answers hcarries hevent
        (htracked.pending.mpr hold)
      exact ⟨client, by rw [hnew]; exact run_cons_eq_some.mpr ⟨client, hclient, run_nil client⟩⟩
  obtain ⟨client, hclient⟩ := hrun
  refine ⟨client, ?_⟩
  simp only [Stack.step, hget, he, if_true, Stack.runQueue, hr', Option.bind_some, hclient,
    Option.map_some]

/-- How much is left on the queues for the request with this index. -/
def work (index : Nat) (s : Stack Data) : Nat :=
  match s.requests[index]? with
  | some (_, r) => r.work
  | none => 0

theorem work_eq {index : Nat} {call : Call} {r : Wire Data}
    (h : s.requests[index]? = some (call, r)) : s.work index = r.work := by
  rw [work, h]

end Stack

end ReactiveDemo
