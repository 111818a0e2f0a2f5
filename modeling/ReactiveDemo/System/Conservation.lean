import ReactiveDemo.System.Tokens

/-!
# Posts are conserved

Whatever the network does, a press of Post is one outstanding request, one scheduled retry,
acknowledged or dropped. Within a session nothing is dropped, so a thought that was saved in
Realm reaches the server in the end, or is still being sent.

## Key results

- `Kept.step`: a callback of the session keeps a saved thought on its way
- `conserved_step`: every step keeps the ledger and the saved thoughts of the session
- `posts_conserved`: what holds of presses and saved thoughts in every run
-/

namespace ReactiveDemo

open Transition Server

/-- The server has the text, as a thought of the user. -/
def OnServer (db : Database) (user : User) (text : String) : Prop :=
  ∃ row ∈ db.thoughts.rows, ∃ uid : Nat, row.userId = some uid ∧ user.id = uid ∧ row.text = text

theorem OnServer.mono {db db' : Database} {user : User} {text : String}
    (h : OnServer db user text) (hpre : db.thoughts.rows <+: db'.thoughts.rows) :
    OnServer db' user text := by
  obtain ⟨row, hrow, huid⟩ := h
  exact ⟨row, hpre.subset hrow, huid⟩

namespace World

/-- A thought that was saved in this session is waiting to be sent, or is on the server; and
    the request that is under way for it carries the token of the session's user. -/
structure Kept (w : World) (sv : Saved) (user : User) : Prop where
  current : w.client.currentUser = some user
  token : ∀ call ∈ creates w.client.pending, call.origin = sv.press →
    ∃ text, call.request = .createThought user.jwtToken text
  kept : sv.press ∈ w.client.outstanding ∨ sv.press ∈ w.client.scheduled ∨
    OnServer w.db user sv.text

/-- The ledger, and the saved thoughts of the current session. -/
structure Conserved (G : Gems) (w : World) : Prop where
  tokens : Tokens G w
  texts : w.client.Texts
  ledger : w.client.Ledger
  past : ∀ sv ∈ w.client.history.saved, sv.session ≤ w.client.history.session
  kept : ∀ sv ∈ w.client.history.saved, sv.session = w.client.history.session →
    ∃ user, Kept w sv user

variable {G : Gems} {P : Platform} {w w' : World} {a : Act}

/-- An acknowledged request has put the text on the server, for the user of its token. -/
theorem onServer_of_succeeded (h : Conserved G w) {sv : Saved} {user : User}
    (hsv : sv ∈ w.client.history.saved) (hkept : Kept w sv user) {call : Call}
    (hraises : w.Raises a (.createSucceeded call)) (hcall : call ∈ creates w.client.pending)
    (horigin : call.origin = sv.press) : OnServer w.db user sv.text := by
  obtain ⟨response, mark, hreply, hstatus⟩ := hraises.reply_of_createSucceeded
  obtain ⟨c, hc, heq⟩ := h.tokens.posted _ hreply (mem_creates.mp hcall).2 response rfl hstatus
  obtain ⟨hrow, token, uid, hreq, huser, htoken⟩ := h.tokens.created c hc
  have heq' : c.call = call := heq
  rw [heq'] at hreq
  -- the token is the one of the session's user
  obtain ⟨text, hreq'⟩ := hkept.token call hcall horigin
  rw [hreq, Request.createThought.injEq] at hreq'
  obtain ⟨uid', hid, htoken'⟩ := h.tokens.users user (Process.mem_of_currentUser hkept.current).1
  rw [← hreq'.1] at htoken'
  have huid : uid = uid' := htoken.unique htoken'
  -- the text is the one of the press
  have htext := h.texts.pending call hcall token c.row.text hreq
  rw [horigin] at htext
  exact ⟨c.row, hrow, uid, huser, by rw [hid, huid], htext.unique (h.texts.saved sv hsv)⟩

/-- A callback that does not end the session keeps a saved thought on its way. -/
theorem Kept.step (h : Conserved G w) {sv : Saved} {user : User}
    (hsv : sv ∈ w.client.history.saved) (hkept : Kept w sv user) {e : Event}
    (hraises : w.Raises a e) (hclient : w.client.step P e = some w'.client) (hdb : w'.db = w.db)
    (hcurrent : w'.client.currentUser = w.client.currentUser) : Kept w' sv user := by
  refine ⟨hcurrent.trans hkept.current, ?_, ?_⟩
  -- a request under way for the press carries the token of the user
  · intro call hcall horigin
    rcases Process.sends_step hclient with hunsent | ⟨user', text, press, huser', -, hsent⟩
    · exact hkept.token call (hunsent.pending hcall) horigin
    · -- a new request carries the token of the session's user
      rw [hkept.current, Option.some.injEq] at huser'
      subst huser'
      rw [hsent.pending, List.mem_append, List.mem_singleton] at hcall
      rcases hcall with hcall | rfl
      · exact hkept.token call hcall horigin
      · exact ⟨text, rfl⟩
  -- a press that waits goes on waiting, or is acknowledged
  · have hwaiting : sv.press ∈ w.client.outstanding ∨ sv.press ∈ w.client.scheduled →
        sv.press ∈ w'.client.outstanding ∨ sv.press ∈ w'.client.scheduled ∨
          OnServer w'.db user sv.text := by
      intro hwaits
      rcases Process.waiting_step hkept.current hclient hwaits with hout | hsched |
        ⟨call, rfl, hcall, horigin⟩
      · exact Or.inl hout
      · exact Or.inr (Or.inl hsched)
      · -- an acknowledged request has put the text on the server
        rw [hdb]
        exact Or.inr (Or.inr (onServer_of_succeeded h hsv hkept hraises hcall horigin))
    rcases hkept.kept with hout | hsched | hserver
    · exact hwaiting (Or.inl hout)
    · exact hwaiting (Or.inr hsched)
    · rw [hdb]
      exact Or.inr (Or.inr hserver)

/-- A thought is on its way when it is saved: its press has just this one request. -/
theorem kept_of_sent (hledger : w'.client.Ledger) {user : User} {n : Nat} {text : String}
    {press session : Nat} (hcurrent : w'.client.currentUser = some user)
    (hsent : Process.Sent ⟨n, .createThought user.jwtToken text, press⟩ text w.client w'.client) :
    Kept w' ⟨press, text, session⟩ user := by
  have hnew : ⟨n, .createThought user.jwtToken text, press⟩ ∈ creates w'.client.pending := by
    rw [hsent.pending]
    exact List.mem_append_right _ (List.mem_singleton_self _)
  refine ⟨hcurrent, ?_, Or.inl (List.mem_map_of_mem hnew)⟩
  intro call hcall horigin
  have heq := Process.eq_of_origin_eq hledger hcall hnew horigin
  exact ⟨text, by rw [heq]⟩

/-- Every step keeps the ledger and the saved thoughts of the session. -/
theorem conserved_step (h : Conserved G w) (hstep : w.step G P a = some w') : Conserved G w' := by
  have htokens := tokens_step h.tokens hstep
  have htexts := texts_step h.texts hstep
  have hledger := ledger_step h.ledger hstep
  rcases client_cases hstep with ⟨e, hraises, hclient, hdb, -, -⟩ | ⟨call, env, -, -, rfl⟩ |
    ⟨env, request, -, rfl⟩
  -- no save belongs to a session to come
  · have hold : ∀ sv ∈ w.client.history.saved, sv.session ≤ w'.client.history.session :=
      fun sv hsv => (h.past sv hsv).trans (Process.session_le_step hclient)
    rcases Process.sends_step hclient with hunsent | ⟨user, text, press, huser, hruns, hsent⟩
    · -- nothing is saved; a new session has no saves yet
      refine ⟨htokens, htexts, hledger, ?_, ?_⟩
      · rw [hunsent.saved]
        exact hold
      · rw [hunsent.saved]
        intro sv hsv hsession
        have hpast := h.past sv hsv
        rcases Process.session_step hclient with ⟨hsame, hcurrent⟩ | ⟨hnext, -⟩ | ⟨hnext, -⟩
        · obtain ⟨user, hkept⟩ := h.kept sv hsv (by omega)
          exact ⟨user, hkept.step h hsv hraises hclient hdb
            (Process.currentUser_eq_of_session hcurrent)⟩
        · omega
        · omega
    · -- a step that sends a post is neither a logout nor a response
      have hsame : w'.client.history.session = w.client.history.session ∧
          w'.client.session = w.client.session := by
        rcases Process.session_step hclient with hsame | ⟨-, rfl, -⟩ |
          ⟨-, call, body, -, -, -, rfl, -⟩
        · exact hsame
        · rcases hruns with ⟨now, he, -⟩ | ⟨now, he, -⟩ <;> cases he
        · rcases hruns with ⟨now, he, -⟩ | ⟨now, he, -⟩ <;> cases he
      have hcurrent := Process.currentUser_eq_of_session hsame.2
      -- the saves of the session are kept as before, and the new one is outstanding
      have hkept : ∀ sv ∈ w.client.history.saved, sv.session = w'.client.history.session →
          ∃ user, Kept w' sv user := by
        intro sv hsv hsession
        obtain ⟨user', hkept⟩ := h.kept sv hsv (by omega)
        exact ⟨user', hkept.step h hsv hraises hclient hdb hcurrent⟩
      have hnew : Kept w' ⟨press, text, w.client.history.session⟩ user :=
        kept_of_sent hledger (hcurrent.trans huser) hsent
      refine ⟨htokens, htexts, hledger, ?_, ?_⟩
      · intro sv hsv
        cases hsent.saved with
        | inl hsaved =>
          rw [hsaved] at hsv
          exact hold sv hsv
        | inr hsaved =>
          rw [hsaved, List.mem_append, List.mem_singleton] at hsv
          rcases hsv with hsv | rfl
          · exact hold sv hsv
          · exact hsame.1.ge
      · intro sv hsv hsession
        cases hsent.saved with
        | inl hsaved =>
          rw [hsaved] at hsv
          exact hkept sv hsv hsession
        | inr hsaved =>
          rw [hsaved, List.mem_append, List.mem_singleton] at hsv
          rcases hsv with hsv | rfl
          · exact hkept sv hsv hsession
          · exact ⟨user, hnew⟩
  · -- the client is as before, and the server's table has grown
    have hpre := thoughts_prefix_handle G env call.request.http w.db
    refine ⟨htokens, htexts, hledger, h.past, ?_⟩
    intro sv hsv hsession
    obtain ⟨user, hcurrent, htoken, hkept⟩ := h.kept sv hsv hsession
    exact ⟨user, hcurrent, htoken, hkept.imp_right (Or.imp_right (OnServer.mono · hpre))⟩
  -- nor does a request of somebody else take anything away
  · have hpre := thoughts_prefix_handle G env request w.db
    refine ⟨htokens, htexts, hledger, h.past, ?_⟩
    intro sv hsv hsession
    obtain ⟨user, hcurrent, htoken, hkept⟩ := h.kept sv hsv hsession
    exact ⟨user, hcurrent, htoken, hkept.imp_right (Or.imp_right (OnServer.mono · hpre))⟩

/-- A launched process has saved nothing. -/
theorem conserved_init (h : Init G w) : Conserved G w := by
  have htokens := tokens_init h
  obtain ⟨r, db, -, rfl⟩ := h
  have hsaved : (Process.launch r).history.saved = [] := (Process.launch_polled r).quiet.saved
  refine ⟨htokens, Process.texts_launch r, Process.ledger_launch r, ?_, ?_⟩
  · simp only [start, hsaved]
    intro sv hsv
    cases hsv
  · simp only [start, hsaved]
    intro sv hsv
    cases hsv

theorem conserved_run {acts : List Act} (h : Conserved G w)
    (hrun : run (step G P) w acts = some w') : Conserved G w' :=
  run_invariant (fun _ _ _ => conserved_step) h hrun

/-- Within a session nothing is dropped. -/
theorem dropped_run {acts : List Act} (hin : w.client.loggedIn = true)
    (hrun : run (step G P) w acts = some w')
    (hsession : w'.client.history.session = w.client.history.session) :
    w'.client.history.dropped = w.client.history.dropped := by
  -- as long as the session lasts the user is logged in
  let I := fun v : World => w.client.history.session ≤ v.client.history.session ∧
    (v.client.history.session = w.client.history.session →
      v.client.loggedIn = true ∧ v.client.history.dropped = w.client.history.dropped)
  have hkeep : ∀ v a v', I v → v.step G P a = some v' → I v' := by
    intro v a v' ⟨hle, hsame⟩ hv
    rcases client_cases hv with ⟨e, -, hclient, -⟩ | ⟨call, env, -, -, rfl⟩ |
      ⟨env, request, -, rfl⟩
    · have hmono := Process.session_le_step hclient
      refine ⟨hle.trans hmono, fun hv' => ?_⟩
      obtain ⟨hloggedIn, hdropped⟩ := hsame (by omega)
      refine ⟨?_, (Process.dropped_step hloggedIn hclient).trans hdropped⟩
      rcases Process.session_step hclient with ⟨-, heq⟩ | ⟨hnext, -⟩ | ⟨hnext, -⟩
      · rw [Process.loggedIn_iff, Process.currentUser_eq_of_session heq]
        exact (Process.loggedIn_iff _).mp hloggedIn
      · omega
      · omega
    · exact ⟨hle, hsame⟩
    · exact ⟨hle, hsame⟩
  have hI : I w' := run_invariant hkeep ⟨le_refl _, fun _ => ⟨hin, rfl⟩⟩ hrun
  exact (hI.2 hsession).2

/-- What holds of presses and saved thoughts in a state `w`, and in a later state `w'`. -/
structure PostsConserved (w w' : World) : Prop where
  /-- A press is in one of the four states, once, and nothing else is. -/
  one_state : ∀ k, w.client.outstanding.count k + w.client.scheduled.count k +
    w.client.history.acknowledged.count k + w.client.history.dropped.count k =
      if k < w.client.history.presses.length then 1 else 0
  bounded : (creates w.client.pending).length + w.client.retries.length ≤
    w.client.history.presses.length
  /-- Nothing is dropped as long as the session lasts. -/
  not_dropped : w.client.loggedIn = true →
    w'.client.history.session = w.client.history.session →
      w'.client.history.dropped = w.client.history.dropped
  /-- What was saved in this session is on its way or on the server. -/
  saved : ∀ sv ∈ w.client.history.saved, sv.session = w.client.history.session →
    ∃ user, w.client.currentUser = some user ∧ (OnServer w.db user sv.text ∨
      sv.press ∈ w.client.outstanding ∨ sv.press ∈ w.client.scheduled)

/-- In every run posts are conserved. -/
theorem posts_conserved {w₀ : World} {acts acts' : List Act} (h0 : Init G w₀)
    (hrun : run (step G P) w₀ acts = some w) (hrun' : run (step G P) w acts' = some w') :
    PostsConserved w w' := by
  have h := conserved_run (conserved_init h0) hrun
  refine ⟨(Process.ledger_iff _).mp h.ledger, Process.outstanding_add_scheduled_le h.ledger, ?_, ?_⟩
  · intro hin hsession
    exact dropped_run hin hrun' hsession
  · intro sv hsv hsession
    obtain ⟨user, hkept⟩ := h.kept sv hsv hsession
    refine ⟨user, hkept.current, ?_⟩
    rcases hkept.kept with hout | hsched | hserver
    · exact Or.inr (Or.inl hout)
    · exact Or.inr (Or.inr hsched)
    · exact Or.inl hserver

/-- A post fails, and the session's retry of it is acknowledged. -/
theorem posts_conserved_retry : ∃ w w',
    run (step .reference .ascii) (start .new .empty) (registration ++
      [.client (.postThoughtPressed "hi" 0),
       .fail ⟨2, .createThought "1.86400" "hi", 0⟩ ⟨none, "timeout"⟩]) = some w ∧
    run (step .reference .ascii) w [.client (.retryFired ⟨0, "hi"⟩ 5),
       .serve ⟨3, .createThought "1.86400" "hi", 0⟩ (sampleEnv 0), .succeed 1] = some w' ∧
    w'.client.history.saved.length = 1 ∧ PostsConserved w w' ∧ PostsConserved w' w' := by
  obtain ⟨w', hrun, hw'⟩ := exists_run_of_any (step .reference .ascii) (start .new .empty)
    ((registration ++ [.client (.postThoughtPressed "hi" 0),
      .fail ⟨2, .createThought "1.86400" "hi", 0⟩ ⟨none, "timeout"⟩]) ++
      [.client (.retryFired ⟨0, "hi"⟩ 5),
       .serve ⟨3, .createThought "1.86400" "hi", 0⟩ (sampleEnv 0), .succeed 1])
    (fun w' => decide (w'.client.history.saved.length = 1)) (by decide +kernel)
  -- the state when the failure was reported, and the state at the end
  obtain ⟨w, hpre, hpost⟩ := run_append_eq_some.mp hrun
  exact ⟨w, w', hpre, hpost, of_decide_eq_true hw', posts_conserved (init_new _ _) hpre hpost,
    posts_conserved (init_new _ _) hrun (run_nil w')⟩

end World

end ReactiveDemo
