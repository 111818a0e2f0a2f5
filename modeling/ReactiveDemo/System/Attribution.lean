import ReactiveDemo.System.Tokens

/-!
# Who wrote a post

A retry captures the text of its press and reads the session's token when it fires, so it
posts for whoever is logged in then. As long as retries fire only for the user who pressed
Post, or for nobody, every row the server inserts belongs to its author.

## Key results

- `attribution_step`: every step on which no retry changes hands keeps the attribution
- `posts_attributed`: along a run of such steps every row belongs to the author of its press
- `retry_changes_hands`: a run in which a retry posts under another account
-/

namespace ReactiveDemo

open Transition Server

/-- The row has the text of the press that the request comes from, and the user who was
    current at that press. -/
def Created.WrittenIn (presses : List Press) (c : Created) : Prop :=
  ∃ uid : Nat, c.row.userId = some uid ∧ presses[c.call.origin]? = some ⟨c.row.text, some uid⟩

theorem Created.WrittenIn.mono {presses presses' : List Press} {c : Created}
    (h : c.WrittenIn presses) (hpre : presses <+: presses') : c.WrittenIn presses' := by
  obtain ⟨uid, huser, hget⟩ := h
  exact ⟨uid, huser, List.getElem?_of_isPrefix hpre hget⟩

namespace World

/-- When a retry fires nobody is logged in, or the user who pressed Post is. -/
def SameAuthor (w : World) : Act → Prop
  | .client (.retryFired retry _) => w.client.loggedIn = false ∨
      (w.client.history.presses[retry.press]?).map Press.author =
        some w.client.state.authState.currentUserId
  | _ => True

instance (w : World) : ∀ a, Decidable (w.SameAuthor a)
  | .client (.retryFired _ _) => inferInstanceAs (Decidable (_ ∨ _))
  | .client (.loginPressed _ _) | .client (.registerPressed _ _) | .client .logoutSegue
  | .client (.postThoughtPressed _ _) | .client (.authSucceeded _ _) | .client (.authFailed _ _)
  | .client (.createSucceeded _) | .client (.createFailed _ _) | .client (.fetchSucceeded _ _)
  | .client (.fetchFailed _ _) | .client .timerFired | .client (.notified _) | .client .viewDidLoad
  | .client .layoutTable | .client .viewDidAppear | .client .viewDidDisappear | .serve _ _
  | .succeed _ | .fail _ _ | .other _ _ => .isTrue trivial

/-- The create requests under way and the rows they made belong to the authors of their
    presses. -/
structure Attribution (G : Gems) (w : World) : Prop where
  tokens : Tokens G w
  texts : w.client.Texts
  sent : ∀ call ∈ creates w.client.outbox, ∃ token text, ∃ uid : Nat,
    call.request = .createThought token text ∧ TokenFor G token uid ∧
      w.client.history.presses[call.origin]? = some ⟨text, some uid⟩
  created : ∀ c ∈ w.created, c.WrittenIn w.client.history.presses

variable {G : Gems} {P : Platform} {w w' : World} {a : Act}

/-- The press that a step runs is one of the current user, when no retry changes hands. -/
theorem author_of_runs {e : Event} {text : String} {press : Nat} {user : User}
    (htexts : w.client.Texts) (hsame : w.SameAuthor (.client e))
    (hclient : w.client.step P e = some w'.client) (huser : w.client.currentUser = some user)
    (hruns : Process.Runs text press w.client e) :
    w'.client.history.presses[press]? = some ⟨text, some user.id⟩ := by
  have hid := (Process.mem_of_currentUser huser).2
  rcases hruns with ⟨now, rfl, rfl⟩ | ⟨now, rfl, hretry⟩
  · -- a new press, by the current user
    have heq : w.client.postThoughtPressed P text now = w'.client := Option.some.inj hclient
    rw [← heq, Process.postThoughtPressed_presses, hid]
    exact List.getElem?_concat_length
  · -- a retry of a press by the current user
    have hpre := Process.presses_prefix_step hclient
    obtain ⟨author, hget⟩ := htexts.retries _ hretry
    have hloggedIn : w.client.loggedIn = true := (Process.loggedIn_iff _).mpr ⟨user, huser⟩
    have hauthor : author = some user.id := by
      -- somebody is logged in, so it is the author
      cases hsame with
      | inl hnobody =>
        rw [hloggedIn] at hnobody
        cases hnobody
      | inr hauthor =>
        have hget' : w.client.history.presses[press]? = some ⟨text, author⟩ := hget
        rw [hget', hid] at hauthor
        simpa using hauthor
    subst hauthor
    exact List.getElem?_of_isPrefix hpre hget

/-- Every step on which no retry changes hands keeps the attribution. -/
theorem attribution_step (h : Attribution G w) (hsame : w.SameAuthor a)
    (hstep : w.step G P a = some w') : Attribution G w' := by
  have htokens := tokens_step h.tokens hstep
  have htexts := texts_step h.texts hstep
  rcases client_cases hstep with ⟨e, hraises, hclient, -, -, hcreated⟩ |
    ⟨call, env, -, hcall, rfl⟩ | ⟨env, request, -, rfl⟩
  · have hpre := Process.presses_prefix_step hclient
    refine ⟨htokens, htexts, ?_, ?_⟩
    · intro call hcall
      rcases Process.mem_outbox_step hclient hcall with hold | ⟨user, text, press, huser, hruns, rfl⟩
      -- a request from before: presses are never taken back
      · obtain ⟨token, text, uid, hreq, htoken, hget⟩ := h.sent call hold
        exact ⟨token, text, uid, hreq, htoken, List.getElem?_of_isPrefix hpre hget⟩
      · -- a request that this step sends
        have he : a = .client e := by
          apply hraises.eq_client
          rcases hruns with ⟨now, rfl, -⟩ | ⟨now, rfl, -⟩ <;> rfl
        subst he
        have hget := author_of_runs h.texts hsame hclient huser hruns
        obtain ⟨uid, hid, htoken⟩ := h.tokens.users user (Process.mem_of_currentUser huser).1
        exact ⟨user.jwtToken, text, uid, rfl, htoken, by rw [hget, hid]⟩
    · rw [hcreated]
      intro c hc
      -- a callback inserts no row
      exact (h.created c hc).mono hpre
  · refine ⟨htokens, htexts, ?_, ?_⟩
    · intro c hc
      exact h.sent c (creates_erase_subset call w.client.outbox hc)
    · intro c hc
      by_cases hcreate : isCreate call.request = true
      -- a row that the server inserts has the text and the user of the request, which are those
      -- of its press
      · obtain ⟨token, text, uid, hreq, htoken, hget⟩ :=
          h.sent call (mem_creates.mpr ⟨hcall, hcreate⟩)
        rcases serve_created_cases w env hreq htoken with
          ⟨row, htext, huser, -, hcreated⟩ | ⟨hcreated, -⟩
        · rw [hcreated, List.mem_append, List.mem_singleton] at hc
          rcases hc with hc | rfl
          · exact h.created c hc
          · exact ⟨uid, huser, by rw [htext]; exact hget⟩
        · rw [hcreated] at hc
          exact h.created c hc
      · rw [serve_created_of_not_create (by simpa using hcreate)] at hc
        exact h.created c hc
  -- somebody else writes
  · exact ⟨htokens, htexts, h.sent, h.created⟩

/-- A start has sent nothing and inserted nothing. -/
theorem attribution_init (h : Init G w) : Attribution G w := by
  have htokens := tokens_init h
  obtain ⟨r, db, -, rfl⟩ := h
  refine ⟨htokens, Process.texts_launch r, ?_, ?_⟩
  · intro call hcall
    have hnil : creates (Process.launch r).outbox = [] := (Process.launch_polled r).quiet.outbox
    simp only [start, hnil, List.not_mem_nil] at hcall
  · intro c hc
    cases hc

/-- Along a run in which no retry changes hands, every row the server inserted for this
    client has the text of its press, and the user who was current then. -/
theorem posts_attributed {acts : List Act} (h0 : Init G w)
    (halong : Along (step G P) SameAuthor w acts) (hrun : run (step G P) w acts = some w') :
    ∀ c ∈ w'.created, c.WrittenIn w'.client.history.presses :=
  (run_invariant_along (fun _ _ _ h hsame hstep => attribution_step h hsame hstep)
    (attribution_init h0) halong hrun).created

/-- ann posts, and the request fails before it reaches the server. -/
def failedPost : List Act :=
  registration ++
  [.client (.postThoughtPressed "hi" 0),
   .fail ⟨2, .createThought "1.86400" "hi", 0⟩ ⟨none, "timeout"⟩]

/-- The retry posts in ann's session. -/
theorem posts_attributed_retry :
    ∃ w', run (step .reference .ascii) (start .new .empty) (failedPost ++
      [.client (.retryFired ⟨0, "hi"⟩ 5),
       .serve ⟨3, .createThought "1.86400" "hi", 0⟩ (sampleEnv 0)]) = some w' ∧
      w'.created.length = 1 ∧ ∀ c ∈ w'.created, c.WrittenIn w'.client.history.presses := by
  obtain ⟨w', hrun, hlen⟩ := exists_run_of_any (step .reference .ascii) (start .new .empty)
    (failedPost ++ [.client (.retryFired ⟨0, "hi"⟩ 5),
      .serve ⟨3, .createThought "1.86400" "hi", 0⟩ (sampleEnv 0)])
    (fun w' => decide (w'.created.length = 1)) (by decide +kernel)
  exact ⟨w', hrun, of_decide_eq_true hlen,
    posts_attributed (init_new _ _) (by decide +kernel) hrun⟩

/-- ann logs out, bob registers, and ann's retry fires. -/
def retryInNextSession : List Act :=
  failedPost ++
  [.client .logoutSegue,
   .client (.registerPressed "bob" "secret"),
   .serve ⟨3, .signUp "bob" "secret", 3⟩ (sampleEnv 0),
   .succeed 1,
   .client (.retryFired ⟨0, "hi"⟩ 5),
   .serve ⟨5, .createThought "2.86400" "hi", 0⟩ (sampleEnv 0)]

/-- Not every row belongs to the author of its press: bob posts what ann wrote. -/
theorem retry_changes_hands :
    ¬ ∀ (G : Gems) (P : Platform) (w w' : World) (acts : List Act), Init G w →
      run (step G P) w acts = some w' →
      ∀ c ∈ w'.created, c.WrittenIn w'.client.history.presses := by
  intro h
  obtain ⟨w', hrun, hw'⟩ := exists_run_of_any (step .reference .ascii) (start .new .empty)
    retryInNextSession
    (fun w' => decide (w'.created.map (fun c => (c.call.origin, c.row.userId)) = [(0, some 2)] ∧
      w'.client.history.presses = [⟨"hi", some 1⟩])) (by decide +kernel)
  obtain ⟨hcreated, hpresses⟩ := of_decide_eq_true hw'
  -- the one row is user 2's, of the press that user 1 made
  have hmem : (0, some 2) ∈ w'.created.map fun c => (c.call.origin, c.row.userId) := by
    rw [hcreated]
    exact List.mem_singleton_self _
  obtain ⟨c, hc, heq⟩ := List.mem_map.mp hmem
  obtain ⟨horigin, huser⟩ := Prod.mk.inj heq
  obtain ⟨uid, huid, hget⟩ := h _ _ _ _ _ (init_new _ _) hrun c hc
  rw [huser, Option.some.injEq] at huid
  subst huid
  rw [hpresses, horigin] at hget
  simp at hget

end World

end ReactiveDemo
