import ReactiveDemo.System.Tokens

/-!
# Rejected posts

The failure callback of a create request looks at no status: it schedules a retry of the
text whatever the server said. So a post that the server has refused for good is sent again
and again, but only by the retry that each reported failure schedules, and with the same
token only while that token is the current user's.

## Key results

- `pressTexts_step`: requests and responses carry the texts of their presses
- `rejected_resent_iff`: when a press that the server has rejected is sent again
- `blank_post_resent`: a run in which a blank text is sent again
-/

namespace ReactiveDemo

open Transition Server

namespace Process

variable {P : Platform} {p p' : Process} {e : Event}

/-- The press that a step runs has its text. -/
theorem hasText_of_runs {text : String} {press : Nat} (htexts : p.Texts)
    (h : p.step P e = some p') (hruns : Runs text press p e) :
    HasText p'.history.presses press text := by
  rcases hruns with ⟨now, rfl, rfl⟩ | ⟨now, rfl, hretry⟩
  · cases h
    rw [postThoughtPressed_presses]
    exact ⟨_, List.getElem?_concat_length⟩
  · exact (htexts.retries _ hretry).mono (presses_prefix_step h)

/-- While a retry of a press is scheduled it is the only one, and the press has no
    outstanding request and is not acknowledged. -/
theorem only_scheduled (hl : p.Ledger) {retry : Retry} (hretry : retry ∈ p.retries) :
    p.scheduled.count retry.press = 1 ∧ retry.press ∉ p.outstanding ∧
      retry.press ∉ p.history.acknowledged := by
  have hsched : retry.press ∈ p.scheduled := List.mem_map_of_mem hretry
  have hpos := List.count_pos_iff.mpr hsched
  have hsum := (ledger_iff p).mp hl retry.press
  refine ⟨?_, ?_, ?_⟩
  · split at hsum <;> omega
  · rw [← List.count_eq_zero]
    split at hsum <;> omega
  · rw [← List.count_eq_zero]
    split at hsum <;> omega

end Process

namespace World

variable {G : Gems} {P : Platform} {w w' : World} {a : Act}

/-- Create requests under way, and the responses to them, carry the texts of their presses. -/
structure PressTexts (w : World) : Prop where
  texts : w.client.Texts
  ledger : w.client.Ledger
  sent : ∀ call ∈ creates w.client.outbox, ∀ token text,
    call.request = .createThought token text →
      HasText w.client.history.presses call.origin text
  answered : ∀ reply ∈ w.inbox, ∀ token text, reply.call.request = .createThought token text →
    HasText w.client.history.presses reply.call.origin text

/-- Every step keeps the texts of requests and responses. -/
theorem pressTexts_step (h : PressTexts w) (hstep : w.step G P a = some w') : PressTexts w' := by
  have htexts := texts_step h.texts hstep
  have hledger := ledger_step h.ledger hstep
  rcases client_cases hstep with ⟨e, -, hclient, -, hinbox, -⟩ | ⟨served, env, -, hserved, rfl⟩ |
    ⟨env, request, -, rfl⟩
  · have hpre := Process.presses_prefix_step hclient
    refine ⟨htexts, hledger, ?_, ?_⟩
    · intro call hcall token text hreq
      rcases Process.mem_outbox_step hclient hcall with hold | ⟨user, text', press, -, hruns, rfl⟩
      · exact (h.sent call hold token text hreq).mono hpre
      -- a request that this step sends has the text of the press that runs
      · cases hreq
        exact Process.hasText_of_runs h.texts hclient hruns
    · rw [hinbox]
      intro reply hreply token text hreq
      exact (h.answered reply hreply token text hreq).mono hpre
  · -- a request moves from the outbox to the responses, with its text
    refine ⟨htexts, hledger, ?_, ?_⟩
    · intro call hcall
      exact h.sent call (creates_erase_subset served w.client.outbox hcall)
    · intro reply hreply token text hreq
      cases List.mem_append.mp hreply with
      | inl hreply =>
        exact h.answered reply hreply token text hreq
      | inr hreply =>
        -- the new response is to a request that was under way
        rw [List.mem_singleton] at hreply
        subst hreply
        have hcreate : isCreate served.request = true := by
          rw [hreq]
          rfl
        exact h.sent served (mem_creates.mpr ⟨hserved, hcreate⟩) token text hreq
  -- another client posts
  · exact ⟨htexts, hledger, h.sent, h.answered⟩

theorem pressTexts_start (r : Realm) (db : Database) : PressTexts (start r db) := by
  refine ⟨Process.texts_launch r, Process.ledger_launch r, ?_, ?_⟩
  · intro call hcall
    have hnil : creates (start r db).client.outbox = [] := (Process.launch_polled r).quiet.outbox
    rw [hnil] at hcall
    cases hcall
  · intro reply hreply
    cases hreply

/-- The server has answered the request with a client error. -/
def Rejected (w : World) (call : Call) : Prop :=
  ∃ reply ∈ w.inbox, reply.call = call ∧ 400 ≤ reply.outcome.status ∧ reply.outcome.status < 500

instance (w : World) (call : Call) : Decidable (w.Rejected call) :=
  inferInstanceAs (Decidable (∃ reply ∈ w.inbox, _))

/-- The step sends a further create request for the press of `call`, with its text and token. -/
def SendsAgain (call : Call) (w w' : World) : Prop :=
  ∃ again, Sends again w w' ∧ again.origin = call.origin ∧ again.request = call.request

/-- The step fires the scheduled retry of the press of `call` while the token of `call` is
    the current user's. -/
def RetriesWithToken (call : Call) (w : World) (a : Act) : Prop :=
  ∃ token text now, call.request = .createThought token text ∧
    a = .client (.retryFired ⟨call.origin, text⟩ now) ∧ ⟨call.origin, text⟩ ∈ w.client.retries ∧
    w.client.jwtToken = some token

/-- A rejected create request is sent again by the retry of its press, and by nothing else;
    and while the retry is scheduled it is the only one, and no request of the press is
    outstanding. -/
def ResentByRetry (G : Gems) (P : Platform) (w : World) (a : Act) : Prop :=
  ∀ call, w.Rejected call → isCreate call.request = true →
    (∀ w', w.step G P a = some w' → (SendsAgain call w w' ↔ RetriesWithToken call w a)) ∧
    ∀ retry ∈ w.client.retries, retry.press = call.origin →
      w.client.scheduled.count call.origin = 1 ∧ call.origin ∉ w.client.outstanding

/-- A request that was answered is sent again iff the retry of its press fires in a session
    with its token. -/
theorem sendsAgain_iff (h : PressTexts w) {reply : Reply} (hreply : reply ∈ w.inbox)
    {token text : String} (hreq : reply.call.request = .createThought token text)
    (hstep : w.step G P a = some w') :
    SendsAgain reply.call w w' ↔ RetriesWithToken reply.call w a := by
  have htext := h.answered reply hreply token text hreq
  constructor
  · -- what is sent again was sent by a press or by a retry
    rintro ⟨again, hsends, horigin, hagain⟩
    obtain ⟨e, user, text', press, rfl, -, huser, hruns, rfl⟩ := sends_cases hstep hsends
    have horigin' : press = reply.call.origin := horigin
    subst horigin'
    rw [hreq] at hagain
    obtain ⟨rfl, rfl⟩ := Request.createThought.inj hagain
    rcases hruns with ⟨now, rfl, hnew⟩ | ⟨now, rfl, hretry⟩
    · -- a press of Post gets a number that no press has had before
      obtain ⟨author, hget⟩ := htext
      rw [hnew, List.getElem?_length] at hget
      cases hget
    -- the retry of the press, in a session with this token
    · refine ⟨user.jwtToken, text', now, hreq, rfl, hretry, ?_⟩
      rw [Process.jwtToken_eq, huser]
      rfl
  · rintro ⟨token', text', now, hreq', rfl, -, htoken⟩
    -- a retry that fires with the token current sends the same request
    rw [hreq] at hreq'
    obtain ⟨rfl, rfl⟩ := Request.createThought.inj hreq'
    rw [Process.jwtToken_eq, Option.map_eq_some_iff] at htoken
    obtain ⟨user, huser, rfl⟩ := htoken
    exact ⟨_, sends_of_retry hstep huser, rfl, hreq.symm⟩

/-- In every run a rejected post is sent again, with the same token, exactly when a scheduled
    retry of its press fires in a session with that token. -/
theorem rejected_resent_iff (G : Gems) (P : Platform) (r : Realm) (db : Database)
    (acts : List Act) : Along (step G P) (ResentByRetry G P) (start r db) acts := by
  rw [along_iff]
  rintro before a after w - hrun _ ⟨reply, hreply, rfl, -⟩ hcreate
  -- at every point of the run the texts are those of the presses
  have hinv : PressTexts w :=
    run_invariant (fun _ _ _ h hstep => pressTexts_step h hstep) (pressTexts_start r db) hrun
  obtain ⟨token, text, hreq⟩ : ∃ token text, reply.call.request = .createThought token text := by
    cases hreq : reply.call.request with
    | createThought token text => exact ⟨token, text, rfl⟩
    | _ =>
      rw [hreq] at hcreate
      cases hcreate
  refine ⟨fun w' hstep => sendsAgain_iff hinv hreply hreq hstep, ?_⟩
  intro retry hretry hpress
  -- a press that is scheduled is on no other pile
  obtain ⟨hcount, hout, -⟩ := Process.only_scheduled hinv.ledger hretry
  rw [← hpress]
  exact ⟨hcount, hout⟩

/-- ann posts a blank text; the server answers 400, and the failure is reported. -/
def blankPost : List Act :=
  registration ++
  [.client (.postThoughtPressed " " 0),
   .serve ⟨2, .createThought "1.86400" " ", 0⟩ (sampleEnv 0),
   .fail ⟨2, .createThought "1.86400" " ", 0⟩ ⟨none, "params.require"⟩]

/-- Not every rejected post stays unsent: the retry of the blank text is sent, with the same
    text and token. -/
theorem blank_post_resent :
    ¬ ∀ (G : Gems) (P : Platform) (r : Realm) (db : Database) (acts : List Act),
      Along (step G P) (fun w a => ∀ call, w.Rejected call → isCreate call.request = true →
        ∀ w', w.step G P a = some w' → ¬ SendsAgain call w w') (start r db) acts := by
  intro h
  obtain ⟨w, hrun, hw⟩ := exists_run_of_any (step .reference .ascii) (start .new .empty) blankPost
    (fun w => decide (w.Rejected ⟨2, .createThought "1.86400" " ", 0⟩) &&
      (w.step .reference .ascii (.client (.retryFired ⟨0, " "⟩ 5))).any fun w' =>
        decide (Sends ⟨3, .createThought "1.86400" " ", 0⟩ w w')) (by decide +kernel)
  rw [Bool.and_eq_true, Option.any_eq_true] at hw
  obtain ⟨hrejected, w', hstep, hsends⟩ := hw
  have hnever := along_iff.mp (h .reference .ascii .new .empty
    (blankPost ++ [.client (.retryFired ⟨0, " "⟩ 5)])) blankPost _ [] w rfl hrun _
    (of_decide_eq_true hrejected) rfl w' hstep
  exact hnever ⟨_, of_decide_eq_true hsends, rfl, rfl⟩

end World

end ReactiveDemo
