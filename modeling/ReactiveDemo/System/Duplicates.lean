import ReactiveDemo.System.Tokens

/-!
# How often a press is posted

A create request that fails is sent again, and the server inserts a row whenever it is
asked to. As long as a failure is reported only for a request that has made no row, and the
server handles no request that was given up, each press makes at most one row.

## Key results

- `numbered_step`: a call is new when it is sent, and handled once
- `settled_step`: every prompt step keeps the presses of the rows distinct
- `posts_at_most_once`: along a run of prompt steps a press makes at most one row
- `retry_posts_again`: a run in which a press makes two rows
-/

namespace ReactiveDemo

open Transition Server

namespace World

/-- A request is reported as failed only if it has made no row, and the server handles a
    create request only while the client waits for it. -/
def Prompt (w : World) : Act → Prop
  | .fail call _ => ∀ c ∈ w.created, c.call ≠ call
  | .serve call _ => isCreate call.request = true → call ∈ w.client.pending
  | _ => True

instance (w : World) : ∀ a, Decidable (w.Prompt a)
  | .fail call _ => inferInstanceAs (Decidable (∀ c ∈ w.created, c.call ≠ call))
  | .serve _ _ => inferInstanceAs (Decidable (_ → _))
  | .client _ | .succeed _ | .other _ _ => .isTrue trivial

/-- The calls of create requests are numbered, and each is handled once. -/
structure Numbered (w : World) : Prop where
  sent_nodup : (creates w.client.outbox).Nodup
  sent_lt : ∀ call ∈ creates w.client.outbox, call.id < w.client.nextCall
  created_lt : ∀ c ∈ w.created, c.call.id < w.client.nextCall
  handled : ∀ c ∈ w.created, c.call ∉ creates w.client.outbox

/-- The presses of the rows are distinct, and waiting or acknowledged. -/
structure Settled (w : World) : Prop where
  ledger : w.client.Ledger
  settled : ∀ c ∈ w.created,
    c.call ∈ creates w.client.pending ∨ c.call.origin ∈ w.client.history.acknowledged
  distinct : (w.created.map fun c => c.call.origin).Nodup

variable {G : Gems} {P : Platform} {w w' : World} {a : Act}

/-- What a handled request adds to the history: one row, or nothing. -/
theorem serve_created (h : Tokens G w) {call : Call} (hcall : call ∈ w.client.outbox) (env : Env) :
    (w.serve G call env).created = w.created ∨ (isCreate call.request = true ∧
      ∃ row, (w.serve G call env).created = w.created ++ [⟨call, row⟩]) := by
  by_cases hcreate : isCreate call.request = true
  · obtain ⟨token, text, uid, hreq, htoken⟩ := h.sent call (mem_creates.mpr ⟨hcall, hcreate⟩)
    rcases serve_created_cases w env hreq htoken with ⟨row, -, -, -, hcreated⟩ | ⟨hcreated, -⟩
    · exact Or.inr ⟨hcreate, row, hcreated⟩
    · exact Or.inl hcreated
  · exact Or.inl (serve_created_of_not_create (by simpa using hcreate))

/-- A call is new when it is sent, and handled once. -/
theorem numbered_step (htokens : Tokens G w) (h : Numbered w) (hstep : w.step G P a = some w') :
    Numbered w' := by
  rcases client_cases hstep with ⟨e, -, hclient, -, -, hcreated⟩ | ⟨call, env, -, hcall, rfl⟩ |
    ⟨env, request, -, rfl⟩
  · rcases Process.sends_step hclient with ⟨-, hout, hnext, -⟩ |
      ⟨user, text, press, -, -, -, hout, hnext, -⟩
    -- nothing is sent
    · refine ⟨by rw [hout]; exact h.sent_nodup, ?_, ?_, by rw [hout, hcreated]; exact h.handled⟩
      · rw [hout]
        intro c hc
        have hlt := h.sent_lt c hc
        omega
      · rw [hcreated]
        intro c hc
        have hlt := h.created_lt c hc
        omega
    · -- the new call has a number that no other call has
      refine ⟨?_, ?_, ?_, ?_⟩
      · rw [hout, ← List.concat_eq_append, List.nodup_concat]
        refine ⟨fun hmem => ?_, h.sent_nodup⟩
        have hlt := h.sent_lt _ hmem
        simp only at hlt
        omega
      · rw [hout]
        intro c hc
        rw [List.mem_append, List.mem_singleton] at hc
        rcases hc with hc | rfl
        · have hlt := h.sent_lt c hc
          omega
        · show w.client.nextCall < w'.client.nextCall
          omega
      · rw [hcreated]
        intro c hc
        have hlt := h.created_lt c hc
        omega
      · rw [hcreated, hout]
        intro c hc hmem
        have hlt := h.created_lt c hc
        rw [List.mem_append, List.mem_singleton] at hmem
        cases hmem with
        | inl hmem =>
          exact h.handled c hc hmem
        | inr heq =>
          rw [heq] at hlt
          simp only at hlt
          omega
  · -- the call leaves the outbox, for good
    have hout : creates (w.serve G call env).client.outbox =
        (creates w.client.outbox).erase call := creates_erase call _
    have hsub := creates_erase_subset call w.client.outbox
    rw [creates_erase] at hsub
    refine ⟨?_, ?_, ?_, ?_⟩
    · rw [hout]
      exact h.sent_nodup.erase call
    · rw [hout]
      intro c hc
      exact h.sent_lt c (hsub hc)
    · intro c hc
      -- the row it may have made is its own
      rcases serve_created htokens hcall env with hsame | ⟨hcreate, row, hnew⟩
      · rw [hsame] at hc
        exact h.created_lt c hc
      · rw [hnew, List.mem_append, List.mem_singleton] at hc
        rcases hc with hc | rfl
        · exact h.created_lt c hc
        · exact h.sent_lt call (mem_creates.mpr ⟨hcall, hcreate⟩)
    · rw [hout]
      intro c hc hmem
      rcases serve_created htokens hcall env with hsame | ⟨-, row, hnew⟩
      · rw [hsame] at hc
        exact h.handled c hc (hsub hmem)
      · rw [hnew, List.mem_append, List.mem_singleton] at hc
        rcases hc with hc | rfl
        · exact h.handled c hc (hsub hmem)
        -- it was under way once, and is not any more
        · exact h.sent_nodup.not_mem_erase hmem
  · exact ⟨h.sent_nodup, h.sent_lt, h.created_lt, h.handled⟩

/-- Every prompt step keeps the presses of the rows distinct. -/
theorem settled_step (htokens : Tokens G w) (hnum : Numbered w) (h : Settled w)
    (hprompt : w.Prompt a) (hstep : w.step G P a = some w') : Settled w' := by
  have hledger := ledger_step h.ledger hstep
  rcases client_cases hstep with ⟨e, hraises, hclient, -, -, hcreated⟩ |
    ⟨call, env, rfl, hcall, rfl⟩ | ⟨env, request, -, rfl⟩
  · refine ⟨hledger, ?_, by rw [hcreated]; exact h.distinct⟩
    rw [hcreated]
    intro c hc
    -- a row made before: its call is pending, or its press acknowledged
    cases h.settled c hc with
    | inl hpending =>
      rcases Process.pending_step hclient hpending with hpending | hack | ⟨error, rfl⟩
      · exact Or.inl hpending
      · exact Or.inr hack
      · -- a failure is not reported, for the request has made this row
        have ha := hraises.eq_fail
        subst ha
        exact absurd rfl (hprompt c hc)
    | inr hack =>
      exact Or.inr (Process.acknowledged_step hclient hack)
  · rcases serve_created htokens hcall env with hsame | ⟨hcreate, row, hnew⟩
    · refine ⟨hledger, ?_, ?_⟩
      · rw [hsame]
        exact h.settled
      · rw [hsame]
        exact h.distinct
    · -- the client still waits for the call that makes this row
      have hpending : call ∈ creates w.client.pending :=
        mem_creates.mpr ⟨hprompt hcreate, hcreate⟩
      refine ⟨hledger, ?_, ?_⟩
      · rw [hnew]
        intro c hc
        rw [List.mem_append, List.mem_singleton] at hc
        rcases hc with hc | rfl
        · exact h.settled c hc
        · exact Or.inl hpending
      · rw [hnew, List.map_append, List.map_singleton, ← List.concat_eq_append,
          List.nodup_concat]
        refine ⟨fun hmem => ?_, h.distinct⟩
        -- an earlier row of this press would be of this very call, which is not handled yet
        obtain ⟨c, hc, horigin⟩ := List.mem_map.mp hmem
        cases h.settled c hc with
        | inl hwaiting =>
          have heq := Process.eq_of_origin_eq h.ledger hwaiting hpending horigin
          have hsent : c.call ∈ creates w.client.outbox := by
            rw [heq]
            exact mem_creates.mpr ⟨hcall, hcreate⟩
          exact hnum.handled c hc hsent
        | inr hack =>
          rw [horigin] at hack
          exact Process.not_acknowledged_of_outstanding h.ledger hpending hack
  · exact ⟨hledger, h.settled, h.distinct⟩

/-- Nothing has been sent or handled yet. -/
theorem numbered_init (h : Init G w) : Numbered w := by
  obtain ⟨r, db, -, rfl⟩ := h
  have hnil : creates (start r db).client.outbox = [] :=
    (Process.launch_polled r).quiet.outbox
  refine ⟨?_, ?_, ?_, ?_⟩
  · rw [hnil]
    exact List.nodup_nil
  · rw [hnil]
    intro call hcall
    cases hcall
  · intro c hc
    cases hc
  · intro c hc
    cases hc

theorem settled_init (h : Init G w) : Settled w := by
  obtain ⟨r, db, -, rfl⟩ := h
  refine ⟨Process.ledger_launch r, ?_, List.nodup_nil⟩
  intro c hc
  cases hc

/-- Along a run of prompt steps, the requests and the retries of a press make the server
    insert at most one row. -/
theorem posts_at_most_once {acts : List Act} (h0 : Init G w)
    (halong : Along (step G P) Prompt w acts) (hrun : run (step G P) w acts = some w')
    (press : Nat) : w'.created.countP (fun c => c.call.origin = press) ≤ 1 := by
  have hinv : Tokens G w' ∧ Numbered w' ∧ Settled w' :=
    run_invariant_along (I := fun w => Tokens G w ∧ Numbered w ∧ Settled w)
      (fun _ _ _ ⟨htokens, hnum, hsettled⟩ hprompt hstep => ⟨tokens_step htokens hstep,
        numbered_step htokens hnum hstep, settled_step htokens hnum hsettled hprompt hstep⟩)
      ⟨tokens_init h0, numbered_init h0, settled_init h0⟩ halong hrun
  have hcount := List.nodup_iff_count_le_one.mp hinv.2.2.distinct press
  rw [List.count, List.countP_map] at hcount
  simpa [Function.comp_def, beq_eq_decide] using hcount

/-- A post fails before the server handles it, and its retry makes the one row. -/
theorem posts_at_most_once_retry :
    ∃ w', run (step .reference .ascii) (start .new .empty) (registration ++
      [.client (.postThoughtPressed "hi" 0),
       .fail ⟨2, .createThought "1.86400" "hi", 0⟩ ⟨none, "timeout"⟩,
       .client (.retryFired ⟨0, "hi"⟩ 5),
       .serve ⟨3, .createThought "1.86400" "hi", 0⟩ (sampleEnv 0)]) = some w' ∧
      w'.db.thoughts.rows.length = 1 ∧ w'.created.countP (fun c => c.call.origin = 0) ≤ 1 := by
  obtain ⟨w', hrun, hlen⟩ := exists_run_of_any (step .reference .ascii) (start .new .empty)
    (registration ++
      [.client (.postThoughtPressed "hi" 0),
       .fail ⟨2, .createThought "1.86400" "hi", 0⟩ ⟨none, "timeout"⟩,
       .client (.retryFired ⟨0, "hi"⟩ 5),
       .serve ⟨3, .createThought "1.86400" "hi", 0⟩ (sampleEnv 0)])
    (fun w' => decide (w'.db.thoughts.rows.length = 1)) (by decide +kernel)
  -- every step of this run is prompt
  exact ⟨w', hrun, of_decide_eq_true hlen,
    posts_at_most_once (init_new _ _) (by decide +kernel) hrun 0⟩

/-- The server inserts the row, the client times out, and its retry is handled too. -/
def lostResponse : List Act :=
  registration ++
  [.client (.postThoughtPressed "hi" 0),
   .serve ⟨2, .createThought "1.86400" "hi", 0⟩ (sampleEnv 0),
   .fail ⟨2, .createThought "1.86400" "hi", 0⟩ ⟨none, "timeout"⟩,
   .client (.retryFired ⟨0, "hi"⟩ 5),
   .serve ⟨3, .createThought "1.86400" "hi", 0⟩ (sampleEnv 5000000)]

/-- Not every press makes at most one row. -/
theorem retry_posts_again :
    ¬ ∀ (G : Gems) (P : Platform) (w w' : World) (acts : List Act), Init G w →
      run (step G P) w acts = some w' →
      ∀ press, w'.created.countP (fun c => c.call.origin = press) ≤ 1 := by
  intro h
  obtain ⟨w', hrun, hw'⟩ := exists_run_of_any (step .reference .ascii) (start .new .empty)
    lostResponse (fun w' => decide (w'.created.countP (fun c => c.call.origin = 0) = 2))
    (by decide +kernel)
  have htwo := of_decide_eq_true hw'
  have hone := h _ _ _ _ _ (init_new _ _) hrun 0
  omega

end World

end ReactiveDemo
