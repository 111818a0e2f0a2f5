import ReactiveDemo.Client.Posts

/-!
# What a press stands for

Presses are numbered in order, and a request or a retry carries the number of its press.
The text it carries is the text of that press, however often it was sent before.

## Key results

- `presses_step`: presses are only added
- `sends_step`: a step sends at most one create request, for the press it runs
- `texts_step`: every step keeps the texts
-/

namespace ReactiveDemo

/-- The press with this number was a press with this text. -/
def HasText (presses : List Press) (press : Nat) (text : String) : Prop :=
  ∃ author, presses[press]? = some ⟨text, author⟩

theorem HasText.unique {presses : List Press} {press : Nat} {text text' : String}
    (h : HasText presses press text) (h' : HasText presses press text') : text = text' := by
  obtain ⟨author, hget⟩ := h
  obtain ⟨author', hget'⟩ := h'
  rw [hget, Option.some.injEq, Press.mk.injEq] at hget'
  exact hget'.1

theorem HasText.mono {presses presses' : List Press} {press : Nat} {text : String}
    (h : HasText presses press text) (hpre : presses <+: presses') :
    HasText presses' press text := by
  obtain ⟨author, hget⟩ := h
  exact ⟨author, List.getElem?_of_isPrefix hpre hget⟩

namespace Process

variable {P : Platform} {p p' : Process} {e : Event}

/-- The step runs `createThoughtAction`, for a new press or for a retry. -/
def Runs (text : String) (press : Nat) (p : Process) (e : Event) : Prop :=
  (∃ now, e = .postThoughtPressed text now ∧ press = p.history.presses.length) ∨
  (∃ now, e = .retryFired ⟨press, text⟩ now ∧ ⟨press, text⟩ ∈ p.retries)

/-- A press of Post adds a press of the current user. -/
theorem postThoughtPressed_presses (P : Platform) (text : String) (now : Date) (p : Process) :
    (p.postThoughtPressed P text now).history.presses =
      p.history.presses ++ [⟨text, p.state.authState.currentUserId⟩] :=
  (createThoughtAction_posting P text p.history.presses.length now (p.addPress text)).presses

/-- Nothing else changes the presses. -/
theorem presses_step (h : p.step P e = some p') :
    p'.history.presses = p.history.presses ∨ ∃ text now, e = .postThoughtPressed text now ∧
      p'.history.presses = p.history.presses ++ [⟨text, p.state.authState.currentUserId⟩] := by
  rcases step_posts h with ⟨text, now, rfl, rfl⟩ | ⟨retry, now, -, -, rfl⟩ |
    ⟨call, token, text, -, -, -, rfl⟩ | ⟨call, token, text, error, -, -, -, rfl⟩ | hquiet
  · exact Or.inr ⟨text, now, rfl, postThoughtPressed_presses P text now p⟩
  · left
    exact (createThoughtAction_posting P retry.text retry.press now
      { p with retries := p.retries.erase retry }).presses
  · exact Or.inl rfl
  · exact Or.inl rfl
  · exact Or.inl hquiet.presses

theorem presses_prefix_step (h : p.step P e = some p') :
    p.history.presses <+: p'.history.presses := by
  rcases presses_step h with heq | ⟨text, now, -, heq⟩
  · rw [heq]
  · rw [heq]
    exact List.prefix_append _ _

/-- Between `p` and `p'` the create request `call` for `text` is sent; at most a local copy
    is saved besides. -/
structure Sent (call : Call) (text : String) (p p' : Process) : Prop where
  pending : creates p'.pending = creates p.pending ++ [call]
  outbox : creates p'.outbox = creates p.outbox ++ [call]
  nextCall : p'.nextCall = p.nextCall + 1
  saved : p'.history.saved = p.history.saved ∨
    p'.history.saved = p.history.saved ++ [⟨call.origin, text, p.history.session⟩]

/-- Between `p` and `p'` no create request is sent. -/
structure Unsent (p p' : Process) : Prop where
  pending : creates p'.pending ⊆ creates p.pending
  outbox : creates p'.outbox = creates p.outbox
  nextCall : p.nextCall ≤ p'.nextCall
  saved : p'.history.saved = p.history.saved

/-- A step sends no create request, or it sends one: with the current user's token, and the
    text and the number of the press that the step runs. -/
theorem sends_step (h : p.step P e = some p') :
    Unsent p p' ∨ ∃ user text press, p.currentUser = some user ∧ Runs text press p e ∧
      Sent ⟨p.nextCall, .createThought user.jwtToken text, press⟩ text p p' := by
  -- a press and a retry run the action in a state that differs from `p` in other fields only
  have hrun : ∀ (q : Process) (text : String) (press : Nat) (now : Date), Runs text press p e →
      q.pending = p.pending → q.outbox = p.outbox → q.currentUser = p.currentUser →
      q.nextCall = p.nextCall → q.history.saved = p.history.saved →
      q.history.session = p.history.session → p' = q.createThoughtAction P text press now →
      Unsent p p' ∨ ∃ user text press, p.currentUser = some user ∧ Runs text press p e ∧
        Sent ⟨p.nextCall, .createThought user.jwtToken text, press⟩ text p p' := by
    rintro q text press now hruns hpending hout huser hnext hsaved hsession rfl
    rcases createThoughtAction_cases P text press now q with ⟨-, heq⟩ | ⟨user, hq, -⟩
    -- nobody is logged in, and the press is dropped
    · left
      rw [heq]
      have hsub : creates q.pending ⊆ creates p.pending := by
        rw [hpending]
        exact List.Subset.refl _
      exact ⟨hsub, congrArg creates hout, hnext.ge, hsaved⟩
    -- the request that is sent is the one of the action
    · right
      have hsends := createThoughtAction_sends P text press now hq
      obtain ⟨saved, hhistory, hcases⟩ := hsends.history
      rw [huser] at hq
      rw [hnext] at hsends
      refine ⟨user, text, press, hq, hruns, ?_, ?_, ?_, ?_⟩
      · rw [hsends.pending, hpending]
      · rw [hsends.outbox, hout]
      · rw [hsends.nextCall, hnext]
      · rw [hhistory, ← hsaved, ← hsession]
        rcases hcases with rfl | rfl
        · exact Or.inl (List.append_nil _)
        · exact Or.inr rfl
  rcases step_posts h with ⟨text, now, rfl, heq⟩ | ⟨retry, now, rfl, hretry, heq⟩ |
    ⟨call, token, text, -, -, -, rfl⟩ | ⟨call, token, text, error, -, -, -, rfl⟩ | hquiet
  · exact hrun (p.addPress text) text _ now (Or.inl ⟨now, rfl, rfl⟩) rfl rfl rfl rfl rfl rfl heq
  · exact hrun { p with retries := p.retries.erase retry } retry.text retry.press now
      (Or.inr ⟨now, rfl, hretry⟩) rfl rfl rfl rfl rfl rfl heq
  -- a create request that reports leaves the pending ones, and nothing is sent
  · exact Or.inl ⟨creates_erase_subset call p.pending, rfl, le_refl _, rfl⟩
  · exact Or.inl ⟨creates_erase_subset call p.pending, rfl, le_refl _, rfl⟩
  · have hsub : creates p'.pending ⊆ creates p.pending := by
      rw [hquiet.pending]
      exact List.Subset.refl _
    exact Or.inl ⟨hsub, hquiet.outbox, hquiet.nextCall, hquiet.saved⟩

/-- Where a create request in the outbox comes from. -/
theorem mem_outbox_step (h : p.step P e = some p') {call : Call}
    (hcall : call ∈ creates p'.outbox) :
    call ∈ creates p.outbox ∨ ∃ user text press, p.currentUser = some user ∧
      Runs text press p e ∧ call = ⟨p.nextCall, .createThought user.jwtToken text, press⟩ := by
  rcases sends_step h with hunsent | ⟨user, text, press, huser, hruns, hsent⟩
  · rw [hunsent.outbox] at hcall
    exact Or.inl hcall
  · rw [hsent.outbox, List.mem_append, List.mem_singleton] at hcall
    rcases hcall with hcall | rfl
    · exact Or.inl hcall
    · exact Or.inr ⟨user, text, press, huser, hruns, rfl⟩

/-! ## Texts -/

/-- What carries the number of a press carries its text. -/
structure Texts (p : Process) : Prop where
  pending : ∀ call ∈ creates p.pending, ∀ token text,
    call.request = .createThought token text → HasText p.history.presses call.origin text
  retries : ∀ retry ∈ p.retries, HasText p.history.presses retry.press retry.text
  saved : ∀ sv ∈ p.history.saved, HasText p.history.presses sv.press sv.text

theorem Quiet.texts (h : Quiet p p') (ht : p.Texts) : p'.Texts := by
  refine ⟨?_, ?_, ?_⟩
  · rw [h.pending, h.presses]
    exact ht.pending
  · rw [h.retries, h.presses]
    exact ht.retries
  · rw [h.saved, h.presses]
    exact ht.saved

/-- `createThoughtAction` passes the text of its press on. -/
theorem Texts.createThoughtAction (h : p.Texts) {text : String} {press : Nat}
    (htext : HasText p.history.presses press text) (P : Platform) (now : Date) :
    (p.createThoughtAction P text press now).Texts := by
  rcases createThoughtAction_cases P text press now p with ⟨-, heq⟩ | ⟨user, huser, -⟩
  · rw [heq]
    exact ⟨h.pending, h.retries, h.saved⟩
  · have hsends := createThoughtAction_sends P text press now huser
    obtain ⟨saved, hhistory, hsaved⟩ := hsends.history
    have hpresses := (createThoughtAction_posting P text press now p).presses
    -- the new request, the retries, and the new save
    refine ⟨?_, ?_, ?_⟩
    · intro call hcall token text' hreq
      rw [hsends.pending, List.mem_append, List.mem_singleton] at hcall
      rw [hpresses]
      rcases hcall with hcall | rfl
      · exact h.pending call hcall token text' hreq
      · cases hreq
        exact htext
    · rw [hsends.retries, hpresses]
      exact h.retries
    · intro sv hsv
      have hmem : sv ∈ p.history.saved ++ saved := by
        rw [hhistory] at hsv
        exact hsv
      rw [hpresses]
      -- what is saved in this step is the text of this press
      cases List.mem_append.mp hmem with
      | inl hsv =>
        exact h.saved sv hsv
      | inr hsv =>
        rcases hsaved with rfl | rfl
        · cases hsv
        · rw [List.mem_singleton] at hsv
          subst hsv
          exact htext

/-- A new press keeps the texts of the others. -/
theorem Texts.addPress (h : p.Texts) (text : String) : (p.addPress text).Texts := by
  have hpre : p.history.presses <+: (p.addPress text).history.presses := List.prefix_append _ _
  refine ⟨?_, ?_, ?_⟩
  · intro call hcall token text' hreq
    exact (h.pending call hcall token text' hreq).mono hpre
  · intro retry hretry
    exact (h.retries retry hretry).mono hpre
  · intro sv hsv
    exact (h.saved sv hsv).mono hpre

theorem Texts.complete (h : p.Texts) (call : Call) : (p.complete call).Texts := by
  refine ⟨?_, h.retries, h.saved⟩
  intro call' hcall'
  exact h.pending call' (creates_erase_subset call p.pending hcall')

/-- Every step keeps the texts. -/
theorem texts_step (ht : p.Texts) (h : p.step P e = some p') : p'.Texts := by
  rcases step_posts h with ⟨text, now, -, rfl⟩ | ⟨retry, now, -, hretry, rfl⟩ |
    ⟨call, token, text, -, hmem, hreq, rfl⟩ | ⟨call, token, text, error, -, hmem, hreq, rfl⟩ |
    hquiet
  -- the press is the last of the presses by now
  · have htext : HasText (p.addPress text).history.presses p.history.presses.length text :=
      ⟨_, List.getElem?_concat_length⟩
    exact (ht.addPress text).createThoughtAction htext P now
  -- the retry that fires has the text of its press
  · have herase : Texts { p with retries := p.retries.erase retry } :=
      ⟨ht.pending, fun r hr => ht.retries r (List.mem_of_mem_erase hr), ht.saved⟩
    exact herase.createThoughtAction (ht.retries retry hretry) P now
  -- a success leaves fewer requests and nothing new
  · have hcomplete := ht.complete call
    exact ⟨hcomplete.pending, hcomplete.retries, hcomplete.saved⟩
  · -- the retry carries the text of the request that failed
    have hcomplete := ht.complete call
    refine ⟨hcomplete.pending, ?_, hcomplete.saved⟩
    intro r hr
    cases List.mem_append.mp hr with
    | inl hr =>
      exact ht.retries r hr
    | inr hr =>
      rw [List.mem_singleton] at hr
      subst hr
      have hcreate : call ∈ creates p.pending := mem_creates.mpr ⟨hmem, by rw [hreq]; rfl⟩
      exact ht.pending call hcreate token text hreq
  · exact hquiet.texts ht

/-- A launched process has posted nothing yet. -/
theorem texts_launch (r : Realm) : (launch r).Texts := by
  apply (launch_polled r).quiet.texts
  refine ⟨?_, ?_, ?_⟩
  · intro call hcall
    cases hcall
  · intro retry hretry
    cases hretry
  · intro sv hsv
    cases hsv

end Process

end ReactiveDemo
