import ReactiveDemo.Client.TableRows
import ReactiveDemo.ObjectStore.CollectionNotifier

/-!
# The changes that the observer is given

`startObservingDatabase` adds its block to the notifier of the sorted query through
`RLMAddNotificationBlock`. What `observe` asks of the changes, an `.initial` and then diffs
between the results of one change and the next, is what the notifier delivers.

## Key results

- `observe_of_next`: a change that the observer can be given next is handled
- `run_next_of_chain`: calls that tell what changed give the observer diffs
- `observer_given_diffs`: in every run of the notifier
-/

namespace ReactiveDemo

/-- The rows of one object, by its primary key. -/
def Thought.Same (s t : Thought) : Prop := s.id = t.id

instance : DecidableRel Thought.Same := fun s t => inferInstanceAs (Decidable (s.id = t.id))

namespace Change

/-- The block of `RLMAddNotificationBlock` and `fromObjc`. -/
def fromObjc (skip : Bool) (call : List Thought × CollectionChangeSet) : Change :=
  if skip || call.2.isEmpty then .initial call.1
  else
    .update call.1 call.2.deletions.indexes call.2.insertions.indexes call.2.modifications.indexes

/-- The changes that the block is called with; `skip` is set for the first. -/
def ofCalls : List (List Thought × CollectionChangeSet) → List Change
  | [] => []
  | call :: calls => fromObjc true call :: calls.map (fromObjc false)

end Change

/-- What the observer can be given next, errors apart. -/
def Observer.next : Observer → Change → Option Observer
  | .waiting, .initial results => some (.observing results)
  | .observing old, .update results deletions insertions modifications =>
    if Screen.ValidDiff old results deletions insertions modifications then
      some (.observing results)
    else none
  | _, _ => none

theorem Screen.newState_observer (state : ThoughtsState) (s : Screen) :
    (s.newState state).observer = s.observer := by
  rw [newState_eq]

theorem Process.dispatch_observer (a : Action) (p : Process) :
    (p.dispatch a).screen.observer = p.screen.observer := by
  rw [dispatch_screen]
  split
  · exact Screen.newState_observer _ _
  · rfl

/-- A change that the observer may be given, with the rows that the Realm holds, is one that
    the process has a step for. -/
theorem Process.observe_of_next {p : Process} {change : Change} {results : List Thought}
    (h : p.screen.observer.next change = some (.observing results)) (hreports : p.Reports results) :
    ∃ p', p.observe change = some p' ∧ p'.screen.observer = .observing results := by
  cases change with
  | initial results' =>
    -- an `.initial` is what a waiting observer is given, and an `.update` one that observes
    cases hobserver : p.screen.observer with
    | stopped => rw [hobserver] at h; cases h
    | waiting =>
      rw [hobserver] at h
      cases h
      simp only [Process.observe, hobserver, if_pos hreports]
      exact ⟨_, rfl, dispatch_observer _ _⟩
    | observing old => rw [hobserver] at h; cases h
  | update results' d i m =>
    cases hobserver : p.screen.observer with
    | stopped => rw [hobserver] at h; cases h
    | waiting => rw [hobserver] at h; cases h
    | observing old =>
      rw [hobserver] at h
      obtain ⟨hvalid, heq⟩ := Option.ite_none_right_eq_some.mp h
      cases heq
      simp only [Process.observe, hobserver, if_pos (And.intro hreports hvalid)]
      refine ⟨_, rfl, ?_⟩
      -- dispatched or not, the observer has moved on
      split
      · exact dispatch_observer _ _
      · rfl
  | error error => cases hobserver : p.screen.observer <;> rw [hobserver] at h <;> cases h

/-- What a change set tells is a diff. -/
theorem Screen.validDiff_of_tells {old new : List Thought} {changes : CollectionChangeSet}
    (h : changes.Tells Thought.Same Eq old new) :
    Screen.ValidDiff old new changes.deletions.indexes changes.insertions.indexes
      changes.modifications.indexes where
  deletions_sorted := changes.deletions.ascending
  insertions_sorted := changes.insertions.ascending
  deletions_lt := h.deletions_lt
  insertions_lt := h.insertions_lt
  modifications_lt := h.modifications_lt
  unchanged := by
    rw [← List.forall₂_eq_eq_eq, List.forall₂_map_left_iff, List.forall₂_map_right_iff]
    exact h.others

open CollectionNotifier

theorem next_of_tellsFrom {a b : List Thought × CollectionChangeSet}
    (h : TellsFrom Thought.Same a b) :
    (Observer.observing a.1).next (Change.fromObjc false b) = some (.observing b.1) := by
  rw [Change.fromObjc, Bool.false_or, if_neg h.1]
  exact if_pos (Screen.validDiff_of_tells h.2)

/-- Calls that tell what changed give the observer one diff after another. -/
theorem run_next_of_chain {call : List Thought × CollectionChangeSet}
    {calls : List (List Thought × CollectionChangeSet)}
    (h : (call :: calls).IsChain (TellsFrom Thought.Same)) :
    Transition.run Observer.next (.observing call.1) (calls.map (Change.fromObjc false)) =
      some (.observing ((call :: calls).getLast (List.cons_ne_nil _ _)).1) := by
  induction calls generalizing call with
  | nil => rfl
  | cons next calls ih =>
    obtain ⟨hnext, hrest⟩ := List.isChain_cons_cons.mp h
    rw [List.map_cons, Transition.run, next_of_tellsFrom hnext, Option.bind_some, ih hrest,
      List.getLast_cons_cons]

/-- Calls that tell what changed from one to the next are what the observer may be given, and
    it ends at the rows of the last. -/
theorem run_next_ofCalls {calls : List (List Thought × CollectionChangeSet)}
    (h : calls.IsChain (TellsFrom Thought.Same)) :
    Transition.run Observer.next .waiting (Change.ofCalls calls) =
      some (calls.getLast?.elim .waiting fun call => .observing call.1) := by
  cases calls with
  | nil => rfl
  | cons call calls =>
    rw [List.getLast?_eq_some_getLast (List.cons_ne_nil _ _)]
    exact run_next_of_chain h

/-- In every run of the notifier, the observer is given an `.initial` and then valid diffs,
    and a delivery brings it to the present rows. -/
theorem observer_given_diffs {rows : List Thought} {es : List (NotifierEvent Thought)}
    {n : CollectionNotifier Thought}
    (hrun : Transition.run (CollectionNotifier.step Thought.Same) { rows } es = some n) :
    (∀ callback ∈ n.callbacks, ∃ observer,
      Transition.run Observer.next .waiting (Change.ofCalls callback.calls) = some observer) ∧
    ∀ callback ∈ n.deliver.callbacks,
      Transition.run Observer.next .waiting (Change.ofCalls callback.calls) =
        some (.observing n.rows) := by
  have hrefl (t : Thought) : t.Same t := rfl
  have htrans (s t u : Thought) (hst : s.Same t) (htu : t.Same u) : s.Same u := hst.trans htu
  -- rows with one primary key stand for one object
  have htold := told_run hrefl htrans hrun
  have htold' := told_step (e := .deliver) hrefl htrans htold rfl
  constructor
  · intro callback hmem
    exact ⟨_, run_next_ofCalls (htold callback hmem).calls⟩
  -- the last call of a delivery was about the present rows
  · intro callback hmem
    obtain ⟨call, hcall, hrows⟩ := deliver_current hrefl htold callback hmem
    rw [run_next_ofCalls (htold' callback hmem).calls, Option.mem_def.mp hcall, Option.elim_some,
      hrows]

/-- A row comes in and another goes, before both are delivered as one change. -/
def oneInOneOut : List (NotifierEvent Thought) :=
  [.addCallback, .deliver,
   .run [{ timestamp := 2, id := 1 }, { timestamp := 1, id := 0 }]
     { insertions := IndexSet.empty.add 0 },
   .run [{ timestamp := 2, id := 1 }] { deletions := IndexSet.empty.add 1 }]

theorem observer_given_diffs_oneInOneOut :
    ∃ n callback, Transition.run (CollectionNotifier.step Thought.Same)
        { rows := [{ timestamp := 1, id := 0 }] } oneInOneOut = some n ∧
      callback ∈ n.deliver.callbacks ∧
      Change.ofCalls callback.calls =
        [.initial [{ timestamp := 1, id := 0 }], .update [{ timestamp := 2, id := 1 }] [0] [0] []] ∧
      Transition.run Observer.next .waiting (Change.ofCalls callback.calls) =
        some (.observing n.rows) := by
  -- run the notifier
  obtain ⟨n, hrun, hn⟩ := Transition.exists_run_of_any (CollectionNotifier.step Thought.Same)
    { rows := [{ timestamp := 1, id := 0 }] } oneInOneOut
    (fun n => n.deliver.callbacks.any fun callback => Change.ofCalls callback.calls =
      [.initial [{ timestamp := 1, id := 0 }], .update [{ timestamp := 2, id := 1 }] [0] [0] []])
    (by decide +kernel)
  obtain ⟨callback, hmem, hcalls⟩ := List.any_eq_true.mp hn
  exact ⟨n, callback, hrun, hmem, of_decide_eq_true hcalls,
    (observer_given_diffs hrun).2 callback hmem⟩

end ReactiveDemo
