import ReactiveDemo.ForStd.Run
import ReactiveDemo.ObjectStore.MergeChanges

/-!
# The notifier of a collection

`CollectionNotifier` accumulates, for each callback, the changes from what the callback was
last told to the version that the notifier has run for, and hands them over when the
versions of notifier and Realm agree. `same` says which rows stand for one object; a row
keeps its value when it is equal.

The notifier starts when it has run for the first time. Errors and
`suppress_next_notification` are left out, and no callback is added or removed while
callbacks are called. The query has a sort, so the versions that the notifier runs for are
described without moves.

## Key results

- `told_step`: what the accumulated changes of a callback are, at every step
- `told_run`: in every run, each call tells what changed since the one before
- `deliver_current`: after a delivery every callback was told of the present rows
-/

variable {α : Type*}

/-- `CollectionNotifier::Callback`. -/
structure Callback (α : Type*) where
  token : Nat
  accumulatedChanges : CollectionChangeBuilder := {}
  changesToDeliver : CollectionChangeSet := .empty
  initialDelivered : Bool := false
  /-- History: the rows that its `after` found, and the changes it was called with. -/
  calls : List (List α × CollectionChangeSet) := []

structure CollectionNotifier (α : Type*) where
  /-- The rows at the version that the notifier has run for. -/
  rows : List α
  nextToken : Nat := 0
  callbacks : List (Callback α) := []

namespace CollectionNotifier

/-! ## The code -/

def addCallback (n : CollectionNotifier α) : CollectionNotifier α :=
  { n with
    nextToken := n.nextToken + 1
    callbacks := n.callbacks ++ [{ token := n.nextToken }] }

def removeCallback (token : Nat) (n : CollectionNotifier α) : CollectionNotifier α :=
  { n with callbacks := n.callbacks.eraseP fun callback => callback.token = token }

def addChanges (change : CollectionChangeBuilder) (n : CollectionNotifier α) :
    CollectionNotifier α :=
  { n with callbacks := n.callbacks.map fun callback =>
      { callback with accumulatedChanges := callback.accumulatedChanges.merge change } }

/-- `package_for_delivery`; `finalize` leaves nothing accumulated. -/
def packageForDelivery (n : CollectionNotifier α) : CollectionNotifier α :=
  { n with callbacks := n.callbacks.map fun callback =>
      { callback with
        changesToDeliver := callback.accumulatedChanges.finalize
        accumulatedChanges := {} } }

/-- `after_advance` for one callback, which finds `rows`. -/
def after (rows : List α) (callback : Callback α) : Callback α :=
  if callback.initialDelivered && callback.changesToDeliver.isEmpty then callback
  else
    { callback with
      initialDelivered := true
      changesToDeliver := .empty
      calls := callback.calls ++ [(rows, callback.changesToDeliver)] }

def afterAdvance (n : CollectionNotifier α) : CollectionNotifier α :=
  { n with callbacks := n.callbacks.map (after n.rows) }

/-- `process_available_async`, when the notifier is at the version of the Realm. -/
def deliver (n : CollectionNotifier α) : CollectionNotifier α :=
  n.packageForDelivery.afterAdvance

end CollectionNotifier

/-! ## Steps -/

inductive NotifierEvent (α : Type*) where
  | addCallback
  | removeCallback (token : Nat)
  /-- The worker runs the notifier for a version with these rows. -/
  | run (rows : List α) (change : CollectionChangeBuilder)
  | deliver

namespace CollectionNotifier

variable (same : α → α → Prop)

def step [DecidableRel same] [DecidableEq α] (n : CollectionNotifier α) :
    NotifierEvent α → Option (CollectionNotifier α)
  | .addCallback => some n.addCallback
  | .removeCallback token => some (n.removeCallback token)
  | .run rows change =>
    -- what `calculate` has found out describes the change, without moves
    if change.Describes same Eq n.rows rows then some { n.addChanges change with rows } else none
  | .deliver => some n.deliver

/-! ## What a callback has been told -/

/-- A call tells what changed since the one before it, and that is something. -/
def TellsFrom (a b : List α × CollectionChangeSet) : Prop :=
  ¬b.2.isEmpty ∧ b.2.Tells same Eq a.1 b.1

/-- The calls of a callback tell what changed from one to the next, and what is accumulated
    for it describes what has changed since the last. -/
structure Told (rows : List α) (callback : Callback α) : Prop where
  called : callback.initialDelivered = true ↔ callback.calls ≠ []
  accumulated : ∃ base, callback.accumulatedChanges.Describes same Eq base rows ∧
    ∀ call ∈ callback.calls.getLast?, call.1 = base
  calls : callback.calls.IsChain (TellsFrom same)

variable {same}

theorem told_new (hrefl : ∀ x, same x x) (rows : List α) (token : Nat) :
    Told same rows { token } where
  called := iff_of_false Bool.false_ne_true fun h => h rfl
  accumulated :=
    ⟨rows, CollectionChangeBuilder.describes_empty hrefl (fun _ => rfl) rows,
      fun _ h => (Option.not_mem_none _ h).elim⟩
  calls := .nil

/-- What a version changes is merged into what is accumulated, which then describes both. The
    calls stay. -/
theorem Told.addChanges {rows rows' : List α} {callback : Callback α}
    {change : CollectionChangeBuilder} (h : Told same rows callback)
    (htrans : ∀ x y z, same x y → same y z → same x z)
    (hchange : change.Describes same Eq rows rows') :
    Told same rows'
      { callback with accumulatedChanges := callback.accumulatedChanges.merge change } where
  called := h.called
  accumulated := by
    obtain ⟨base, hbase, hlast⟩ := h.accumulated
    refine ⟨base, (hbase.merge hchange).imp ?_ ?_, hlast⟩
    -- an object that stayed the same twice, and a row that was kept twice
    · intro x z ⟨y, hxy, hyz⟩
      exact htrans x y z hxy hyz
    · intro x z ⟨y, hxy, hyz⟩
      exact hxy.trans hyz
  calls := h.calls

/-- A callback is told what has been accumulated for it, unless that is nothing. -/
theorem Told.delivered {rows : List α} {callback : Callback α} (h : Told same rows callback)
    (hrefl : ∀ x, same x x) :
    Told same rows (after rows
      { callback with
        changesToDeliver := callback.accumulatedChanges.finalize
        accumulatedChanges := {} }) ∧
    ∃ call ∈ (after rows
      { callback with
        changesToDeliver := callback.accumulatedChanges.finalize
        accumulatedChanges := {} }).calls.getLast?, call.1 = rows := by
  obtain ⟨base, hbase, hlast⟩ := h.accumulated
  have htells := hbase.tells
  -- after the call nothing is accumulated, from the present rows on
  have hempty := CollectionChangeBuilder.describes_empty hrefl (fun _ => rfl) rows
  rw [after]
  split
  · next hskip =>
    -- nothing has changed since the last call
    obtain ⟨hinitial, hnothing⟩ := Bool.and_eq_true_iff.mp hskip
    have hrows : base = rows := htells.eq_of_isEmpty hnothing
    subst hrows
    obtain ⟨call, hcall⟩ := Option.ne_none_iff_exists'.mp
      (mt List.getLast?_eq_none_iff.mp (h.called.mp hinitial))
    exact ⟨⟨h.called, ⟨base, hempty, hlast⟩, h.calls⟩, call, hcall, hlast call hcall⟩
  · next hcall =>
    -- the call is appended, with the present rows
    refine ⟨⟨iff_of_true rfl (List.concat_ne_nil _ _), ⟨rows, hempty, ?_⟩, ?_⟩, ?_⟩
    · intro call hcall
      rw [List.getLast?_concat] at hcall
      cases hcall
      rfl
    -- it tells what has changed since the call before, if there was one, and that is something
    · refine List.IsChain.append h.calls (.singleton _) fun a ha b hb => ?_
      cases hb
      have hinitial : callback.initialDelivered = true :=
        h.called.mpr (List.ne_nil_of_mem (List.mem_of_getLast? ha))
      refine ⟨fun hnothing => hcall ?_, ?_⟩
      · exact Bool.and_eq_true_iff.mpr ⟨hinitial, hnothing⟩
      · rw [hlast a ha]
        exact htells
    · exact ⟨_, List.getLast?_concat, rfl⟩

/-- After a delivery every callback was told of the present rows. -/
theorem deliver_current {n : CollectionNotifier α} (hrefl : ∀ x, same x x)
    (h : ∀ callback ∈ n.callbacks, Told same n.rows callback) :
    ∀ callback ∈ n.deliver.callbacks, ∃ call ∈ callback.calls.getLast?, call.1 = n.rows := by
  intro callback hmem
  obtain ⟨packaged, hpackaged, rfl⟩ := List.mem_map.mp hmem
  obtain ⟨before, hbefore, rfl⟩ := List.mem_map.mp hpackaged
  exact ((h before hbefore).delivered hrefl).2

section

variable [DecidableRel same] [DecidableEq α] {n n' : CollectionNotifier α} {e : NotifierEvent α}

/-- Every step keeps the account of what each callback was told. -/
theorem told_step (hrefl : ∀ x, same x x) (htrans : ∀ x y z, same x y → same y z → same x z)
    (h : ∀ callback ∈ n.callbacks, Told same n.rows callback) (hstep : step same n e = some n') :
    ∀ callback ∈ n'.callbacks, Told same n'.rows callback := by
  cases e with
  | addCallback =>
    cases hstep
    intro callback hmem
    -- the others, or the new callback, which has been told nothing
    cases List.mem_append.mp hmem with
    | inl hmem => exact h callback hmem
    | inr hmem =>
      cases List.mem_singleton.mp hmem
      exact told_new hrefl n.rows n.nextToken
  | removeCallback token =>
    cases hstep
    exact fun callback hmem => h callback (List.mem_of_mem_eraseP hmem)
  | run rows change =>
    -- the change is merged into what every callback has accumulated
    obtain ⟨hchange, heq⟩ := Option.ite_none_right_eq_some.mp hstep
    cases heq
    intro callback hmem
    obtain ⟨before, hbefore, rfl⟩ := List.mem_map.mp hmem
    exact (h before hbefore).addChanges htrans hchange
  | deliver =>
    cases hstep
    intro callback hmem
    -- packaged first, and then called
    obtain ⟨packaged, hpackaged, rfl⟩ := List.mem_map.mp hmem
    obtain ⟨before, hbefore, rfl⟩ := List.mem_map.mp hpackaged
    exact ((h before hbefore).delivered hrefl).1

theorem told_run {rows : List α} {es : List (NotifierEvent α)} (hrefl : ∀ x, same x x)
    (htrans : ∀ x y z, same x y → same y z → same x z)
    (hrun : Transition.run (step same) { rows } es = some n) :
    ∀ callback ∈ n.callbacks, Told same n.rows callback := by
  refine Transition.run_invariant
    (I := fun n => ∀ callback ∈ n.callbacks, Told same n.rows callback) ?_ ?_ hrun
  · exact fun _ _ _ h hstep => told_step hrefl htrans h hstep
  · exact fun _ hmem => (List.not_mem_nil hmem).elim

end

end CollectionNotifier
