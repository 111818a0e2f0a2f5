import ReactiveDemo.Client.Redux
import ReactiveDemo.ForStd.List

/-!
# The thoughts screen

`ThoughtsViewController` with its table view, and the `ThoughtsObserver` that feeds
the store. The table view is the number of rows UIKit believes it has: it is loaded
from `numberOfRowsInSection` at first layout and changed only by `reloadData` and by
`beginUpdates`/`endUpdates` batches. A batch changes it by the batch's own insertions
and deletions, whatever the data source says, so it is an `Int`.
-/

namespace ReactiveDemo

/-- The `NotificationToken` of the observer: no live token, a token whose `.initial`
    is still to come, or one that last reported `results`. -/
inductive Observer where
  | stopped
  | waiting
  | observing (results : List Thought)
deriving DecidableEq, Repr

/-- `RealmCollectionChange`. -/
inductive Change where
  | initial (results : List Thought)
  | update (results : List Thought) (deletions insertions modifications : List Nat)
  | error (error : String)
deriving DecidableEq, Repr

/-- What one call of `newState` did to the table, with the number of thoughts the data
    source had at that moment. -/
inductive Delivery where
  /-- No payload or an error: the table keeps its rows. -/
  | ignored (rows : Int) (count : Nat)
  | reloaded (count : Nat)
  | batch (rowsBefore : Int) (deletions insertions : Nat) (count : Nat)
deriving DecidableEq, Repr

/-- After the delivery the table has as many rows as the store has thoughts; for a
    batch this is the check UIKit makes in `endUpdates`. -/
def Delivery.Agrees : Delivery → Prop
  | .ignored rows count => rows = count
  | .reloaded _ => True
  | .batch rowsBefore deletions insertions count => rowsBefore - deletions + insertions = count

instance : DecidablePred Delivery.Agrees := fun d => by
  cases d <;> simp only [Delivery.Agrees] <;> infer_instance

structure Screen where
  rows : Int := 0
  /-- Whether the table was laid out, so that `rows` has been loaded. -/
  laidOut : Bool := false
  subscribed : Bool := false
  observer : Observer := .stopped
  /-- History: what the calls of `newState` did, in order. -/
  deliveries : List Delivery := []

namespace Screen

def deliver (d : Delivery) (s : Screen) : Screen := { s with deliveries := s.deliveries ++ [d] }

/-- `ThoughtsViewController.newState(state:)`. -/
def newState (state : ThoughtsState) (s : Screen) : Screen :=
  let count := state.thoughts.length
  match state.loadedThoughtsPayload with
  | none => s.deliver (.ignored s.rows count)
  | some (.initial _) => { s with rows := count }.deliver (.reloaded count)
  | some (.update _ deletions insertions _) =>
    { s with rows := s.rows - deletions.length + insertions.length }.deliver
      (.batch s.rows deletions.length insertions.length count)
  | some (.error _) => s.deliver (.ignored s.rows count)

/-- First layout of the table: the row count is read from the data source. -/
def layout (state : ThoughtsState) (s : Screen) : Screen :=
  { s with rows := state.thoughts.length, laidOut := true }

/-- The index lists of an `.update` are a diff between two result snapshots: ascending
    and in range, and the rows they do not name are the same objects in the same order.
    `RLMCollectionChange` gives the modified rows by their indices in the old snapshot. -/
structure ValidDiff (old new : List Thought) (deletions insertions modifications : List Nat) :
    Prop where
  deletions_sorted : deletions.Pairwise (· < ·)
  insertions_sorted : insertions.Pairwise (· < ·)
  deletions_lt : ∀ k ∈ deletions, k < old.length
  insertions_lt : ∀ k ∈ insertions, k < new.length
  modifications_lt : ∀ k ∈ modifications, k < old.length
  unchanged : (old.withoutIdx deletions).map Thought.id = (new.withoutIdx insertions).map Thought.id

instance (old new : List Thought) (d i m : List Nat) : Decidable (ValidDiff old new d i m) :=
  decidable_of_iff
    (d.Pairwise (· < ·) ∧ i.Pairwise (· < ·) ∧ (∀ k ∈ d, k < old.length) ∧
      (∀ k ∈ i, k < new.length) ∧ (∀ k ∈ m, k < old.length) ∧
      (old.withoutIdx d).map Thought.id = (new.withoutIdx i).map Thought.id)
    ⟨fun ⟨a, b, c, d, e, f⟩ => ⟨a, b, c, d, e, f⟩, fun h => ⟨h.1, h.2, h.3, h.4, h.5, h.6⟩⟩

end Screen

end ReactiveDemo
