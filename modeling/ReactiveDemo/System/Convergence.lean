import ReactiveDemo.System.Fleet
import ReactiveDemo.ForStd.Sort

/-!
# Two clients, one feed

The copy of a post that a client stores carries the clock of the device, and the server's
row its `created_at`; the client keeps whichever it meets first. So clients that have
fetched the same rows show the same thoughts, and of each thought the author, the text and
the timestamp that they have met first.

## Key results

- `Member.mem_keys_iff`: a settled client shows what it has fetched, up to letter case
- `Fleet.feeds_converge`: two settled clients show the same thoughts, and when the same list
- `Fleet.own_clock_differs`: a post keeps the clock of its device
-/

namespace ReactiveDemo

open Transition Server

namespace Member

/-- The user has logged in once and stayed logged in; every post is acknowledged. -/
structure Settled (m : Member) : Prop where
  one_session : m.world.client.history.session ≤ 1
  acknowledged : creates m.world.client.pending = []
  no_retry : m.world.client.retries = []

instance (m : Member) : Decidable m.Settled :=
  decidable_of_iff (m.world.client.history.session ≤ 1 ∧ creates m.world.client.pending = [] ∧
    m.world.client.retries = [])
    ⟨fun ⟨a, b, c⟩ => ⟨a, b, c⟩, fun h => ⟨h.1, h.2, h.3⟩⟩

/-- The client has fetched the server's rows of the thoughts that it has saved itself. -/
def HeardOwn (db : Database) (m : Member) : Prop :=
  ∀ sv ∈ m.world.client.history.saved, ∀ row ∈ db.thoughts.rows, row.text = sv.text →
    (row.userId.map fun id => (id : Int)) = m.world.client.state.authState.currentUserId →
      ∀ v ∈ feedValue db row, v ∈ m.heard

instance (db : Database) (m : Member) : Decidable (m.HeardOwn db) :=
  inferInstanceAs (Decidable (∀ sv ∈ m.world.client.history.saved, ∀ row ∈ db.thoughts.rows, _))

/-- The first thought with the author and text of `v` that the client has met. -/
def first (P : Platform) (m : Member) (v : ThoughtValue) : Option ThoughtValue :=
  m.met.find? fun u => u.key P = v.key P

variable {G : Gems} {P : Platform} {m n : Member}

theorem feed_perm (m : Member) : m.feed.Perm m.world.client.realm.values :=
  List.perm_insertionSort _ _

/-- The first thought that was met stands for its author and text. -/
theorem find?_values (h : Accounted G P m) (k : String × String) :
    (m.world.client.realm.values.find? fun u => u.key P = k) =
      m.met.find? fun u => u.key P = k := by
  rw [h.recalls.values, find?_mergeNew, List.nil_append]

theorem nodup_keys (h : Accounted G P m) :
    (m.world.client.realm.values.map (ThoughtValue.key P)).Nodup := by
  have hnil : (([] : List ThoughtValue).map (ThoughtValue.key P)).Nodup := List.nodup_nil
  rw [h.recalls.values]
  exact nodup_map_mergeNew hnil _

/-- A thought that the current user has saved comes back under her name and its text. -/
theorem heard_of_saved (h : Accounted G P m) (hsettled : m.Settled)
    (hown : m.HeardOwn m.world.db) {sv : Saved} (hsv : sv ∈ m.world.client.history.saved)
    {user : User} (huser : m.world.client.currentUser = some user)
    (hsession : sv.session = m.world.client.history.session) :
    ∃ v ∈ m.heard, v.by_ = user.username ∧ v.text = sv.text := by
  obtain ⟨user', hcurrent, -, hkept⟩ := h.conserved.kept sv hsv hsession
  rw [huser, Option.some.injEq] at hcurrent
  subst hcurrent
  obtain ⟨hmem, hid⟩ := Process.mem_of_currentUser huser
  rcases hkept with hout | hsched | ⟨row, hrow, uid, hrowid, huid, htext⟩
  · -- a settled client has no post under way
    rw [Process.outstanding, hsettled.acknowledged] at hout
    cases hout
  · rw [Process.scheduled, hsettled.no_retry] at hsched
    cases hsched
  · -- the row on the server belongs to the user, under the same name
    obtain ⟨owner, howner, hownerid, hname⟩ := h.named.users user hmem
    have hfind : m.world.db.findUser uid = some owner :=
      Database.findUser_eq_some.mpr ⟨howner, by omega⟩
    have hvalue : feedValue m.world.db row =
        some ⟨owner.username, row.text, row.createdAt.toI⟩ := by
      rw [feedValue, hrowid, Option.bind_some, hfind]
      rfl
    refine ⟨_, hown sv hsv row hrow htext ?_ _ hvalue, hname, htext⟩
    rw [hrowid, hid, huid]
    rfl

/-- A settled client has stored what it has fetched, up to letter case. -/
theorem mem_keys_iff (h : Accounted G P m) (hsettled : m.Settled) (hown : m.HeardOwn m.world.db)
    {k : String × String} : k ∈ m.world.client.realm.values.map (ThoughtValue.key P) ↔
      k ∈ m.heard.map (ThoughtValue.key P) := by
  constructor
  · intro hk
    obtain ⟨v, hv, rfl⟩ := List.mem_map.mp hk
    rcases h.recalls.origin v hv with hheard | ⟨sv, hsv, htext, hcurrent⟩
    · exact List.mem_map_of_mem hheard
    · -- there was one session, so the post was the current user's
      have hbegun := h.saves.saved sv hsv
      have hone := hsettled.one_session
      obtain ⟨user, huser, hby⟩ := hcurrent (by omega)
      obtain ⟨u, hu, huby, hutext⟩ := heard_of_saved h hsettled hown hsv huser (by omega)
      have hkey : u.key P = v.key P := by
        rw [ThoughtValue.key, ThoughtValue.key, huby, hutext, hby, htext]
      rw [← hkey]
      exact List.mem_map_of_mem hu
  · intro hk
    -- what was fetched was merged
    rw [h.recalls.values, mem_map_mergeNew]
    exact Or.inr (List.map_subset _ h.recalls.heard_met hk)

/-- Two clients show the same list, up to the order of equal timestamps, iff of every author
    and text they have met the same thought first. -/
theorem sameUpToTies_feed_iff (hm : Accounted G P m) (hn : Accounted G P n) :
    List.SameUpToTies ThoughtValue.timestamp m.feed n.feed ↔
      ∀ k, (m.met.find? fun u => u.key P = k) = n.met.find? fun u => u.key P = k := by
  rw [feed, feed, List.sameUpToTies_insertionSort_iff fun _ _ => Iff.rfl,
    perm_iff_find?_eq (nodup_keys hm) (nodup_keys hn)]
  simp only [find?_values hm, find?_values hn]

/-- The feed shows every author and text that was fetched, once. -/
theorem feed_keys (h : Accounted G P m) (hsettled : m.Settled) (hown : m.HeardOwn m.world.db) :
    (m.feed.map (ThoughtValue.key P)).Nodup ∧
      ∀ k, k ∈ m.feed.map (ThoughtValue.key P) ↔ k ∈ m.heard.map (ThoughtValue.key P) := by
  have hperm := (feed_perm m).map (ThoughtValue.key P)
  refine ⟨hperm.nodup_iff.mpr (nodup_keys h), ?_⟩
  intro k
  rw [hperm.mem_iff]
  exact mem_keys_iff h hsettled hown

/-- Of an author and a text that were not fetched a settled client has met nothing. -/
theorem find?_met_eq_none (h : Accounted G P m) (hsettled : m.Settled)
    (hown : m.HeardOwn m.world.db) {k : String × String}
    (hk : k ∉ m.heard.map (ThoughtValue.key P)) : (m.met.find? fun u => u.key P = k) = none := by
  rw [← find?_values h, List.find?_eq_none]
  intro u hu hkey
  rw [← mem_keys_iff h hsettled hown] at hk
  exact hk (of_decide_eq_true hkey ▸ List.mem_map_of_mem hu)

end Member

namespace Fleet

variable {G : Gems} {P : Platform}

/-- Two clients of one server that started empty, stayed logged in, have all their posts
    acknowledged, and have fetched the same thoughts, those posts among them: both feeds show
    every author and text up to letter case once, and the same ones; and they are the same
    list, up to the order of equal timestamps, iff of each fetched thought both have met the
    same spelling and timestamp first. -/
theorem feeds_converge (hcase : ∀ s, P.lowercased s = G.downcase s) {db : Database}
    {acts : List FleetAct} {s : Fleet} (hrun : run (step G P) (start db) acts = some s)
    {i j : Nat} {m n : Member} (hi : s.procs[i]? = some m) (hj : s.procs[j]? = some n)
    (hm : m.Settled) (hn : n.Settled) (hmown : m.HeardOwn s.shared) (hnown : n.HeardOwn s.shared)
    (hsame : ∀ v, v ∈ m.heard ↔ v ∈ n.heard) :
    (m.feed.map (ThoughtValue.key P)).Nodup ∧ (n.feed.map (ThoughtValue.key P)).Nodup ∧
      (∀ k, k ∈ m.feed.map (ThoughtValue.key P) ↔ k ∈ n.feed.map (ThoughtValue.key P)) ∧
      (List.SameUpToTies ThoughtValue.timestamp m.feed n.feed ↔
        ∀ v ∈ m.heard, m.first P v = n.first P v) := by
  -- each of the two is a client of its own in a run of the server
  have hmacc : (m.on s.shared).Accounted G P :=
    Member.accounted_reachable hcase (member_reachable hrun hi)
  have hnacc : (n.on s.shared).Accounted G P :=
    Member.accounted_reachable hcase (member_reachable hrun hj)
  -- the database is of no account to what is settled and what is shown
  have hmset : (m.on s.shared).Settled := ⟨hm.1, hm.2, hm.3⟩
  have hnset : (n.on s.shared).Settled := ⟨hn.1, hn.2, hn.3⟩
  obtain ⟨hmnodup, hmkeys⟩ := Member.feed_keys hmacc hmset hmown
  obtain ⟨hnnodup, hnkeys⟩ := Member.feed_keys hnacc hnset hnown
  have hheard : ∀ k, k ∈ m.heard.map (ThoughtValue.key P) ↔ k ∈ n.heard.map (ThoughtValue.key P) := by
    intro k
    simp only [List.mem_map, hsame]
  refine ⟨hmnodup, hnnodup, ?_, ?_⟩
  -- the keys of a feed are those of what was fetched
  · intro k
    exact (hmkeys k).trans ((hheard k).trans (hnkeys k).symm)
  · refine (Member.sameUpToTies_feed_iff hmacc hnacc).trans ⟨fun h v _ => h (v.key P), ?_⟩
    intro h k
    by_cases hk : k ∈ m.heard.map (ThoughtValue.key P)
    · obtain ⟨v, hv, rfl⟩ := List.mem_map.mp hk
      exact h v hv
    · -- what was not fetched neither of them has met
      have hk' : k ∉ n.heard.map (ThoughtValue.key P) := fun hmem => hk ((hheard k).mpr hmem)
      rw [Member.find?_met_eq_none hmacc hmset hmown hk,
        Member.find?_met_eq_none hnacc hnset hnown hk']

/-- ann and bob register, ann posts when her clock reads 0 and the server's 5 seconds, and
    both fetch the post. -/
def postAndFetch : List FleetAct :=
  [.launch, .launch,
   .act 0 (.client (.registerPressed "ann" "secret")),
   .act 0 (.serve ⟨0, .signUp "ann" "secret", 1⟩ (sampleEnv 0)),
   .act 0 (.succeed 0),
   .act 1 (.client (.registerPressed "bob" "hidden")),
   .act 1 (.serve ⟨0, .signUp "bob" "hidden", 1⟩ (sampleEnv 0)),
   .act 1 (.succeed 0),
   .act 0 (.client (.postThoughtPressed "hi" 0)),
   .act 0 (.serve ⟨2, .createThought "1.86400" "hi", 0⟩ (sampleEnv 5000000)),
   .act 0 (.succeed 1),
   .act 0 (.serve ⟨1, .fetchThoughts "1.86400", 0⟩ (sampleEnv 6000000)),
   .act 0 (.succeed 2),
   .act 1 (.serve ⟨1, .fetchThoughts "2.86400", 0⟩ (sampleEnv 6000000)),
   .act 1 (.succeed 1)]

/-- ann and bob have fetched the one post, and are settled. -/
structure Fetched (s : Fleet) (m n : Member) : Prop where
  ann : s.procs[0]? = some m
  bob : s.procs[1]? = some n
  settled : m.Settled ∧ n.Settled
  heardOwn : m.HeardOwn s.shared ∧ n.HeardOwn s.shared
  heard : m.heard = [⟨"ann", "hi", 5⟩] ∧ n.heard = [⟨"ann", "hi", 5⟩]

theorem Fetched.same {s : Fleet} {m n : Member} (h : s.Fetched m n) (v : ThoughtValue) :
    v ∈ m.heard ↔ v ∈ n.heard := by
  rw [h.heard.1, h.heard.2]

/-- In that run both have fetched the one post, and show it with two timestamps. -/
theorem fetched_postAndFetch : ∃ s m n,
    run (step .reference .ascii) (start .empty) postAndFetch = some s ∧ s.Fetched m n ∧
      m.feed.map ThoughtValue.timestamp = [0] ∧ n.feed.map ThoughtValue.timestamp = [5] := by
  obtain ⟨s, hrun, hs⟩ := exists_run_of_any (step .reference .ascii) (start .empty) postAndFetch
    (fun s : Fleet => (s.procs[0]?).any fun m : Member => (s.procs[1]?).any fun n : Member =>
      decide ((m.Settled ∧ n.Settled) ∧ (m.HeardOwn s.shared ∧ n.HeardOwn s.shared) ∧
        (m.heard = [⟨"ann", "hi", 5⟩] ∧ n.heard = [⟨"ann", "hi", 5⟩]) ∧
        m.feed.map ThoughtValue.timestamp = [0] ∧ n.feed.map ThoughtValue.timestamp = [5]))
    (by decide +kernel)
  obtain ⟨m, hm, hs⟩ := (Option.any_eq_true _ _).mp hs
  obtain ⟨n, hn, hs⟩ := (Option.any_eq_true _ _).mp hs
  obtain ⟨hsettled, hown, hheard, hmfeed, hnfeed⟩ := of_decide_eq_true hs
  exact ⟨s, m, n, hrun, ⟨hm, hn, hsettled, hown, hheard⟩, hmfeed, hnfeed⟩

/-- Both show the post, once. -/
theorem feeds_converge_postAndFetch : ∃ s m n,
    run (step .reference .ascii) (start .empty) postAndFetch = some s ∧ s.Fetched m n ∧
      (m.feed.map (ThoughtValue.key .ascii)).Nodup ∧ (n.feed.map (ThoughtValue.key .ascii)).Nodup ∧
      (∀ k, k ∈ m.feed.map (ThoughtValue.key .ascii) ↔ k ∈ n.feed.map (ThoughtValue.key .ascii)) ∧
      (List.SameUpToTies ThoughtValue.timestamp m.feed n.feed ↔
        ∀ v ∈ m.heard, m.first .ascii v = n.first .ascii v) := by
  obtain ⟨s, m, n, hrun, hfetched, -, -⟩ := fetched_postAndFetch
  exact ⟨s, m, n, hrun, hfetched, feeds_converge (fun _ => rfl) hrun hfetched.ann hfetched.bob
    hfetched.settled.1 hfetched.settled.2 hfetched.heardOwn.1 hfetched.heardOwn.2 hfetched.same⟩

/-- Clients that have fetched the same thoughts do not always show the same list: the author
    keeps the clock of her device. And when her post is not among the fetched thoughts, the
    other one does not show it at all. -/
theorem own_clock_differs :
    (¬ ∀ (G : Gems) (P : Platform) (db : Database) (acts : List FleetAct) (s : Fleet),
      (∀ name, P.lowercased name = G.downcase name) →
      run (step G P) (start db) acts = some s → ∀ (i j : Nat) (m n : Member),
        s.procs[i]? = some m → s.procs[j]? = some n → m.Settled → n.Settled →
          m.HeardOwn s.shared → n.HeardOwn s.shared → (∀ v, v ∈ m.heard ↔ v ∈ n.heard) →
          List.SameUpToTies ThoughtValue.timestamp m.feed n.feed) ∧
    ¬ ∀ (G : Gems) (P : Platform) (db : Database) (acts : List FleetAct) (s : Fleet),
      (∀ name, P.lowercased name = G.downcase name) →
      run (step G P) (start db) acts = some s → ∀ (i j : Nat) (m n : Member),
        s.procs[i]? = some m → s.procs[j]? = some n → m.Settled → n.Settled →
          (∀ v, v ∈ m.heard ↔ v ∈ n.heard) →
          ∀ k, k ∈ m.feed.map (ThoughtValue.key P) ↔ k ∈ n.feed.map (ThoughtValue.key P) := by
  constructor
  · intro h
    obtain ⟨s, m, n, hrun, hfetched, hmfeed, hnfeed⟩ := fetched_postAndFetch
    have hties := h .reference .ascii .empty postAndFetch s (fun _ => rfl) hrun 0 1 m n
      hfetched.ann hfetched.bob hfetched.settled.1 hfetched.settled.2 hfetched.heardOwn.1
      hfetched.heardOwn.2 hfetched.same
    -- the two lists have the timestamps of two clocks
    have htimes := hties.1
    rw [hmfeed, hnfeed] at htimes
    exact absurd htimes (by decide)
  · intro h
    -- the first steps of that run: the post is acknowledged, and nothing is fetched
    obtain ⟨s, hrun, hs⟩ := exists_run_of_any (step .reference .ascii) (start .empty)
      (postAndFetch.take 11)
      (fun s : Fleet => (s.procs[0]?).any fun m : Member => (s.procs[1]?).any fun n : Member =>
        decide (m.Settled ∧ n.Settled ∧ m.heard = [] ∧ n.heard = [] ∧
          m.feed = [⟨"ann", "hi", 0⟩] ∧ n.feed = []))
      (by decide +kernel)
    obtain ⟨m, hm, hs⟩ := (Option.any_eq_true _ _).mp hs
    obtain ⟨n, hn, hs⟩ := (Option.any_eq_true _ _).mp hs
    obtain ⟨hmset, hnset, hmheard, hnheard, hmfeed, hnfeed⟩ := of_decide_eq_true hs
    have hkeys := h .reference .ascii .empty (postAndFetch.take 11) s (fun _ => rfl) hrun 0 1 m n
      hm hn hmset hnset (fun v => by rw [hmheard, hnheard])
    rw [hmfeed, hnfeed] at hkeys
    -- only her own device shows the post
    have hmem := (hkeys _).mp (List.mem_map_of_mem (List.mem_singleton_self _))
    cases hmem

end Fleet

end ReactiveDemo
