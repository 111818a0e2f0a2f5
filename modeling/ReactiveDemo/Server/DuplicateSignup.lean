import ReactiveDemo.Server.Signup

/-!
# Duplicate signups

The controller answers a duplicate signup with 400 when its lookup finds the username. A
request that looks the username up before another one inserts it passes the lookup, and is
stopped by the unique index only: nothing rescues the exception. Nor is the one rescued that
the index raises for a username too long for it.

## Key results

- `reported_own_iff`: the step of one request, stage by stage
- `duplicates_reported_iff`: the exact condition on the steps of a run
-/

namespace ReactiveDemo.Server

open Transition

/-- The parameters of a signup as the app sends them: two strings that are not blank, the
    password of at most 36 ASCII characters. -/
structure WellFormedSignup (params : Params) : Prop where
  username : ∃ u, param params "username" = .str u ∧ blankString u = false
  password : ∃ p, param params "password" = .str p ∧ blankString p = false ∧
    p.length ≤ 36 ∧ ∀ c ∈ p.toList, c.toNat < 128

/-- A request that is answered gets a response, no exception; and the response says that
    the user exists already, unless the request has created it. -/
def Signup.Reported (i : Nat) (tables : SignupTables) (req : Signup) : Prop :=
  ∀ outcome, req.stage = .answered outcome →
    (∃ response, outcome = .ok response) ∧
    (insertsOf i tables.inserts = [] →
      outcome = .ok ⟨400, errorJson (.str "User already exists")⟩)

/-- Every request is reported as it should be. -/
def DuplicatesReported (s : Signups) : Prop := s.All Signup.Reported

/-- The username that is looked up has no null character, and the one that is inserted is
    not taken and not too long for the index. -/
def Signup.Stage.Clear (G : Gems) (db : Database) : Signup.Stage → Prop
  | .required username _ => hasNullByte username = false
  | .free username _ => db.findByUsername username = none ∧ G.indexable username = true
  | _ => True

instance (G : Gems) (db : Database) (stage : Signup.Stage) : Decidable (stage.Clear G db) := by
  cases stage <;> unfold Signup.Stage.Clear <;> infer_instance

/-- The request whose turn it is is clear. -/
def Signups.Clear (G : Gems) (s : Signups) : SignupAct → Prop
  | .arrive _ => True
  | .advance i _ => ∀ req ∈ s.procs[i]?, req.stage.Clear G s.shared.db

instance (G : Gems) (s : Signups) (a : SignupAct) : Decidable (s.Clear G a) :=
  match a with
  | .arrive _ => .isTrue trivial
  | .advance i _ => inferInstanceAs (Decidable (∀ req ∈ s.procs[i]?, req.stage.Clear G s.shared.db))

/-! ## One step -/

/-- A request that is not answered has nothing to report. -/
theorem reported_of_advancing {i : Nat} {tables : SignupTables} {req : Signup}
    (h : ∀ outcome, req.stage ≠ .answered outcome) : req.Reported i tables :=
  fun outcome hstage => absurd hstage (h outcome)

/-- An exception is not what a request should end in. -/
theorem not_reported_error {i : Nat} {tables : SignupTables} {params : Params} {e : RubyError} :
    ¬ Signup.Reported i tables { params, stage := .answered (.error e) } := by
  intro h
  obtain ⟨⟨response, hresponse⟩, -⟩ := h _ rfl
  cases hresponse

theorem Signup.Reported.congr {i : Nat} {tables tables' : SignupTables} {req : Signup}
    (h : req.Reported i tables) (heq : insertsOf i tables'.inserts = insertsOf i tables.inserts) :
    req.Reported i tables' := by
  unfold Signup.Reported at h ⊢
  rw [heq]
  exact h

/-- A password of at most 36 characters and the salt in front of it are not too long. -/
theorem short_secret (uuid : Uuid) {p : String} (hp : p.length ≤ 36) :
    ¬ 72 < (uuid.val ++ p).length := by
  rw [String.length_append, uuid.length_eq]
  omega

/-- The insert of a username that is taken raises. -/
theorem createUser_taken (G : Gems) (env : Env) {username p : String} (hp : p.length ≤ 36)
    {db : Database} {other : UserRow} (hfind : db.findByUsername username = some other) :
    createUser G env username (.str p) db = .error .recordNotUnique := by
  simp only [createUser, concat, if_neg (short_secret env.uuid hp),
    Database.insertUser_eq_none hfind]

/-- The insert of a username that is free and fits in the index succeeds. -/
theorem createUser_free (G : Gems) (env : Env) {username p : String} (hp : p.length ≤ 36)
    {db : Database} (hfind : db.findByUsername username = none)
    (hindex : G.indexable username = true) :
    ∃ user db', createUser G env username (.str p) db = .ok (user, db') := by
  obtain ⟨next, hinsert, -⟩ := Database.insertUser_of_findByUsername hfind
    (G.bcryptCreate env.bcryptSalt (env.uuid.val ++ p)) env.uuid.val
  simp only [createUser, concat, if_neg (short_secret env.uuid hp), hinsert, hindex, if_true]
  exact ⟨_, _, rfl⟩

/-- With well-formed parameters, a request keeps its promise in a step iff it is clear. -/
theorem reported_own_iff {G : Gems} {i : Nat} {env : Env} {req req' : Signup}
    {tables tables' : SignupTables} (hwell : WellFormedSignup req.params)
    (hkept : req.Kept G i tables) (hrows : ∀ x ∈ tables.inserts, x.2 ∈ tables.db.users.rows)
    (hadvance : Signup.advance G i env req tables = some (req', tables')) :
    req'.Reported i tables' ↔ req.stage.Clear G tables.db := by
  have hkept' := hkept.own hrows hadvance
  obtain ⟨⟨u, hu, hublank⟩, ⟨p, hp, hpblank, hshort, -⟩⟩ := hwell
  have hcred := credentials_of_str (G := G) hu hp hublank hpblank
  obtain ⟨stage, hstage, rfl, -⟩ := signupAdvance_cases hadvance
  cases hfrom : req.stage with
  | received =>
    -- well-formed parameters pass `params.require`
    simp only [hfrom, Signup.Stage.advance, hcred, Option.some.injEq, Prod.mk.injEq] at hstage
    rw [← hstage.1]
    exact iff_of_true (reported_of_advancing (by simp)) trivial
  | required username password =>
    simp only [hfrom, Signup.Stage.advance, findByUsername] at hstage
    show _ ↔ hasNullByte username = false
    cases hnull : hasNullByte username with
    | true =>
      -- the lookup raises
      simp only [hnull, if_true, Option.some.injEq, Prod.mk.injEq] at hstage
      rw [← hstage.1]
      exact iff_of_false not_reported_error (by simp)
    | false =>
      refine iff_of_true ?_ rfl
      cases hfind : tables.db.findByUsername username with
      | some existing =>
        -- the early return is the report
        simp only [hnull, hfind, Bool.false_eq_true, if_false, Option.some.injEq,
          Prod.mk.injEq] at hstage
        rw [← hstage.1]
        intro outcome houtcome
        cases houtcome
        exact ⟨⟨_, rfl⟩, fun _ => rfl⟩
      | none =>
        simp only [hnull, hfind, Bool.false_eq_true, if_false, Option.some.injEq,
          Prod.mk.injEq] at hstage
        rw [← hstage.1]
        exact reported_of_advancing (by simp)
  | free username password =>
    simp only [Signup.Kept, hfrom] at hkept
    have hpassword : password = .str p := by
      have heq := hcred.symm.trans hkept.2.1
      simp only [Except.ok.injEq, Prod.mk.injEq] at heq
      exact heq.2.symm
    subst hpassword
    show _ ↔ tables.db.findByUsername username = none ∧ G.indexable username = true
    cases hfind : tables.db.findByUsername username with
    | some other =>
      -- the name has been taken since the lookup
      simp only [hfrom, Signup.Stage.advance, createUser_taken G env hshort hfind,
        Option.some.injEq, Prod.mk.injEq] at hstage
      rw [← hstage.1]
      exact iff_of_false not_reported_error (by simp)
    | none =>
      cases hindex : G.indexable username with
      | false =>
        -- the index cannot hold the name
        have hraise := createUser_unindexable env (Nat.not_lt.mp (short_secret env.uuid hshort))
          hfind hindex
        simp only [hfrom, Signup.Stage.advance, hraise, Option.some.injEq, Prod.mk.injEq] at hstage
        rw [← hstage.1]
        exact iff_of_false not_reported_error (by simp)
      | true =>
        obtain ⟨user, next, hcreate⟩ := createUser_free G env hshort hfind hindex
        simp only [hfrom, Signup.Stage.advance, hcreate, Option.some.injEq,
          Prod.mk.injEq] at hstage
        rw [← hstage.1]
        exact iff_of_true (reported_of_advancing (by simp)) ⟨rfl, rfl⟩
  | inserted username password user =>
    -- the second lookup does not fail
    have hauth := hkept.authenticateUser_eq hrows hfrom env.now
    simp only [hfrom, Signup.Stage.advance, hauth, Option.some.injEq, Prod.mk.injEq] at hstage
    rw [← hstage.1]
    exact iff_of_true (reported_of_advancing (by simp)) trivial
  | authenticated token userId =>
    simp only [hfrom, Signup.Stage.advance, Option.some.injEq, Prod.mk.injEq] at hstage
    rw [← hstage.1] at hkept' ⊢
    refine iff_of_true ?_ trivial
    intro outcome houtcome
    cases houtcome
    -- the request has its row
    have hne : insertsOf i tables'.inserts ≠ [] := by
      rcases hkept' with ⟨user, -, -, hown, -⟩ | ⟨-, hstatus⟩
      · rw [hown]
        exact List.cons_ne_nil _ _
      · exact absurd rfl hstatus
    exact ⟨⟨_, rfl⟩, fun hnone => absurd hnone hne⟩
  | answered outcome =>
    rw [hfrom] at hstage
    cases hstage

/-- A request takes its next step, or is answered. -/
theorem advance_eq_none {G : Gems} {i : Nat} {env : Env} {req : Signup} {tables : SignupTables}
    (h : Signup.advance G i env req tables = none) : ∃ outcome, req.stage = .answered outcome := by
  rw [Signup.advance, Option.map_eq_none_iff] at h
  cases hstage : req.stage with
  | answered outcome => exact ⟨outcome, rfl⟩
  -- every other stage can go on, whatever it finds
  | received =>
    simp only [hstage, Signup.Stage.advance] at h
    split at h <;> cases h
  | required username password =>
    simp only [hstage, Signup.Stage.advance] at h
    split at h <;> cases h
  | free username password =>
    simp only [hstage, Signup.Stage.advance] at h
    split at h <;> cases h
  | inserted username password user =>
    simp only [hstage, Signup.Stage.advance] at h
    split at h <;> cases h
  | authenticated token userId =>
    rw [hstage] at h
    cases h

/-- The requests that run were sent with well-formed parameters. -/
def SentWellFormed (s : Signups) : Prop := s.All fun _ _ req => WellFormedSignup req.params

/-- Well-formed requests stay so, and those that arrive are. -/
theorem sentWellFormed_step {G : Gems} {s s' : Signups} {a : SignupAct} (h : SentWellFormed s)
    (ha : ∀ params, a = .arrive params → WellFormedSignup params)
    (hstep : s.step G a = some s') : SentWellFormed s' := by
  refine h.step hstep ?_ ?_ ?_
  · intro req hmove
    obtain ⟨params, heq, rfl⟩ := SignupAct.eq_arrive hmove
    exact ha params heq
  · intro i env req req' tables' _ _ hadvance hreq
    obtain ⟨stage, -, rfl, -⟩ := signupAdvance_cases hadvance
    exact hreq
  · intro i env req req' tables' _ _ _ j other _ hother
    exact hother

/-- A clear step reports what it answers, and leaves the answers of the others. -/
theorem duplicatesReported_step {G : Gems} {db₀ : Database} {s s' : Signups} {a : SignupAct}
    (hrec : Recorded G db₀ s) (hsent : SentWellFormed s) (h : DuplicatesReported s)
    (hclear : s.Clear G a) (hstep : s.step G a = some s') : DuplicatesReported s' := by
  refine h.step hstep ?_ ?_ ?_
  · intro req hmove
    obtain ⟨params, -, rfl⟩ := SignupAct.eq_arrive hmove
    exact reported_of_advancing (by simp)
  · intro i env req req' tables' hmove hreq hadvance _
    rw [SignupAct.eq_advance hmove] at hclear
    exact (reported_own_iff (hsent i req hreq) (hrec.kept i req hreq) hrec.mem_rows
      hadvance).mpr (hclear req hreq)
  · intro i env req req' tables' _ _ hadvance j other hj hother
    exact hother.congr (insertsOf_advance_ne hadvance hj)

/-- The next state reports its answers iff the step is clear. -/
theorem duplicatesReported_step_iff {G : Gems} {db₀ : Database} {s : Signups} {a : SignupAct}
    (hrec : Recorded G db₀ s) (hsent : SentWellFormed s) (h : DuplicatesReported s) :
    (∀ s', s.step G a = some s' → DuplicatesReported s') ↔ s.Clear G a := by
  constructor
  · intro hnext
    cases a with
    | arrive params => trivial
    | advance i env =>
      intro req hreq
      have hreq' : s.procs[i]? = some req := hreq
      cases hadvance : Signup.advance G i env req s.shared with
      | none =>
        -- an answered request is clear
        obtain ⟨outcome, hstage⟩ := advance_eq_none hadvance
        rw [hstage]
        trivial
      | some r =>
        obtain ⟨req', tables'⟩ := r
        have hstep : s.step G (.advance i env) = some ⟨tables', s.procs.set i req'⟩ := by
          simp only [Signups.step, SignupAct.move, Pool.step, hreq', Option.bind_some, hadvance,
            Option.map_some]
        have hlt := (List.getElem?_eq_some_iff.mp hreq').1
        have hown := hnext _ hstep i req' (List.getElem?_set_self hlt)
        exact (reported_own_iff (hsent i req hreq') (hrec.kept i req hreq') hrec.mem_rows
          hadvance).mp hown
  · intro hclear s' hstep
    exact duplicatesReported_step hrec hsent h hclear hstep

/-! ## Whole runs -/

/-- Whatever well-formed signups run, in whatever order: in all states a request that creates
    no user is answered 400 with "User already exists" and none ends in an exception, iff
    no lookup is for a username with a null character and every insert finds its username
    still free, and not too long for the index. -/
theorem duplicates_reported_iff (G : Gems) (db₀ : Database) {acts : List SignupAct}
    (hwell : ∀ params, .arrive params ∈ acts → WellFormedSignup params) :
    Always (Signups.step G) DuplicatesReported (Signups.start db₀) acts ↔
      Along (Signups.step G) (Signups.Clear G) (Signups.start db₀) acts := by
  have hstart : DuplicatesReported (Signups.start db₀) := by
    intro i req hreq
    cases hreq
  have hsent : SentWellFormed (Signups.start db₀) := by
    intro i req hreq
    cases hreq
  -- step by step, and under an invariant of the run
  rw [always_iff_along, and_iff_right hstart]
  refine along_congr_of_mem
    (I := fun s => Recorded G db₀ s ∧ SentWellFormed s ∧ DuplicatesReported s) ?_ ?_
    ⟨recorded_start G db₀, hsent, hstart⟩
  · intro s a _ hs
    exact duplicatesReported_step_iff hs.1 hs.2.1 hs.2.2
  · -- what the run arrives with is well formed
    intro s s' a ha hs hclear hstep
    refine ⟨signups_step hs.1 hstep, ?_, duplicatesReported_step hs.1 hs.2.1 hs.2.2 hclear hstep⟩
    exact sentWellFormed_step hs.2.1 (fun params heq => hwell params (heq ▸ ha)) hstep

/-- A form with a username and a short password is well formed. -/
theorem wellFormedSignup_form {u p : String} (hu : blankString u = false)
    (hp : blankString p = false) (hshort : p.length ≤ 36)
    (hascii : ∀ c ∈ p.toList, c.toNat < 128) : WellFormedSignup (form u p) :=
  ⟨⟨u, rfl, hu⟩, ⟨p, param_form_password u p, hp, hshort, hascii⟩⟩

/-- Two forms that are well formed. -/
theorem wellFormedSignup_of_sameName {params : Params}
    (h : params = form "Ann" "secret" ∨ params = form "ann" "hidden") :
    WellFormedSignup params := by
  rcases h with rfl | rfl
  · exact wellFormedSignup_form (by decide +kernel) (by decide +kernel) (by decide +kernel) (by simp)
  · exact wellFormedSignup_form (by decide +kernel) (by decide +kernel) (by decide +kernel) (by simp)

/-- The second request looks the name up after the first has inserted it. -/
def laterSignup : List SignupAct :=
  [.arrive (form "Ann" "secret"), .arrive (form "ann" "hidden"),
   .advance 0 (sampleEnv 0), .advance 0 (sampleEnv 0), .advance 0 (sampleEnv 0),
   .advance 1 (sampleEnv 0), .advance 1 (sampleEnv 0)]

/-- A later signup for the same name is reported. -/
theorem duplicates_reported_laterSignup :
    Always (Signups.step .reference) DuplicatesReported (Signups.start .empty) laterSignup := by
  refine (duplicates_reported_iff .reference .empty ?_).mpr (by decide +kernel)
  intro params hparams
  apply wellFormedSignup_of_sameName
  simpa [laterSignup] using hparams

/-- The request has ended in an exception. -/
def Signup.raised (req : Signup) : Bool :=
  match req.stage with
  | .answered (.error _) => true
  | _ => false

/-- Not every duplicate is reported: when both requests look the name up before either
    inserts it, the second insert raises. -/
theorem racing_signup_raises :
    ¬ ∀ (G : Gems) (db₀ : Database) (acts : List SignupAct),
      (∀ params, .arrive params ∈ acts → WellFormedSignup params) →
      Always (Signups.step G) DuplicatesReported (Signups.start db₀) acts := by
  intro h
  have hwell : ∀ params, .arrive params ∈ sameNameSignups → WellFormedSignup params := by
    intro params hparams
    apply wellFormedSignup_of_sameName
    simpa [sameNameSignups] using hparams
  -- run the two signups
  obtain ⟨s, hrun, hs⟩ := exists_run_of_any (Signups.step .reference) (Signups.start .empty)
    sameNameSignups (fun s => (s.procs[0]?).any Signup.raised) (by decide +kernel)
  obtain ⟨req, hreq, hraised⟩ := (Option.any_eq_true _ _).mp hs
  -- an exception is no answer
  have hreported := h .reference .empty sameNameSignups hwell sameNameSignups s
    (List.prefix_refl _) hrun 0 req hreq
  unfold Signup.raised at hraised
  split at hraised
  · rename_i e hstage
    obtain ⟨⟨response, hresponse⟩, -⟩ := hreported _ hstage
    cases hresponse
  · cases hraised

end ReactiveDemo.Server
