import ReactiveDemo.Server.Requests

/-!
# Checking credentials

The secret that bcrypt gets is the salt, 36 bytes, followed by the password. Rails limits
it to 72 characters and bcrypt cuts it at 72 bytes, so a password is compared by its
first 36 bytes. A password of fewer bytes is compared exactly; from 36 bytes on, every
longer password with the same 36 bytes is accepted as well.

## Key results

- `authenticates_iff`: which credentials are those of a stored user
- `credentials_exact_iff`: they are exact iff the password has fewer than 36 bytes
-/

namespace ReactiveDemo.Server

open Transition

/-! ## Bytes -/

@[simp] theorem bytes_append (s t : String) : bytes (s ++ t) = bytes s ++ bytes t := by
  simp [bytes, String.toByteArray_append]

@[simp] theorem length_bytes (s : String) : (bytes s).length = s.utf8ByteSize := by
  rw [bytes, Array.length_toList, ← String.size_toByteArray]
  rfl

theorem bytes_injective {s t : String} (h : bytes s = bytes t) : s = t := by
  apply String.toByteArray_inj.mp
  apply ByteArray.ext
  exact Array.toList_inj.mp h

/-- Behind a salt of 36 bytes, 72 bytes of the secret are 36 bytes of the password. -/
theorem take_secret_iff {salt p q : String} (hsalt : salt.utf8ByteSize = 36) :
    (bytes (salt ++ p)).take 72 = (bytes (salt ++ q)).take 72 ↔
      (bytes p).take 36 = (bytes q).take 36 := by
  have htake : ∀ s, (bytes (salt ++ s)).take 72 = bytes salt ++ (bytes s).take 36 := by
    intro s
    rw [bytes_append, List.take_append, length_bytes, hsalt]
    rw [List.take_of_length_le (by rw [length_bytes, hsalt]; decide)]
  rw [htake, htake, List.append_cancel_left_eq]

/-- A short string is determined by its first 36 bytes. -/
theorem eq_of_take_bytes {p q : String} (hp : p.utf8ByteSize < 36)
    (h : (bytes p).take 36 = (bytes q).take 36) : q = p := by
  have hlen := congrArg List.length h
  rw [List.length_take, List.length_take, length_bytes, length_bytes] at hlen
  have hq : q.utf8ByteSize < 36 := by omega
  rw [List.take_of_length_le (by rw [length_bytes]; omega),
    List.take_of_length_le (by rw [length_bytes]; omega)] at h
  exact (bytes_injective h).symm

/-! ## Credentials of a stored user -/

/-- The parameters of a login or signup form. -/
def form (username password : String) : Params :=
  [("username", .str username), ("password", .str password)]

/-- The login is answered 200 with a token and the id of the user `id`. -/
def Authenticates (G : Gems) (env : Env) (params : Params) (db : Database) (id : Nat) : Prop :=
  usersAuthenticate G env params db = .ok ⟨200, sessionJson (some (encode G env.now id)) id⟩

theorem param_form_password (u p : String) : param (form u p) "password" = .str p := by
  simp [param, form, List.lookup]

theorem sessionJson_userId {t t' : Option String} {i j : Nat}
    (h : sessionJson t i = sessionJson t' j) : i = j := by
  simp only [sessionJson, Json.obj.injEq, List.cons.injEq, Prod.mk.injEq, Json.num.injEq,
    true_and, and_true] at h
  exact Nat.cast_injective h.2

/-- The credentials of a stored user are its username in any case, and every password
    whose salted form bcrypt does not tell from the user's. -/
theorem authenticates_iff {G : Gems} {env : Env} {db : Database} {user : UserRow}
    {bcryptSalt p : String} (hmem : user ∈ db.users.rows)
    (hnull : hasNullByte user.username = false) (hblank : blankString user.username = false)
    (hdigest : user.passwordDigest = G.bcryptCreate bcryptSalt (user.salt ++ p)) (u' q : String) :
    Authenticates G env (form u' q) db user.id ↔
      G.downcase u' = user.username ∧ blankString q = false ∧
        (bytes (user.salt ++ p)).take 72 = (bytes (user.salt ++ q)).take 72 := by
  have hu' : param (form u' q) "username" = .str u' := rfl
  have hq : param (form u' q) "password" = .str q := param_form_password u' q
  constructor
  · intro h
    rcases usersAuthenticate_cases G env (form u' q) db with ⟨password, v, hv⟩ | hrefused
    · -- the answer names the user that was found, so that user is `user`
      rw [Authenticates, hv.usersAuthenticate_eq] at h
      simp only [Except.ok.injEq, Response.mk.injEq, true_and] at h
      have hid : v.id = user.id := sessionJson_userId h
      have huser : v = user := List.inj_on_of_nodup_map db.users.nodup hv.mem hmem hid
      subst huser
      obtain ⟨⟨s, hs, -, hname⟩, hpass⟩ := credentials_eq_ok hv.credentials_eq
      have hs' : s = u' := by rw [hu'] at hs; exact (Json.str.inj hs).symm
      have hp' : password = q := by
        have hparam := require_eq_ok hpass
        rw [hq] at hparam
        exact (Json.str.inj hparam).symm
      refine ⟨?_, ?_, ?_⟩
      · rw [← hs', ← hname]
      · rw [← hp']
        exact not_blank_of_require hpass
      · have haccepted := hv.accepted
        rw [hdigest, hp'] at haccepted
        exact (G.isPassword_iff _ _ _).mp haccepted
    · rw [Authenticates] at h
      rw [h] at hrefused
      exact absurd hrefused.status_ge (by simp [Outcome.status])
  · rintro ⟨hname, hqblank, htake⟩
    -- `downcase` keeps a name from being blank, so the parameters pass `require`
    have hublank : blankString u' = false := by rw [← G.blank_downcase, hname, hblank]
    have hcred := credentials_of_str (G := G) hu' hq hublank hqblank
    rw [hname] at hcred
    -- bcrypt does not tell the secrets apart
    have haccepted : G.isPassword user.passwordDigest (user.salt ++ q) = true := by
      rw [hdigest]
      exact (G.isPassword_iff _ _ _).mpr htake
    have hlogged : LoggedIn G (form u' q) db q user := ⟨hcred, hnull, hmem, haccepted⟩
    exact hlogged.usersAuthenticate_eq

/-- An accepted signup has inserted the user whose id it returns. -/
theorem signedUp_of_accepted {G : Gems} {env : Env} {u p : String} {db db' : Database}
    {token : Option String} {id : Nat}
    (haccept : usersCreate G env (form u p) db = (.ok ⟨201, sessionJson token id⟩, db')) :
    ∃ user, SignedUp G env (form u p) db p user db' ∧ user.id = id ∧
      user.username = G.downcase u ∧ blankString u = false ∧ blankString p = false := by
  rcases usersCreate_cases G env (form u p) db with ⟨password, user, db'', hs⟩ | ⟨-, hrefused⟩
  · have heq := hs.usersCreate_eq
    rw [haccept, Prod.mk.injEq, Except.ok.injEq, Response.mk.injEq] at heq
    obtain ⟨⟨-, hjson⟩, rfl⟩ := heq
    obtain ⟨⟨s, hsu, hsblank, hname⟩, hpass⟩ := credentials_eq_ok hs.credentials_eq
    -- the form carries both strings as they are
    have hs' : s = u := (Json.str.inj hsu).symm
    have hp' : password = p := by
      have hparam := require_eq_ok hpass
      rw [param_form_password] at hparam
      exact (Json.str.inj hparam).symm
    subst hs' hp'
    exact ⟨user, hs, (sessionJson_userId hjson).symm, hname, hsblank, not_blank_of_require hpass⟩
  · -- a refusal is not a 201
    rw [haccept] at hrefused
    exact absurd hrefused.status_ge (by simp [Outcome.status])

/-- After an accepted signup, at any later time: the credentials of its user are its
    username in any case, and every password that agrees with its password on the first
    36 bytes. -/
theorem authenticates_after_signup {G : Gems} {env : Env} {u p : String} {db db' : Database}
    {token : Option String} {id : Nat}
    (haccept : usersCreate G env (form u p) db = (.ok ⟨201, sessionJson token id⟩, db'))
    {xs : List (Env × HttpRequest)} {t : ServerState}
    (hrun : run (ServerState.step G) ⟨db', []⟩ xs = some t) (env' : Env) (u' q : String) :
    Authenticates G env' (form u' q) t.db id ↔
      G.downcase u' = G.downcase u ∧ blankString q = false ∧
        (bytes p).take 36 = (bytes q).take 36 := by
  obtain ⟨user, hs, rfl, hname, hublank, -⟩ := signedUp_of_accepted haccept
  -- no request deletes a user
  have hmem : user ∈ t.db.users.rows := by
    apply ServerState.mem_users_run hrun
    rw [hs.users_eq]
    exact List.mem_append_right _ (List.mem_singleton_self _)
  have hsalt : user.salt = env.uuid.val := by rw [hs.user_eq]; rfl
  have hdigest : user.passwordDigest = G.bcryptCreate env.bcryptSalt (user.salt ++ p) := by
    rw [hs.user_eq]
    rfl
  have hblank : blankString user.username = false := by rw [hname, G.blank_downcase, hublank]
  -- 36 of the 72 bytes are the salt
  rw [authenticates_iff hmem hs.no_null hblank hdigest, hname,
    take_secret_iff (by rw [hsalt]; exact env.uuid.utf8ByteSize_eq)]

/-- Credentials are checked exactly, in every later state, iff the password they were
    created with has fewer than 36 bytes. -/
theorem credentials_exact_iff {G : Gems} {env : Env} {u p : String} {db db' : Database}
    {token : Option String} {id : Nat}
    (haccept : usersCreate G env (form u p) db = (.ok ⟨201, sessionJson token id⟩, db')) :
    (∀ (xs : List (Env × HttpRequest)) (t : ServerState),
      run (ServerState.step G) ⟨db', []⟩ xs = some t → ∀ (env' : Env) (u' q : String),
        Authenticates G env' (form u' q) t.db id ↔ G.downcase u' = G.downcase u ∧ q = p) ↔
      p.utf8ByteSize < 36 := by
  obtain ⟨-, -, -, -, -, hpblank⟩ := signedUp_of_accepted haccept
  constructor
  · intro hexact
    by_contra hlong
    -- one more byte behind 36 others is not looked at
    have hq : Authenticates G env (form u (p ++ "x")) db' id := by
      refine (authenticates_after_signup haccept (run_nil _) env u (p ++ "x")).mpr ⟨rfl, ?_, ?_⟩
      · simp [blankString, isSpace]
      · rw [bytes_append, List.take_append_of_le_length (by rw [length_bytes]; omega)]
    have heq := ((hexact [] ⟨db', []⟩ rfl env u (p ++ "x")).mp hq).2
    have hlen := congrArg String.utf8ByteSize heq
    rw [String.utf8ByteSize_append] at hlen
    have hx : "x".utf8ByteSize = 1 := by decide
    omega
  · intro hshort xs t hrun env' u' q
    rw [authenticates_after_signup haccept hrun]
    constructor
    · rintro ⟨hname, -, htake⟩
      exact ⟨hname, eq_of_take_bytes hshort htake⟩
    · rintro ⟨hname, rfl⟩
      exact ⟨hname, hpblank, rfl⟩

/-! ## A signup -/

/-- A moment, with random numbers that fit. -/
def sampleEnv (now : Time) : Env where
  now
  uuid := ⟨"f81d4fae-7dec-11d0-a765-00a0c91e6bf6", by decide +kernel, by decide +kernel⟩
  bcryptSalt := ""

/-- The reference server accepts the signup of a name and a password that pass its checks. -/
theorem signedUp_reference {u p : String} (now : Time) (hu : blankString u = false)
    (hp : blankString p = false) (hnull : hasNullByte (asciiLower u) = false)
    (hshort : ((sampleEnv now).uuid.val ++ p).length ≤ 72) :
    ∃ user db', SignedUp .reference (sampleEnv now) (form u p) .empty p user db' := by
  have hcred : credentials .reference (form u p) = .ok (asciiLower u, .str p) :=
    credentials_of_str rfl (param_form_password u p) hu hp
  have hfree : Database.empty.findByUsername (asciiLower u) = none := rfl
  obtain ⟨user, db', -, hs⟩ := signedUp_of_checks (sampleEnv now) hcred hnull hfree hshort rfl
  exact ⟨user, db', hs⟩

/-- The equivalence for the signup of "ann" with the password "secret". -/
theorem credentials_exact_secret : ∃ token id db',
    usersCreate .reference (sampleEnv 0) (form "ann" "secret") .empty =
      (.ok ⟨201, sessionJson token id⟩, db') ∧
    ((∀ (xs : List (Env × HttpRequest)) (t : ServerState),
      run (ServerState.step .reference) ⟨db', []⟩ xs = some t → ∀ (env' : Env) (u' q : String),
        Authenticates .reference env' (form u' q) t.db id ↔
          Gems.reference.downcase u' = Gems.reference.downcase "ann" ∧ q = "secret") ↔
      "secret".utf8ByteSize < 36) := by
  obtain ⟨user, db', hs⟩ := signedUp_reference (u := "ann") (p := "secret") 0
    (by decide +kernel) (by decide +kernel) (by decide +kernel) (by decide +kernel)
  exact ⟨_, _, db', hs.usersCreate_eq, credentials_exact_iff hs.usersCreate_eq⟩

/-- Credentials are not checked exactly: a password of 36 bytes is accepted with a byte
    behind it. -/
theorem long_password_accepts_suffix :
    ¬ ∀ (G : Gems) (env : Env) (u p : String) (db db' : Database) (token : Option String)
      (id : Nat), usersCreate G env (form u p) db = (.ok ⟨201, sessionJson token id⟩, db') →
      ∀ (xs : List (Env × HttpRequest)) (t : ServerState),
        run (ServerState.step G) ⟨db', []⟩ xs = some t → ∀ (env' : Env) (u' q : String),
          Authenticates G env' (form u' q) t.db id ↔ G.downcase u' = G.downcase u ∧ q = p := by
  intro h
  let p := "correct horse battery staple, 2018!!"
  have hblank : blankString (p ++ "?") = false := by decide +kernel
  -- 36 bytes, and one that bcrypt does not see
  have htake : (bytes p).take 36 = (bytes (p ++ "?")).take 36 := by decide +kernel
  have hne : p ++ "?" ≠ p := by decide +kernel
  obtain ⟨user, db', hs⟩ := signedUp_reference (u := "ann") (p := p) 0
    (by decide +kernel) (by decide +kernel) (by decide +kernel) (by decide +kernel)
  have haccept := hs.usersCreate_eq
  have hwrong := (authenticates_after_signup haccept (run_nil _) (sampleEnv 0) "ann"
    (p ++ "?")).mpr ⟨rfl, hblank, htake⟩
  exact hne ((h _ _ _ _ _ _ _ _ haccept [] _ rfl (sampleEnv 0) "ann" (p ++ "?")).mp hwrong).2

end ReactiveDemo.Server
