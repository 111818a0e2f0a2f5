import ReactiveDemo.Json
import ReactiveDemo.ForStd.Ascii

/-!
# What the server uses of Ruby and its gems

Ruby's and Rails' own operations on strings and parameters are written out. What is not
under the repository (case mapping, bcrypt, JWT, full-text search, the limits of Postgres
and the order in which it scans a table) is a `Gems`: the operations together with the laws
the server relies on. `Gems.reference` shows that the laws can be met, and runs.

## Key results

- `Gems.decode_encode`: a token decodes to its payload until it expires
- `Gems.encode_injective`: a token determines its payload
- `Gems.reference`: an instance that evaluates
-/

namespace ReactiveDemo.Server

/-! ## Time -/

/-- Microseconds since 1970, the precision Postgres keeps. -/
abbrev Time := Nat

/-- `Time#to_i`: whole seconds. -/
def Time.toI (t : Time) : Nat := t / 1000000

/-- `24.hours`. -/
def hours24 : Time := 86400 * 1000000

/-! ## Strings and parameters -/

/-- `[[:space:]]`. -/
def isSpace (c : Char) : Bool :=
  (9 ≤ c.toNat && c.toNat ≤ 13) ||
    c.toNat ∈ [0x20, 0x85, 0xA0, 0x1680, 0x2028, 0x2029, 0x202F, 0x205F, 0x3000] ||
    (0x2000 ≤ c.toNat && c.toNat ≤ 0x200A)

/-- `String#blank?`. -/
def blankString (s : String) : Bool := s.toList.all isSpace

/-- `Object#blank?` of a request parameter. Rails drops the nulls of a parameter array. -/
def blank : Json → Bool
  | .null => true
  | .bool b => !b
  | .num _ => false
  | .str s => blankString s
  | .arr elems => elems.all fun e => match e with | .null => true | _ => false
  | .obj fields => fields.isEmpty

/-- `params[key]`; a missing key reads as `nil`. -/
def param (params : List (String × Json)) (key : String) : Json := (params.lookup key).getD .null

/-- The separators of `split(' ')`. -/
def isFieldSeparator (c : Char) : Bool := c.toNat = 0x20 || (9 ≤ c.toNat && c.toNat ≤ 13)

/-- `split(' ').last`. -/
def lastField (s : String) : Option String :=
  let field := (s.toList.reverse.dropWhile isFieldSeparator).takeWhile (!isFieldSeparator ·)
  if field = [] then none else some (String.ofList field.reverse)

/-- The digits of `String#to_i`, with single underscores between them. -/
def decimal (n : Nat) : List Char → Nat
  | [] => n
  | c :: cs =>
    if c.isDigit then decimal (10 * n + (c.toNat - '0'.toNat)) cs
    else if c = '_' && (cs.head?.any Char.isDigit) then decimal n cs
    else n

/-- The magnitude `String#to_i` reads: an optional `0d`, then digits. -/
def magnitude : List Char → Nat
  | '0' :: 'd' :: cs | '0' :: 'D' :: cs | cs => if cs.head?.any Char.isDigit then decimal 0 cs else 0

/-- `String#to_i`. -/
def stringToI (s : String) : Int :=
  match s.toList.dropWhile isFieldSeparator with
  | '-' :: cs => -(magnitude cs : Int)
  | '+' :: cs => magnitude cs
  | cs => magnitude cs

/-- `value.try(:to_i)`: numbers and strings have a `to_i`. -/
def tryToI : Json → Option Int
  | .num q => some (q.num.tdiv q.den)
  | .str s => some (stringToI s)
  | _ => none

/-- The bytes of a string. -/
def bytes (s : String) : List UInt8 := s.toByteArray.data.toList

/-- `SecureRandom.uuid`: 36 ASCII characters. -/
structure Uuid where
  val : String
  length_eq : val.length = 36
  utf8ByteSize_eq : val.utf8ByteSize = 36

/-! ## Errors -/

/-- The exceptions that leave a controller. -/
inductive RubyError where
  /-- `params.require(key)` found nothing. -/
  | parameterMissing (key : String)
  | noMethodError
  | typeError
  /-- Postgres takes no string with a null byte. -/
  | argumentError
  | recordInvalid
  | recordNotUnique
  | recordNotFound
  | statementInvalid
deriving DecidableEq, Repr

/-- The status Rails answers an unrescued exception with. -/
def RubyError.status : RubyError → Nat
  | .parameterMissing _ => 400
  | .recordNotFound => 404
  | .recordInvalid => 422
  | _ => 500

/-! ## The gems -/

/-- The claims of a token: `{ user_id:, exp: }`. -/
structure Payload where
  userId : Nat
  exp : Nat
deriving DecidableEq, Repr

/-- A row of the `thoughts` table. -/
structure ThoughtRow where
  id : Nat
  text : String
  userId : Option Nat
  createdAt : Time
  updatedAt : Time
deriving DecidableEq, Repr

/-- The gems and library functions the server calls, with what it relies on. -/
structure Gems where
  /-- `String#downcase`. -/
  downcase : String → String
  /-- `to_s` of a parameter that is neither a string nor a boolean. -/
  inspect : Json → String
  /-- `BCrypt::Password.create`, with the salt that bcrypt generates. -/
  bcryptCreate : String → String → String
  /-- `BCrypt::Password#is_password?` of a digest. -/
  isPassword : String → String → Bool
  /-- `JWT.encode` and `JWT.decode` under the application's secret. -/
  jwtEncode : Payload → String
  jwtDecode : Nat → String → Option Payload
  /-- The tsearch condition and rank of `search_for`, for a filter and a text. -/
  tsMatch : String → String → Bool
  tsRank : String → String → ℚ
  /-- What Postgres raises when it runs the search for a filter over the stored texts, up to a
      limit: `to_tsvector` takes a text whose vector is at most 1 MB, `to_tsquery` a word of at
      most 2046 bytes. -/
  searchError : String → List String → Int → Option RubyError
  /-- Whether `index_users_on_username` takes a username: a B-tree entry, compressed, has to
      fit in a third of a page. -/
  indexable : String → Bool
  /-- The order in which Postgres reads the rows of `thoughts`. -/
  scan : List ThoughtRow → List ThoughtRow
  blank_downcase : ∀ s, blankString (downcase s) = blankString s
  /-- bcrypt looks at the first 72 bytes of the secret, and at all of them. -/
  isPassword_iff : ∀ salt secret other,
    isPassword (bcryptCreate salt secret) other = true ↔
      (bytes secret).take 72 = (bytes other).take 72
  /-- Decoding succeeds on unexpired strings that `jwtEncode` produces, and inverts it. -/
  jwtDecode_iff : ∀ now token payload,
    jwtDecode now token = some payload ↔ token = jwtEncode payload ∧ now < payload.exp
  /-- Base64url and dots: a token is one field of a header. -/
  lastField_jwtEncode : ∀ payload, lastField (jwtEncode payload) = some (jwtEncode payload)
  blank_jwtEncode : ∀ payload, blankString (jwtEncode payload) = false
  scan_perm : ∀ rows, (scan rows).Perm rows

namespace Gems

variable (G : Gems)

/-- A token decodes to its payload until it expires. -/
theorem decode_encode {now : Nat} {p : Payload} (h : now < p.exp) :
    G.jwtDecode now (G.jwtEncode p) = some p :=
  (G.jwtDecode_iff now _ p).mpr ⟨rfl, h⟩

/-- A token determines its payload. -/
theorem encode_injective {p q : Payload} (hp : 0 < p.exp) (hq : 0 < q.exp)
    (h : G.jwtEncode p = G.jwtEncode q) : p = q := by
  have hdecode := G.decode_encode hp
  rw [h, G.decode_encode hq] at hdecode
  exact (Option.some.inj hdecode).symm

/-- bcrypt accepts the secret that the digest was made of. -/
theorem isPassword_self (salt secret : String) :
    G.isPassword (G.bcryptCreate salt secret) secret = true :=
  (G.isPassword_iff salt secret secret).mpr rfl

end Gems

/-! ## A reference instance -/

namespace Reference

/-- The payload in decimal. -/
def encode (p : Payload) : String :=
  String.ofList (Nat.toDigits 10 p.userId ++ '.' :: Nat.toDigits 10 p.exp)

/-- Read the payload back, whatever the string is. -/
def read (token : String) : Payload where
  userId := Nat.ofDigitChars 10 (token.toList.takeWhile (· ≠ '.')) 0
  exp := Nat.ofDigitChars 10 (token.toList.dropWhile (· ≠ '.')).tail 0

def decode (now : Nat) (token : String) : Option Payload :=
  if encode (read token) = token ∧ now < (read token).exp then some (read token) else none

/-- A character of an encoded payload. -/
theorem mem_encode {p : Payload} {c : Char} (h : c ∈ (encode p).toList) :
    c.isDigit = true ∨ c = '.' := by
  simp only [encode, String.toList_ofList, List.mem_append, List.mem_cons] at h
  rcases h with h | h | h
  · exact Or.inl (Nat.isDigit_of_mem_toDigits (by decide) (by decide) h)
  · exact Or.inr h
  · exact Or.inl (Nat.isDigit_of_mem_toDigits (by decide) (by decide) h)

/-- Both numbers are read back as they were written. -/
theorem read_encode (p : Payload) : read (encode p) = p := by
  -- digits are no dots, so the first dot ends the first number
  have hdigit : ∀ c ∈ Nat.toDigits 10 p.userId, decide (c ≠ '.') = true := by
    intro c hc
    have hc' := Nat.isDigit_of_mem_toDigits (by decide) (by decide) hc
    have hne : c ≠ '.' := by
      rintro rfl
      exact absurd hc' (by decide)
    simpa using hne
  have htake : (Nat.toDigits 10 p.userId ++ '.' :: Nat.toDigits 10 p.exp).takeWhile (· ≠ '.') =
      Nat.toDigits 10 p.userId := by
    rw [List.takeWhile_append_of_pos hdigit]
    simp
  have hdrop : (Nat.toDigits 10 p.userId ++ '.' :: Nat.toDigits 10 p.exp).dropWhile (· ≠ '.') =
      '.' :: Nat.toDigits 10 p.exp := by
    rw [List.dropWhile_append_of_pos hdigit]
    simp
  simp only [read, encode, String.toList_ofList, htake, hdrop, List.tail_cons,
    Nat.ofDigitChars_ten_toDigits]

/-- A token decodes iff it is the encoding of its payload and has not expired. -/
theorem decode_iff (now : Nat) (token : String) (p : Payload) :
    decode now token = some p ↔ token = encode p ∧ now < p.exp := by
  unfold decode
  constructor
  · intro h
    split at h
    · rename_i hread
      cases h
      exact ⟨hread.1.symm, hread.2⟩
    · cases h
  · rintro ⟨rfl, hexp⟩
    rw [read_encode, if_pos ⟨rfl, hexp⟩]

/-- A string without separators is its only field. -/
theorem lastField_eq_some {s : String} (hs : s.toList ≠ [])
    (h : ∀ c ∈ s.toList, isFieldSeparator c = false) : lastField s = some s := by
  have hrev : ∀ c ∈ s.toList.reverse, isFieldSeparator c = false := by simpa using h
  have hdrop : s.toList.reverse.dropWhile isFieldSeparator = s.toList.reverse := by
    cases hcs : s.toList.reverse with
    | nil => rfl
    | cons c cs => simp [hrev c (by rw [hcs]; exact List.mem_cons_self)]
  have htake : s.toList.reverse.takeWhile (!isFieldSeparator ·) = s.toList.reverse := by
    rw [List.takeWhile_eq_self_iff]
    intro c hc
    simp [hrev c hc]
  simp only [lastField, hdrop, htake, List.reverse_eq_nil_iff, hs, if_false, List.reverse_reverse,
    String.ofList_toList]

/-- No character of a token is a space. -/
theorem not_isSpace_of_mem_encode {p : Payload} {c : Char} (h : c ∈ (encode p).toList) :
    isSpace c = false ∧ isFieldSeparator c = false := by
  have hrange : 46 ≤ c.toNat ∧ c.toNat ≤ 57 := by
    rcases mem_encode h with hdigit | rfl
    · have hdigit' : 48 ≤ c.toNat ∧ c.toNat ≤ 57 := by
        simpa [Char.isDigit, UInt32.le_iff_toNat_le] using hdigit
      omega
    · decide
  simp only [isSpace, isFieldSeparator, Bool.eq_false_iff]
  constructor <;> simp <;> omega

theorem encode_ne_nil (p : Payload) : (encode p).toList ≠ [] := by
  simp [encode]

/-- Lower-casing keeps a space a space. -/
theorem isSpace_toLower (c : Char) : isSpace c.toLower = isSpace c := by
  rw [Bool.eq_iff_iff]
  simp only [isSpace, Char.toNat_toLower, Bool.or_eq_true, Bool.and_eq_true, decide_eq_true_eq]
  split
  · simp only [List.mem_cons, List.not_mem_nil, or_false]
    omega
  · rfl

end Reference

/-- Gems that can be run: ASCII case mapping, digests that keep the secret, tokens that
    spell the payload out, a table scan in order of insertion, and no limits. -/
def Gems.reference : Gems where
  downcase := asciiLower
  inspect _ := ""
  bcryptCreate _ secret := secret
  isPassword digest other := (bytes digest).take 72 == (bytes other).take 72
  jwtEncode := Reference.encode
  jwtDecode := Reference.decode
  tsMatch filter text := filter == text
  tsRank _ _ := 0
  searchError _ _ _ := none
  indexable _ := true
  scan rows := rows
  blank_downcase s := by
    simp [blankString, List.all_map, Function.comp_def, Reference.isSpace_toLower]
  isPassword_iff _ secret other := by simp
  jwtDecode_iff := Reference.decode_iff
  lastField_jwtEncode p := Reference.lastField_eq_some (Reference.encode_ne_nil p)
    fun _ hc => (Reference.not_isSpace_of_mem_encode hc).2
  blank_jwtEncode p := by
    obtain ⟨c, hc⟩ := List.exists_mem_of_ne_nil _ (Reference.encode_ne_nil p)
    rw [blankString, List.all_eq_false]
    exact ⟨c, hc, by simp [(Reference.not_isSpace_of_mem_encode hc).1]⟩
  scan_perm _ := List.Perm.refl _

end ReactiveDemo.Server
