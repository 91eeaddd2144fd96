import NieSla.Auth.Credentials
import NieSla.Lib.Base64

/-! Secrets that the Worker keeps encrypted: the materials that a deployment has for each kind of secret, the envelope
of a secret, and what is read from a stored value. -/
namespace NieSla.Secrets

open Auth (Subject)
open Base64 (Bytes)

/-- The materials of a deployment; `""` where one is not set. -/
structure Env where
  totpEncryptionKey : String := ""
  previousEncryptionKey : String := ""
  alertEncryptionKey : String := ""
  nqImgbedEncryptionKey : String := ""
  adminPassword : String := ""
  adminToken : String := ""

/-- AES-GCM under the SHA-256 of a material: material, iv, additional data. -/
structure Aead where
  encrypt : String → Bytes → Option String → String → Bytes
  decrypt : String → Bytes → Option String → Bytes → Option String

/-- What is encrypted is decrypted under its material, and under no other one. -/
structure Aead.Authentic (aead : Aead) : Prop where
  opens : ∀ material iv context secret,
    aead.decrypt material iv context (aead.encrypt material iv context secret) = some secret
  rejects : ∀ {material other}, other ≠ material → ∀ iv context secret,
    aead.decrypt other iv context (aead.encrypt material iv context secret) = none
  tagged : ∀ material iv context secret, aead.encrypt material iv context secret ≠ []

inductive Source where
  | primary
  | previous
  | legacyNq
  | legacyAlert
  | legacyTotp
  | legacyAdminPassword
  | legacyAdminToken
deriving DecidableEq

structure Candidate where
  material : String
  source : Source

/-- Each material at its first place; an empty one is none. -/
def usable : List Candidate → List Candidate
  | [] => []
  | candidate :: rest =>
      if candidate.material = "" then usable rest
      else candidate :: (usable rest).filter fun other => other.material ≠ candidate.material

/-- How one kind of secret is encrypted. -/
structure Scheme where
  primary : Env → String
  older : Env → List Candidate
  context : Option String
  older_ne_primary : ∀ env, ∀ candidate ∈ older env, candidate.source ≠ .primary

def Scheme.candidates (scheme : Scheme) (env : Env) : List Candidate :=
  usable (⟨scheme.primary env, .primary⟩ :: scheme.older env)

def previousAndAdmin (env : Env) : List Candidate :=
  [⟨trim env.previousEncryptionKey, .previous⟩, ⟨trim env.adminPassword, .legacyAdminPassword⟩,
    ⟨trim env.adminToken, .legacyAdminToken⟩]

theorem previousAndAdmin_ne_primary (env : Env) : ∀ candidate ∈ previousAndAdmin env, candidate.source ≠ .primary := by
  simp [previousAndAdmin]

/-- `totp.js` -/
def totp : Scheme where
  primary env := trim env.totpEncryptionKey
  older := previousAndAdmin
  context := none
  older_ne_primary := previousAndAdmin_ne_primary

def subjectTypeText : Auth.SubjectType → String
  | .agent => "agent"
  | .latency => "latency"

/-- `agent-credentials.js` -/
def agentCredential (subject : Subject) : Scheme where
  primary env := trim env.totpEncryptionKey
  older := previousAndAdmin
  context := some s!"nie-sla:{subjectTypeText subject.type}:{subject.id}"
  older_ne_primary := previousAndAdmin_ne_primary

/-- `alerts.js` -/
def alert : Scheme where
  primary env := trim (if env.alertEncryptionKey = "" then env.totpEncryptionKey else env.alertEncryptionKey)
  older env :=
    [⟨trim env.previousEncryptionKey, .previous⟩, ⟨trim env.alertEncryptionKey, .legacyAlert⟩,
      ⟨trim env.totpEncryptionKey, .legacyTotp⟩, ⟨trim env.adminPassword, .legacyAdminPassword⟩,
      ⟨trim env.adminToken, .legacyAdminToken⟩]
  context := none
  older_ne_primary := by simp

/-- `nq-image-host.js` -/
def nqImageHost : Scheme where
  primary env :=
    trim (if env.nqImgbedEncryptionKey ≠ "" then env.nqImgbedEncryptionKey
      else if env.alertEncryptionKey ≠ "" then env.alertEncryptionKey else env.totpEncryptionKey)
  older env :=
    [⟨trim env.previousEncryptionKey, .previous⟩, ⟨trim env.nqImgbedEncryptionKey, .legacyNq⟩,
      ⟨trim env.alertEncryptionKey, .legacyAlert⟩, ⟨trim env.totpEncryptionKey, .legacyTotp⟩,
      ⟨trim env.adminPassword, .legacyAdminPassword⟩, ⟨trim env.adminToken, .legacyAdminToken⟩]
  context := some "NIE-SLA:nq-image-host-token:v1"
  older_ne_primary := by simp

/-! Envelopes. -/

def bytesToBase64 (bytes : Bytes) : String := String.ofList (Base64.encode bytes)

def base64ToBytes (value : String) : Option Bytes := Base64.decode value.toList

def secretPrefix : String := "enc:v1:"

def isEncryptedSecret (value : String) : Bool := secretPrefix.toList.isPrefixOf value.toList

/-- `value.slice(SECRET_PREFIX.length)` -/
def payloadOf (value : String) : String := String.ofList (value.toList.drop secretPrefix.toList.length)

abbrev Iv := { bytes : Bytes // bytes.length = 12 }

section Envelope

variable (aead : Aead) (scheme : Scheme) (env : Env)

def envelope (material : String) (iv : Iv) (secret : String) : String :=
  secretPrefix ++ bytesToBase64 (iv.val ++ aead.encrypt material iv.val scheme.context secret)

/-- `none` where it throws. -/
def encryptSecret (iv : Iv) (secret : String) : Option String :=
  if scheme.primary env = "" then none else some (envelope aead scheme (scheme.primary env) iv secret)

/-- The secret of a payload, and whether it needs a migration. -/
def decryptSecret (payload : String) : Option (String × Bool) :=
  (base64ToBytes payload).bind fun combined =>
    if combined.length ≤ 12 then none
    else (scheme.candidates env).findSome? fun candidate =>
      (aead.decrypt candidate.material (combined.take 12) scheme.context (combined.drop 12)).map fun secret =>
        (secret, decide (candidate.source ≠ .primary))

end Envelope

/-! What is stored. -/

/-- A key of `app_meta`, or a row of `agent_credentials`. -/
inductive Slot where
  | totpSecret
  | totpPendingSecret
  | alertTelegramBotToken
  | alertResendApiKey
  | alertChannelSecrets
  | nqImageHostToken
  | turnstileSecretKey
  | credential (subject : Subject)
deriving DecidableEq

def Slot.scheme : Slot → Scheme
  | .totpSecret | .totpPendingSecret | .turnstileSecretKey => totp
  | .alertTelegramBotToken | .alertResendApiKey | .alertChannelSecrets => alert
  | .nqImageHostToken => nqImageHost
  | .credential subject => agentCredential subject

section Stored

variable (aead : Aead) (sha256Hex : String → String) (env : Env)

/-- `/^[A-Z2-7]{16,80}$/i` -/
def looksLikePlainSecret (value : String) : Bool :=
  16 ≤ value.toList.length && value.toList.length ≤ 80 &&
    value.toList.all fun c => c.isUpper || c.isLower || ('2' ≤ c && c ≤ '7')

def readStoredSecret (value : String) : Option (String × Bool) :=
  let stored := trim value
  if stored = "" then none
  else if isEncryptedSecret stored then decryptSecret aead totp env (payloadOf stored)
  else if looksLikePlainSecret stored then some (String.ofList (stored.toList.map Char.toUpper), true)
  else (decryptSecret aead totp env stored).map fun found => (found.1, true)

/-- A value of `alerts.js`; a plain one is to be encrypted. -/
def readAlertSecret (value : String) : Option (String × Bool) :=
  let stored := trim value
  if stored = "" then none
  else if isEncryptedSecret stored then decryptSecret aead alert env (payloadOf stored)
  else some (stored, true)

def readNqToken (value : String) : Option (String × Bool) :=
  let stored := trim value
  if isEncryptedSecret stored then decryptSecret aead nqImageHost env (payloadOf stored) else none

/-- The Turnstile secret is trimmed where it is read. -/
def readTurnstileSecret (value : String) : Option (String × Bool) :=
  let stored := trim value
  if stored = "" then none
  else if isEncryptedSecret stored then
    ((decryptSecret aead totp env (payloadOf stored)).map fun found => (trim found.1, found.2)).filter
      fun found => found.1 ≠ ""
  else some (stored, true)

/-- `decryptToken`, and the check of `decryptCredentialValue` -/
def readCredential (subject : Subject) (tokenHash value : String) : Option (String × Bool) :=
  if isEncryptedSecret value then
    (decryptSecret aead (agentCredential subject) env (payloadOf value)).filter fun found =>
      sha256Hex found.1 = tokenHash
  else none

/-- What is read of a value, and whether it needs a migration. -/
def readSlot (slot : Slot) (tokenHash value : String) : Option (String × Bool) :=
  match slot with
  | .totpSecret | .totpPendingSecret => readStoredSecret aead env value
  | .alertTelegramBotToken | .alertResendApiKey | .alertChannelSecrets => readAlertSecret aead env value
  | .nqImageHostToken => readNqToken aead env value
  | .turnstileSecretKey => readTurnstileSecret aead env value
  | .credential subject => readCredential aead sha256Hex env subject tokenHash value

end Stored

/-! Candidates. -/

section Candidates

variable {list : List Candidate} {candidate : Candidate} {scheme : Scheme} {env : Env} {material : String}

theorem mem_usable (member : candidate ∈ usable list) : candidate ∈ list ∧ candidate.material ≠ "" := by
  induction list with
  | nil => exact absurd member List.not_mem_nil
  | cons first rest ih =>
      unfold usable at member
      split at member
      · exact ⟨List.mem_cons_of_mem _ (ih member).1, (ih member).2⟩
      next some_ =>
        rcases List.mem_cons.mp member with rfl | later
        · exact ⟨List.mem_cons_self, some_⟩
        · obtain ⟨inside, named⟩ := ih (List.mem_filter.mp later).1
          exact ⟨List.mem_cons_of_mem _ inside, named⟩

/-- The materials that are tried. -/
def Scheme.materials (scheme : Scheme) (env : Env) : List String := (scheme.candidates env).map Candidate.material

theorem candidates_of_primary (some_ : scheme.primary env ≠ "") : scheme.candidates env =
    ⟨scheme.primary env, .primary⟩ ::
      (usable (scheme.older env)).filter fun other => other.material ≠ scheme.primary env :=
  if_neg some_

theorem primary_mem_materials (some_ : scheme.primary env ≠ "") : scheme.primary env ∈ scheme.materials env := by
  unfold Scheme.materials
  rw [candidates_of_primary some_]
  exact List.mem_cons_self

/-- The first candidate alone is the primary one. -/
theorem source_eq_primary_iff (member : candidate ∈ scheme.candidates env) :
    candidate.source = .primary ↔ candidate.material = scheme.primary env := by
  have named := (mem_usable member).2
  by_cases none_ : scheme.primary env = ""
  · have rest : candidate ∈ usable (scheme.older env) := by
      have tail : scheme.candidates env = usable (scheme.older env) := if_pos none_
      exact tail ▸ member
    constructor
    · exact fun first => absurd first (scheme.older_ne_primary env _ (mem_usable rest).1)
    · exact fun same => absurd (same.trans none_) named
  · rw [candidates_of_primary none_] at member
    rcases List.mem_cons.mp member with rfl | later
    · exact ⟨fun _ => rfl, fun _ => rfl⟩
    · obtain ⟨inside, other⟩ := List.mem_filter.mp later
      constructor
      · exact fun first => absurd first (scheme.older_ne_primary env _ (mem_usable inside).1)
      · exact fun same => absurd same (of_decide_eq_true other)

end Candidates

/-! What an envelope is read as. -/

section Read

variable {aead : Aead} {scheme : Scheme} {env later : Env} {material secret : String} {iv : Iv}

theorem toList_envelope (material : String) (iv : Iv) (secret : String) :
    (envelope aead scheme material iv secret).toList =
      secretPrefix.toList ++ Base64.encode (iv.val ++ aead.encrypt material iv.val scheme.context secret) := by
  unfold envelope bytesToBase64
  rw [String.toList_append, String.toList_ofList]

theorem isEncryptedSecret_envelope (material : String) (iv : Iv) (secret : String) :
    isEncryptedSecret (envelope aead scheme material iv secret) = true := by
  unfold isEncryptedSecret
  rw [toList_envelope]
  exact List.isPrefixOf_iff_prefix.mpr (List.prefix_append _ _)

theorem payloadOf_envelope (material : String) (iv : Iv) (secret : String) :
    payloadOf (envelope aead scheme material iv secret) =
      bytesToBase64 (iv.val ++ aead.encrypt material iv.val scheme.context secret) := by
  unfold payloadOf
  rw [toList_envelope, List.drop_left]
  rfl

theorem envelope_ne_empty (material : String) (iv : Iv) (secret : String) :
    envelope aead scheme material iv secret ≠ "" := by
  intro empty
  have sealed_ : isEncryptedSecret (envelope aead scheme material iv secret) = true :=
    isEncryptedSecret_envelope material iv secret
  rw [empty] at sealed_
  exact absurd sealed_ (by decide)

theorem isSpace_of_range {c : Char} (low : 0x2b ≤ c.toNat) (high : c.toNat ≤ 0x7a) : isSpace c = false := by
  change 0x2b ≤ c.val.toNat at low
  change c.val.toNat ≤ 0x7a at high
  by_contra space
  simp only [Bool.not_eq_false, isSpace, List.contains_cons, List.contains_nil, Bool.or_false, Bool.or_eq_true,
    beq_iff_eq, ← UInt32.toNat_inj, Bool.and_eq_true, decide_eq_true_eq, UInt32.le_iff_toNat_le,
    UInt32.reduceToNat] at space
  omega

theorem trim_envelope (material : String) (iv : Iv) (secret : String) :
    trim (envelope aead scheme material iv secret) = envelope aead scheme material iv secret := by
  have front : ∀ c ∈ secretPrefix.toList, isSpace c = false := by
    intro c first
    have spelled : secretPrefix.toList = ['e', 'n', 'c', ':', 'v', '1', ':'] := rfl
    rw [spelled] at first
    simp only [List.mem_cons, List.not_mem_nil, or_false] at first
    rcases first with rfl | rfl | rfl | rfl | rfl | rfl | rfl
    all_goals exact isSpace_of_range (by decide) (by decide)
  refine trim_of_no_space fun c member => ?_
  rw [toList_envelope] at member
  rcases List.mem_append.mp member with first | later
  · exact front c first
  · rcases Base64.mem_encode _ later with ⟨digit, rfl⟩ | rfl
    · exact isSpace_of_range (Base64.symbol_range digit).1 (Base64.symbol_range digit).2
    · decide

/-- An envelope opens where its material is among those that are tried. -/
theorem decryptSecret_envelope (authentic : aead.Authentic) (material : String) (iv : Iv) (secret : String) :
    decryptSecret aead scheme env (payloadOf (envelope aead scheme material iv secret)) =
      if material ∈ scheme.materials env then some (secret, decide (material ≠ scheme.primary env)) else none := by
  have long : ¬ (iv.val ++ aead.encrypt material iv.val scheme.context secret).length ≤ 12 := by
    have tag := List.length_pos_of_ne_nil (authentic.tagged material iv.val scheme.context secret)
    rw [List.length_append, iv.property]
    omega
  have front : (iv.val ++ aead.encrypt material iv.val scheme.context secret).take 12 = iv.val :=
    List.take_left' iv.property
  have back : (iv.val ++ aead.encrypt material iv.val scheme.context secret).drop 12 =
      aead.encrypt material iv.val scheme.context secret := List.drop_left' iv.property
  unfold decryptSecret base64ToBytes
  rw [payloadOf_envelope, bytesToBase64, String.toList_ofList, Base64.decode_encode, Option.bind_some, if_neg long,
    front, back]
  unfold Scheme.materials
  have sources : ∀ candidate ∈ scheme.candidates env,
      (candidate.source = .primary ↔ candidate.material = scheme.primary env) := fun _ => source_eq_primary_iff
  generalize scheme.candidates env = list at sources
  induction list with
  | nil => rfl
  | cons candidate rest ih =>
      obtain ⟨first, others⟩ := List.forall_mem_cons.mp sources
      rw [List.findSome?_cons, List.map_cons]
      by_cases same : candidate.material = material
      · rw [same, authentic.opens, if_pos List.mem_cons_self]
        simp only [Option.map_some, ne_eq, first, same]
      · have shut := authentic.rejects same iv.val scheme.context secret
        simp only [shut, Option.map_none, List.mem_cons, Ne.symm same, false_or]
        exact ih others

/-- What the primary material opens, it opens in every deployment that has it. -/
theorem decryptSecret_of_primary {payload : String} (same : scheme.primary later = scheme.primary env)
    (found : decryptSecret aead scheme env payload = some (secret, false)) :
    decryptSecret aead scheme later payload = some (secret, false) := by
  unfold decryptSecret at found ⊢
  obtain ⟨combined, decoded, found⟩ := Option.bind_eq_some_iff.mp found
  rw [decoded, Option.bind_some]
  split at found
  · cases found
  next long =>
    rw [if_neg long]
    obtain ⟨candidate, member, opened⟩ := List.exists_of_findSome?_eq_some found
    obtain ⟨plain, opens, pair⟩ := Option.map_eq_some_iff.mp opened
    obtain ⟨rfl, first⟩ := Prod.mk.inj pair
    have primary : candidate.material = scheme.primary env :=
      (source_eq_primary_iff member).mp (by simpa using first)
    have named : scheme.primary later ≠ "" := by
      rw [same, ← primary]
      exact (mem_usable member).2
    rw [candidates_of_primary named, List.findSome?_cons, same, ← primary, opens]
    rfl

end Read

end NieSla.Secrets
