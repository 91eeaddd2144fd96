import NieSla.Lib.Runs
import NieSla.Secrets.Envelope

/-! Changes of the materials: the stored secrets, the migration that encrypts them anew, what reads and saves them, and
what is left of a secret over a run. -/
namespace NieSla.Secrets

open Auth (Subject)

/-- The values of `app_meta`, `""` where there is none, and the rows of `agent_credentials`. -/
structure Store where
  text : Slot → String
  tokenHash : Subject → String
  subjects : List Subject

def Store.set (store : Store) (slot : Slot) (value : String) : Store :=
  { store with text := Function.update store.text slot value }

def Store.hashOf (store : Store) : Slot → String
  | .credential subject => store.tokenHash subject
  | _ => ""

/-- The vectors that a call draws, and the statements of it that fail. -/
structure Attempt where
  iv : Slot → Iv
  fails : Slot → Bool

inductive Component where
  | totp
  | agentCredentials
  | alerts
  | legacyNqImageHost
  | turnstile
deriving DecidableEq

structure Migrated where
  total : Nat
  migrated : Nat
deriving DecidableEq

structure MigrationReport where
  ok : Bool
  results : List (Component × Migrated)
  errors : List Component

section Calls

variable (aead : Aead) (sha256Hex : String → String) (env : Env) (attempt : Attempt)

def Store.read (store : Store) (slot : Slot) : Option (String × Bool) :=
  readSlot aead sha256Hex env slot (store.hashOf slot) (store.text slot)

/-! The migration. -/

/-- A stored Turnstile secret that is encrypted is taken as migrated. -/
def Store.migrationRead (store : Store) (slot : Slot) : Option (String × Bool) :=
  if slot = .turnstileSecretKey then
    some (trim (store.text slot), !isEncryptedSecret (trim (store.text slot)))
  else store.read aead sha256Hex env slot

/-- The value is encrypted anew where it needs it; `none` where that throws. -/
def rewrite (slot : Slot) (found : Option (String × Bool)) (store : Store) : Store × Option Bool :=
  match found with
  | none => (store, none)
  | some (_, false) => (store, some false)
  | some (secret, true) =>
      match encryptSecret aead slot.scheme env (attempt.iv slot) secret with
      | none => (store, none)
      | some value => if attempt.fails slot then (store, none) else (store.set slot value, some true)

def isBlank (slot : Slot) (value : String) : Bool :=
  match slot with
  | .totpSecret | .totpPendingSecret => value = ""
  | .credential _ => false
  | _ => trim value = ""

/-- The loop of a component over its values; `none` where it throws. -/
def migrateSlots : List Slot → Store → Store × Option Migrated
  | [], store => (store, some ⟨0, 0⟩)
  | slot :: rest, store =>
      if isBlank slot (store.text slot) then migrateSlots rest store
      else
        match rewrite aead env attempt slot (store.migrationRead aead sha256Hex env slot) store with
        | (store, none) => (store, none)
        | (store, some migrated) =>
            let later := migrateSlots rest store
            (later.1, later.2.map fun counts => ⟨counts.total + 1, counts.migrated + migrated.toNat⟩)

/-- A component that throws without a material for what it writes. -/
def migrateWith (scheme : Scheme) (slots : List Slot) (store : Store) : Store × Option Migrated :=
  if scheme.primary env = "" then (store, none) else migrateSlots aead sha256Hex env attempt slots store

def migrateTOTPEncryption : Store → Store × Option Migrated :=
  migrateWith aead sha256Hex env attempt totp [.totpSecret, .totpPendingSecret]

def migrateAgentCredentialEncryption (store : Store) : Store × Option Migrated :=
  migrateWith aead sha256Hex env attempt totp (store.subjects.map .credential) store

def migrateAlertEncryption : Store → Store × Option Migrated :=
  migrateWith aead sha256Hex env attempt alert [.alertTelegramBotToken, .alertResendApiKey, .alertChannelSecrets]

def migrateNqImageHostEncryption : Store → Store × Option Migrated :=
  migrateWith aead sha256Hex env attempt nqImageHost [.nqImageHostToken]

def migrateTurnstileEncryption : Store → Store × Option Migrated :=
  migrateSlots aead sha256Hex env attempt [.turnstileSecretKey]

def migrations : List (Component × (Store → Store × Option Migrated)) :=
  [(.totp, migrateTOTPEncryption aead sha256Hex env attempt),
    (.agentCredentials, migrateAgentCredentialEncryption aead sha256Hex env attempt),
    (.alerts, migrateAlertEncryption aead sha256Hex env attempt),
    (.legacyNqImageHost, migrateNqImageHostEncryption aead sha256Hex env attempt),
    (.turnstile, migrateTurnstileEncryption aead sha256Hex env attempt)]

/-- The loop over the components. -/
def migrateEach : List (Component × (Store → Store × Option Migrated)) → Store → MigrationReport →
    Store × MigrationReport
  | [], store, report => (store, { report with ok := report.errors.isEmpty })
  | (component, migrate) :: rest, store, report =>
      match migrate store with
      | (store, some counts) => migrateEach rest store { report with results := report.results ++ [(component, counts)] }
      | (store, none) => migrateEach rest store { report with errors := report.errors ++ [component] }

def migrateEncryptionMaterials (store : Store) : Store × MigrationReport :=
  if totp.primary env = "" then (store, ⟨false, [], []⟩)
  else migrateEach (migrations aead sha256Hex env attempt) store ⟨false, [], []⟩

/-! Readers. -/

/-- `if (needsMigration && primary) await setMeta(…)`; `failed` is returned where the statement fails. -/
def reread (slot : Slot) (failed : Option String) (found : Option (String × Bool)) (store : Store) :
    Store × Option String :=
  match found with
  | none => (store, none)
  | some (secret, needsMigration) =>
      if needsMigration then
        match encryptSecret aead slot.scheme env (attempt.iv slot) secret with
        | none => (store, some secret)
        | some value => if attempt.fails slot then (store, failed) else (store.set slot value, some secret)
      else (store, some secret)

/-- A token of `alerts.js` that is stored; a plain one is returned also where it cannot be encrypted. -/
def storedToken (slot : Slot) (store : Store) : Store × Option String :=
  let stored := trim (store.text slot)
  let failed := if isEncryptedSecret stored then none else some stored
  reread aead env attempt slot failed (readAlertSecret aead env (store.text slot)) store

def telegramToken : Store → Store × Option String := storedToken aead env attempt .alertTelegramBotToken

def resendApiKey : Store → Store × Option String := storedToken aead env attempt .alertResendApiKey

/-- The text that `readChannelSecrets` parses. -/
def readChannelSecrets (store : Store) : Store × Option String :=
  reread aead env attempt .alertChannelSecrets none (readAlertSecret aead env (store.text .alertChannelSecrets)) store

/-- `readStoredToken` of `nq-image-host.js` -/
def readStoredToken (store : Store) : Store × Option String :=
  reread aead env attempt .nqImageHostToken none (readNqToken aead env (store.text .nqImageHostToken)) store

def getTurnstileSecret (store : Store) : Option String :=
  (readTurnstileSecret aead env (store.text .turnstileSecretKey)).map Prod.fst

/-- The secret that `verifyActiveTOTP` checks a code with. -/
def verifyActiveTOTP (store : Store) : Store × Option String :=
  reread aead env attempt .totpSecret none (readStoredSecret aead env (store.text .totpSecret)) store

/-- `decryptCredentialValue` -/
def decryptCredentialValue (subject : Subject) (store : Store) : Store × Option String :=
  reread aead env attempt (.credential subject) none
    (readCredential aead sha256Hex env subject (store.tokenHash subject) (store.text (.credential subject))) store

/-- What a call that needs the secret of a slot reads. -/
def answer (slot : Slot) (store : Store) : Store × Option String :=
  match slot with
  | .totpSecret => verifyActiveTOTP aead env attempt store
  | .totpPendingSecret => (store, (readStoredSecret aead env (store.text .totpPendingSecret)).map Prod.fst)
  | .alertTelegramBotToken => telegramToken aead env attempt store
  | .alertResendApiKey => resendApiKey aead env attempt store
  | .alertChannelSecrets => readChannelSecrets aead env attempt store
  | .nqImageHostToken => readStoredToken aead env attempt store
  | .turnstileSecretKey => (store, getTurnstileSecret aead env store)
  | .credential subject => decryptCredentialValue aead sha256Hex env attempt subject store

/-! Writers; `false` where nothing is saved. -/

def save (slot : Slot) (secret : String) (store : Store) : Store × Bool :=
  match encryptSecret aead slot.scheme env (attempt.iv slot) secret with
  | none => (store, false)
  | some value => if attempt.fails slot then (store, false) else (store.set slot value, true)

def setupTOTP (secret : String) (store : Store) : Store × Bool :=
  if store.text .totpSecret ≠ "" then (store, false) else save aead env attempt .totpPendingSecret secret store

/-- A token or key of a request, trimmed; an empty one changes nothing. -/
def saveTrimmed (slot : Slot) (value : String) (store : Store) : Store × Bool :=
  if trim value = "" then (store, false) else save aead env attempt slot (trim value) store

/-- `rotateAgentCredential`, or the `INSERT` of `getOrCreateAgentToken` -/
def storeCredential (subject : Subject) (token : String) (store : Store) : Store × Bool :=
  match save aead env attempt (.credential subject) token store with
  | (store, false) => (store, false)
  | (store, true) =>
      ({ store with
          tokenHash := Function.update store.tokenHash subject (sha256Hex token)
          subjects := if subject ∈ store.subjects then store.subjects else store.subjects ++ [subject] }, true)

/-- `verifyTOTP` with a code that is right: the secret that was set up becomes the active one. -/
def verifyTOTP (store : Store) : Store × Option String :=
  let pending := store.text .totpSecret = ""
  let value := if pending then store.text .totpPendingSecret else store.text .totpSecret
  match readStoredSecret aead env value with
  | none => (store, none)
  | some (secret, needsMigration) =>
      if pending ∨ (needsMigration = true ∧ totp.primary env ≠ "") then
        match save aead env attempt .totpSecret secret store with
        | (store, false) => (store, none)
        | (store, true) =>
            (if attempt.fails .totpPendingSecret then store else store.set .totpPendingSecret "", some secret)
      else (store, none)

end Calls

/-! Runs. -/

inductive Request where
  | setupTOTP (secret : String)
  | verifyTOTP
  | disableTOTP
  | setTelegramToken (token : String)
  | clearTelegramToken
  | setResendKey (key : String)
  | clearResendKey
  | updateChannelSecrets (text : String)
  | saveTurnstileConfig (secret : String)
  | storeCredential (subject : Subject) (token : String)

inductive Event where
  /-- The deployment gets other materials. -/
  | configure (env : Env)
  | migrate (attempt : Attempt)
  | answer (slot : Slot) (attempt : Attempt)
  | request (request : Request) (attempt : Attempt)

/-- With what the code does not keep: the secrets as they were saved; whether a migration has reported `ok` since the
materials were changed, and whether the Turnstile secret was saved since. -/
structure State where
  env : Env
  store : Store
  saved : Slot → Option String
  migrated : Bool
  resaved : Bool

def State.fresh (env : Env) : State := ⟨env, ⟨fun _ => "", fun _ => "", []⟩, fun _ => none, false, false⟩

def State.keep (state : State) (slot : Slot) (secret : String) (done : Store × Bool) : State :=
  if done.2 then
    { state with
      store := done.1
      saved := Function.update state.saved slot (some secret)
      resaved := state.resaved || decide (slot = .turnstileSecretKey) }
  else { state with store := done.1 }

def State.clear (state : State) (slot : Slot) (attempt : Attempt) : State :=
  if attempt.fails slot then state
  else { state with store := state.store.set slot "", saved := Function.update state.saved slot none }

section Step

variable (aead : Aead) (sha256Hex : String → String)

/-- `verifyTOTP`: the pending secret becomes the active one. -/
def State.activate (state : State) (attempt : Attempt) : State :=
  match verifyTOTP aead state.env attempt state.store with
  | (store, none) => { state with store }
  | (store, some _) =>
      let active := if (state.saved .totpSecret).isSome then state.saved .totpSecret else state.saved .totpPendingSecret
      let rest := if attempt.fails .totpPendingSecret then state.saved
        else Function.update state.saved .totpPendingSecret none
      { state with store, saved := Function.update rest .totpSecret active }

/-- `disableTOTP` with a code that is right. -/
def State.disableTOTP (state : State) (attempt : Attempt) : State :=
  let value :=
    if state.store.text .totpSecret = "" then state.store.text .totpPendingSecret else state.store.text .totpSecret
  if (readStoredSecret aead state.env value).isNone || attempt.fails .totpSecret then state
  else (state.clear .totpSecret attempt).clear .totpPendingSecret attempt

def serve (attempt : Attempt) (state : State) : Request → State
  | .setupTOTP secret =>
      state.keep .totpPendingSecret secret (setupTOTP aead state.env attempt secret state.store)
  | .verifyTOTP => state.activate aead attempt
  | .disableTOTP => state.disableTOTP aead attempt
  | .setTelegramToken token =>
      state.keep .alertTelegramBotToken (trim token)
        (saveTrimmed aead state.env attempt .alertTelegramBotToken token state.store)
  | .clearTelegramToken => state.clear .alertTelegramBotToken attempt
  | .setResendKey key =>
      state.keep .alertResendApiKey (trim key) (saveTrimmed aead state.env attempt .alertResendApiKey key state.store)
  | .clearResendKey => state.clear .alertResendApiKey attempt
  | .updateChannelSecrets text =>
      state.keep .alertChannelSecrets text (save aead state.env attempt .alertChannelSecrets text state.store)
  | .saveTurnstileConfig secret =>
      state.keep .turnstileSecretKey (trim secret)
        (saveTrimmed aead state.env attempt .turnstileSecretKey secret state.store)
  | .storeCredential subject token =>
      state.keep (.credential subject) token (storeCredential aead sha256Hex state.env attempt subject token state.store)

def step (state : State) : Event → State
  | .configure env => { state with env, migrated := false, resaved := false }
  | .migrate attempt =>
      let done := migrateEncryptionMaterials aead sha256Hex state.env attempt state.store
      { state with store := done.1, migrated := state.migrated || done.2.ok }
  | .answer slot attempt => { state with store := (answer aead sha256Hex state.env attempt slot state.store).1 }
  | .request request attempt => serve aead sha256Hex attempt state request

end Step

/-- The materials are changed after a migration that has reported `ok`, the Turnstile secret is saved anew before,
and the primary materials stay among those that are tried. -/
def Allowed (state : State) : Event → Prop
  | .configure env =>
      state.migrated = true ∧ (state.saved .turnstileSecretKey = none ∨ state.resaved = true) ∧
        ∀ slot : Slot, slot.scheme.primary state.env ∈ slot.scheme.materials env
  | _ => True

end NieSla.Secrets
