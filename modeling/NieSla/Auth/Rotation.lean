import NieSla.Auth.Credentials
import NieSla.Lib.Processes

/-! Calls of `getOrCreateAgentToken` and `rotateAgentCredential`, any number of them at once, each
statement a step. -/
namespace NieSla.Auth

inductive CredentialCall where
  | getOrCreateAgentToken (type : SubjectType) (subjectId : String)
  | rotateAgentCredential (type : SubjectType) (subjectId : String)

/-- The statement that a call runs next; `holding` is about to return. -/
inductive CredentialPhase where
  | waiting
  | creating (subject : Subject)
  | rereading (subject : Subject)
  | migrating (subject : Subject) (token : String)
  | updating (subject : Subject)
  | inserting (subject : Subject)
  | holding (subject : Subject) (token : String)
  | finished
deriving DecidableEq

/-- The store with what the code does not keep: the calls that have a token of a subject and have not
returned it, and the tokens that were returned since the last rotation of the subject started. -/
structure TokenStore where
  store : CredentialStore
  held : Subject → List Nat
  promised : Subject → List String

def AuthEnv.primary (env : AuthEnv) : String := trim env.totpEncryptionKey

def AuthEnv.encryptionMaterials (env : AuthEnv) : List String :=
  [env.primary, trim env.previousEncryptionKey, trim env.adminPassword, trim env.adminToken].filter (· ≠ "")

section Statements

variable (sha256Hex : String → String) (env : AuthEnv)

/-- `decryptCredentialValue` up to its statement: the token, and whether it is to be encrypted anew. -/
def decryptCredentialValue (subject : Subject) (row : Credential) : Option (String × Bool) :=
  match row.ciphertext with
  | .sealed material owner token =>
      if material ∈ env.encryptionMaterials ∧ owner = subject ∧ sha256Hex token = row.tokenHash then
        some (token, decide (material ≠ env.primary))
      else none
  | .empty | .unreadable => none

/-- `INSERT OR IGNORE`: the subject and the hash are both unique. -/
def CredentialStore.insertOrIgnore (store : CredentialStore) (subject : Subject) (row : Credential) :
    CredentialStore :=
  if (store.credentials.get? subject).isSome ∨
      store.credentials.entries.any fun entry => entry.2.tokenHash = row.tokenHash then store
  else { store with credentials := store.credentials.set subject row }

/-- The row that a call stores for its own token. -/
def newCredential (subject : Subject) (token : String) : Credential :=
  ⟨sha256Hex token, .sealed env.primary subject token⟩

def TokenStore.hold (tokens : TokenStore) (subject : Subject) (call : Nat) : TokenStore :=
  { tokens with held := Function.update tokens.held subject (tokens.held subject ++ [call]) }

def TokenStore.answer (tokens : TokenStore) (subject : Subject) (call : Nat) (token : String) : TokenStore :=
  { tokens with
    held := Function.update tokens.held subject ((tokens.held subject).erase call)
    promised := Function.update tokens.promised subject (tokens.promised subject ++ [token]) }

/-- What follows a read of the row. -/
def afterRead (call : Nat) (tokens : TokenStore) (subject : Subject) (row : Credential) :
    TokenStore × CredentialPhase :=
  match decryptCredentialValue sha256Hex env subject row with
  | none => (tokens, .finished)
  | some (token, needsMigration) =>
      (tokens.hold subject call,
        if needsMigration ∧ env.primary ≠ "" then .migrating subject token else .holding subject token)

/-- `getOrCreateAgentToken` where there is no row to read. -/
def create (call : Nat) (tokens : TokenStore) (subject : Subject) : TokenStore × CredentialPhase :=
  match legacyScopedToken sha256Hex env subject.type subject.id with
  | .error _ => (tokens, .finished)
  | .ok legacy =>
      if legacy ≠ "" then (tokens.hold subject call, .holding subject legacy)
      else if env.primary = "" then (tokens, .finished)
      else (tokens, .creating subject)

def startCall (call : Nat) (tokens : TokenStore) : CredentialCall → TokenStore × CredentialPhase
  | .getOrCreateAgentToken type subjectId =>
      match normalizeSubject type subjectId with
      | .error _ => (tokens, .finished)
      | .ok subject =>
          match tokens.store.credentials.get? subject with
          | none => create sha256Hex env call tokens subject
          | some row =>
              if row.tokenHash ≠ "" ∧ row.ciphertext ≠ .empty then
                afterRead sha256Hex env call tokens subject row
              else create sha256Hex env call tokens subject
  | .rotateAgentCredential type subjectId =>
      match normalizeSubject type subjectId with
      | .error _ => (tokens, .finished)
      | .ok subject =>
          if env.primary = "" then (tokens, .finished)
          else ({ tokens with promised := Function.update tokens.promised subject [] }, .updating subject)

/-- The `UPDATE` of a rotation; a hash that another subject has makes it fail. -/
def update (call : Nat) (token : String) (tokens : TokenStore) (subject : Subject) :
    TokenStore × CredentialPhase :=
  let row := newCredential sha256Hex env subject token
  if (tokens.store.credentials.get? subject).isNone then (tokens, .inserting subject)
  else if tokens.store.credentials.entries.any fun entry =>
      entry.1 ≠ subject ∧ entry.2.tokenHash = row.tokenHash then (tokens, .finished)
  else
    ({ tokens with
        store := { tokens.store with credentials := tokens.store.credentials.set subject row } }.hold
      subject call, .holding subject token)

/-- The `UPDATE` of a ciphertext. -/
def migrate (tokens : TokenStore) (subject : Subject) (token : String) : TokenStore :=
  match tokens.store.credentials.get? subject with
  | none => tokens
  | some row =>
      { tokens with
        store :=
          { tokens.store with
            credentials := tokens.store.credentials.set subject
              { row with ciphertext := .sealed env.primary subject token } } }

variable (randomTokens : Nat → String) (calls : Nat → CredentialCall)

/-- The next statement of a call, with what is computed up to the one after it. -/
def credentialAct (call : Nat) (tokens : TokenStore) (phase : CredentialPhase) (_ : Unit) :
    TokenStore × CredentialPhase :=
  match phase with
  | .waiting => startCall sha256Hex env call tokens (calls call)
  | .creating subject =>
      ({ tokens with
          store := tokens.store.insertOrIgnore subject
            (newCredential sha256Hex env subject (randomTokens call)) },
        .rereading subject)
  | .rereading subject =>
      match tokens.store.credentials.get? subject with
      | none => (tokens, .finished)
      | some row => afterRead sha256Hex env call tokens subject row
  | .migrating subject token => (migrate env tokens subject token, .holding subject token)
  | .updating subject => update sha256Hex env call (randomTokens call) tokens subject
  | .inserting subject =>
      ({ tokens with
          store := tokens.store.insertOrIgnore subject
            (newCredential sha256Hex env subject (randomTokens call)) }.hold subject call,
        .holding subject (randomTokens call))
  | .holding subject token => (tokens.answer subject call token, .finished)
  | .finished => (tokens, .finished)

end Statements

section Answers

variable (sha256Hex : String → String) (env : AuthEnv) (cached : Option (List (String × String)))
  (stores : Nat → CredentialStore) (subject : Subject) (token : String)

/-- The token authenticates the subject, under any spelling of its id, in every request for it. -/
def Authenticates : Prop :=
  match subject.type with
  | .agent =>
      (∀ agentId, sanitizeAgentId (trim agentId) = subject.id →
        requireAgentForId sha256Hex env stores agentId token = .ok (.scoped (trim agentId)) ∧
          requireAgentIdentity sha256Hex env stores agentId token = .ok (.scoped subject.id)) ∧
        requireAnyAgent sha256Hex env cached stores token = .ok (.scoped subject.id)
  | .latency =>
      (∀ nodeId, sanitizeAgentId nodeId = subject.id →
        requireLatencyAgentForId sha256Hex env stores nodeId token = .ok (.scoped subject.id)) ∧
        requireAnyLatencyAgent sha256Hex env stores token = .ok (.scoped subject.id)

/-- In none of them does it. -/
def Rejected : Prop :=
  match subject.type with
  | .agent =>
      (∀ agentId, sanitizeAgentId (trim agentId) = subject.id → ∀ id,
        requireAgentForId sha256Hex env stores agentId token ≠ .ok (.scoped id) ∧
          requireAgentIdentity sha256Hex env stores agentId token ≠ .ok (.scoped id)) ∧
        requireAnyAgent sha256Hex env cached stores token ≠ .ok (.scoped subject.id)
  | .latency =>
      (∀ nodeId, sanitizeAgentId nodeId = subject.id → ∀ id,
        requireLatencyAgentForId sha256Hex env stores nodeId token ≠ .ok (.scoped id)) ∧
        requireAnyLatencyAgent sha256Hex env stores token ≠ .ok (.scoped subject.id)

end Answers

end NieSla.Auth
