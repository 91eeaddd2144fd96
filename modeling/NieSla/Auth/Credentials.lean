import NieSla.Lib.OrderedMap
import NieSla.Util.Text

/-! Credentials of agents and latency nodes, and the requests that they authenticate. Each statement
of a request reads the store as it is then, so a request takes a store for every statement. -/
namespace NieSla.Auth

inductive SubjectType where
  | agent
  | latency
deriving DecidableEq

structure Subject where
  type : SubjectType
  id : String
deriving DecidableEq

/-- What `token_ciphertext` holds: nothing, an envelope made with some key material for a subject, or
anything else. -/
inductive Ciphertext where
  | empty
  | sealed (material : String) (subject : Subject) (token : String)
  | unreadable
deriving DecidableEq

structure Credential where
  tokenHash : String
  ciphertext : Ciphertext
deriving DecidableEq

/-- A row of `targets` or `latency_agents`. -/
structure NodeRow where
  id : String
  enabled : Bool
deriving DecidableEq

structure CredentialStore where
  credentials : OrderedMap Subject Credential
  targets : List NodeRow
  latencyAgents : List NodeRow

structure AuthEnv where
  agentToken : String := ""
  totpEncryptionKey : String := ""
  previousEncryptionKey : String := ""
  adminPassword : String := ""
  adminToken : String := ""

def AuthEnv.configured (env : AuthEnv) : String := trim env.agentToken

/-- An `ApiError`, or another error. -/
inductive Failure where
  | api (status : Nat) (message : String)
  | error (message : String)
deriving DecidableEq

inductive Identity where
  | global (id : Option String)
  | scoped (id : String)
deriving DecidableEq

def unauthorized : Failure := .api 401 "未授权"
def agentMissing : Failure := .api 401 "Agent 目标不存在或已禁用"
def latencyMissing : Failure := .api 401 "Latency 节点不存在或已禁用"

def normalizeSubject (type : SubjectType) (subjectId : String) : Except Failure Subject :=
  let id := sanitizeAgentId subjectId
  if id = "" then .error (.error "节点凭据标识无效") else .ok ⟨type, id⟩

namespace CredentialStore

def rows (store : CredentialStore) : SubjectType → List NodeRow
  | .agent => store.targets
  | .latency => store.latencyAgents

/-- `SELECT … WHERE id = ? AND enabled = 1` -/
def enabledRow (store : CredentialStore) (type : SubjectType) (id : String) : Option NodeRow :=
  (store.rows type).find? fun row => row.id = id ∧ row.enabled

/-- The row of `agent_credentials` of this type with the hash. -/
def credentialOf (store : CredentialStore) (type : SubjectType) (hash : String) :
    Option (Subject × Credential) :=
  store.credentials.entries.find? fun entry => entry.1.type = type ∧ entry.2.tokenHash = hash

end CredentialStore

def findEnabledAgentTarget (stores : Nat → CredentialStore) (agentIdValue : String) : Option NodeRow :=
  let raw := trim agentIdValue
  let canonical := sanitizeAgentId raw
  if canonical = "" then none
  else
    ((stores 0).enabledRow .agent raw).or
      (((stores 1).enabledRow .agent canonical).or
        ((stores 2).targets.find? fun row => row.enabled ∧ sanitizeAgentId row.id = canonical))

section Requests

variable (sha256Hex : String → String) (env : AuthEnv)

def verifyAgentCredential (store : CredentialStore) (type : SubjectType) (subjectId token : String) :
    Except Failure Bool := do
  let subject ← normalizeSubject type subjectId
  let presented := trim token
  return presented ≠ "" ∧ (store.credentials.get? subject).any fun row =>
    row.tokenHash ≠ "" ∧ sha256Hex presented = row.tokenHash

/-- The row must also join an enabled one. -/
def verifyEnabledAgentCredential (store : CredentialStore) (type : SubjectType) (subjectId token : String) :
    Except Failure Bool := do
  let subject ← normalizeSubject type subjectId
  let presented := trim token
  return presented ≠ "" ∧ (store.enabledRow type subject.id).isSome ∧
    (store.credentials.get? subject).any fun row =>
      row.tokenHash ≠ "" ∧ sha256Hex presented = row.tokenHash

/-- `findAgentCredential` and `findLatencyCredential`. -/
def findCredential (store : CredentialStore) (type : SubjectType) (token : String) : Option String :=
  let presented := trim token
  if presented = "" then none
  else
    (store.credentialOf type (sha256Hex presented)).bind fun entry =>
      if entry.1.id ≠ "" ∧ entry.2.tokenHash ≠ "" then some entry.1.id else none

/-- The subject with whether its row is enabled. -/
def findEnabledCredential (store : CredentialStore) (type : SubjectType) (token : String) :
    Option (String × Bool) :=
  (findCredential sha256Hex store type token).map fun id => (id, (store.enabledRow type id).isSome)

def legacyScopedToken (type : SubjectType) (subjectId : String) : Except Failure String :=
  if env.configured = "" then .ok ""
  else do
    let subject ← normalizeSubject type subjectId
    let scopedId := match type with
      | .latency => "latency:" ++ subject.id
      | .agent => subject.id
    return "nst_" ++ NieSla.cut 48 (sha256Hex (env.configured ++ ":" ++ scopedId))

def agentScopedToken (agentId : String) : Except Failure String :=
  let id := trim agentId
  if id = "" then .ok "" else legacyScopedToken sha256Hex env .agent id

def latencyAgentScopedToken (nodeId : String) : Except Failure String :=
  legacyScopedToken sha256Hex env .latency (sanitizeAgentId nodeId)

def requireAgentForId (stores : Nat → CredentialStore) (agentId token : String) : Except Failure Identity :=
  let id := trim agentId
  let target (statement : Nat) := findEnabledAgentTarget (fun n => stores (statement + n)) id
  if id = "" then .error unauthorized
  else if token = "" then .error (if (target 0).isNone then agentMissing else unauthorized)
  else if env.configured ≠ "" ∧ token = env.configured then
    if (target 0).isNone then .error agentMissing else .ok (.global none)
  else do
    if ← verifyEnabledAgentCredential sha256Hex (stores 0) .agent id token then return .scoped id
    if (target 1).isNone then throw agentMissing
    if ← verifyAgentCredential sha256Hex (stores 4) .agent id token then return .scoped id
    let derived ← agentScopedToken sha256Hex env id
    if derived ≠ "" ∧ token = derived then return .scoped id
    throw unauthorized

/-- The derived tokens of the first 500 enabled targets. -/
def scopedTokenEntries (store : CredentialStore) : Except Failure (List (String × String)) := do
  let rows := (store.targets.filter NodeRow.enabled).take 500
  let entries ← rows.mapM fun row => do
    let token ← agentScopedToken sha256Hex env row.id
    return (row.id, token)
  return entries.filter fun entry => entry.2 ≠ ""

/-- The list that another request has left behind, if there is one. -/
def cachedTokenEntries (cached : Option (List (String × String))) (store : CredentialStore) :
    Except Failure (List (String × String)) :=
  match cached with
  | some entries => .ok entries
  | none => scopedTokenEntries sha256Hex env store

/-- The loop over the derived tokens. -/
def matchScoped (token : String) (entries : List (String × String)) : Except Failure Identity :=
  match entries.find? fun entry => token = entry.2 with
  | some entry => .ok (.scoped entry.1)
  | none => .error unauthorized

def requireAnyAgent (cached : Option (List (String × String))) (stores : Nat → CredentialStore)
    (token : String) : Except Failure Identity :=
  if token = "" then .error unauthorized
  else if env.configured ≠ "" ∧ token = env.configured then .ok (.global none)
  else
    let fallback := cachedTokenEntries sha256Hex env cached (stores 8) >>= matchScoped token
    match findEnabledCredential sha256Hex (stores 0) .agent token with
    | some (id, enabled) =>
        if enabled then .ok (.scoped id)
        else if (findEnabledAgentTarget (fun n => stores (1 + n)) id).isSome then .ok (.scoped id)
        else fallback
    | none =>
        match findCredential sha256Hex (stores 4) .agent token with
        | some id =>
            if (findEnabledAgentTarget (fun n => stores (5 + n)) id).isSome then .ok (.scoped id)
            else fallback
        | none => fallback

def requireAgentIdentity (stores : Nat → CredentialStore) (agentId token : String) :
    Except Failure Identity :=
  let id := sanitizeAgentId (trim agentId)
  if trim agentId = "" ∨ id = "" then .error (.api 401 "缺少有效的 Agent ID")
  else if token = "" then .error unauthorized
  else if env.configured ≠ "" ∧ token = env.configured then .ok (.global (some id))
  else do
    if ← verifyAgentCredential sha256Hex (stores 0) .agent id token then return .scoped id
    let derived ← agentScopedToken sha256Hex env id
    if derived ≠ "" ∧ token = derived then return .scoped id
    throw unauthorized

def requireLatencyAgentForId (stores : Nat → CredentialStore) (nodeId token : String) :
    Except Failure Identity :=
  let id := sanitizeAgentId nodeId
  let node (statement : Nat) := (stores statement).enabledRow .latency id
  if id = "" then .error latencyMissing
  else if token = "" then .error (if (node 0).isNone then latencyMissing else unauthorized)
  else if env.configured ≠ "" ∧ token = env.configured then
    if (node 0).isNone then .error latencyMissing else .ok (.global (some id))
  else do
    if ← verifyEnabledAgentCredential sha256Hex (stores 0) .latency id token then return .scoped id
    if (node 1).isNone then throw latencyMissing
    if ← verifyAgentCredential sha256Hex (stores 2) .latency id token then return .scoped id
    let derived ← latencyAgentScopedToken sha256Hex env id
    if derived ≠ "" ∧ token = derived then return .scoped id
    throw unauthorized

/-- The loop stops at the first derived token that is the presented one, so a later row does not fail
it; the derivations before that are all made. -/
def matchLatency (token : String) : List NodeRow → Except Failure Identity
  | [] => .error unauthorized
  | row :: rest => do
      let derived ← latencyAgentScopedToken sha256Hex env row.id
      if derived ≠ "" ∧ token = derived then return .scoped row.id
      matchLatency token rest

def requireAnyLatencyAgent (stores : Nat → CredentialStore) (token : String) : Except Failure Identity :=
  if token = "" then .error unauthorized
  else if env.configured ≠ "" ∧ token = env.configured then .ok (.global none)
  else
    let fallback := matchLatency sha256Hex env token ((stores 4).latencyAgents.filter NodeRow.enabled)
    match findEnabledCredential sha256Hex (stores 0) .latency token with
    | some (id, enabled) =>
        if enabled then .ok (.scoped id)
        else if ((stores 1).enabledRow .latency id).isSome then .ok (.scoped id)
        else fallback
    | none =>
        match findCredential sha256Hex (stores 2) .latency token with
        | some id =>
            if ((stores 3).enabledRow .latency id).isSome then .ok (.scoped id) else fallback
        | none => fallback

end Requests

end NieSla.Auth
