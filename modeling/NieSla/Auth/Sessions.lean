import NieSla.Lib.Processes

/-! Admin sessions: the list `totp_sessions`, and the two older rows that stand in for it
where it is missing. -/
namespace NieSla.Auth

structure Session where
  tokenHash : String
  expiresAt : Int
  createdAt : Int
  provider : Option String
  subject : Option String
deriving DecidableEq

/-- What `validateAdminSession` answers where the session is valid. -/
structure Validation where
  expiresAt : Int
  provider : String
  subject : String
deriving DecidableEq

inductive MetaKey where
  | sessions
  | sessionId
  | sessionExpires
deriving DecidableEq

/-- The three rows; `sessions` is `none` where the row is missing or holds no JSON array. Of
the calls, `returned` are the logins that have returned; `cleared` are, for each row, those
that had returned before the start of a revocation that has deleted the row; `revoked` are
those that had returned before the start of a revocation that has returned. -/
structure SessionStore where
  sessions : Option (List Session)
  sessionId : Option String
  sessionExpires : Option Int
  returned : List Nat
  cleared : MetaKey → List Nat
  revoked : List Nat

def hashedSessionPrefix : String := "sha256:"

def maxAdminSessions : Nat := 5

def isHashed (stored : String) : Bool := hashedSessionPrefix.toList.isPrefixOf stored.toList

inductive SessionCall where
  | createAdminSession (provider subject : String)
  | validateAdminSession (sessionId : String)
  | revokeAllAdminSessions

/-- Who has called `readSessions`. -/
inductive SessionReader where
  | create
  | validate (presented : String) (revoked : List Nat)
deriving DecidableEq

/-- The statement a call runs next, and what it has read. -/
inductive SessionPhase where
  | waiting
  | readingId (reader : SessionReader) (now : Int)
  | readingExpires (reader : SessionReader) (now : Int) (legacyId : Option String)
  | writingSessions (sessions : List Session) (expiresAt : Int)
  | writingId (expiresAt : Int)
  | writingExpires (expiresAt : Int)
  | deleting (before : List Nat) (rest : List MetaKey)
  | validated (presented : String) (revoked : List Nat) (result : Option Validation)
  | finished
deriving DecidableEq

/-- What a step learns from outside: the time, and which deletion comes first. -/
structure SessionInput where
  now : Int
  key : MetaKey := .sessions

/-- The stored token is the one of the session id that is presented. -/
def accepts (sha256Hex : String → String) (presented stored : String) : Bool :=
  if isHashed stored then stored = hashedSessionPrefix ++ sha256Hex presented
  else stored = presented

/-- The loop of `validateAdminSession`. -/
def validate (sha256Hex : String → String) (now : Int) (presented : String)
    (sessions : List Session) : Option Validation :=
  let entry := sessions.find? fun session =>
    now < session.expiresAt && session.tokenHash ≠ "" && accepts sha256Hex presented
      session.tokenHash
  entry.map fun session =>
    ⟨session.expiresAt, (session.provider.filter fun text => text ≠ "").getD "legacy",
      (session.subject.filter fun text => text ≠ "").getD "admin"⟩

def cut (length : Nat) (text : String) : String := String.ofList (text.toList.take length)

/-- `readSessions` where the list is missing. -/
def legacySessions (now : Int) (legacyId : Option String) (legacyExpires : Int) : List Session :=
  match legacyId with
  | some id =>
      if id ≠ "" ∧ now < legacyExpires then
        [⟨id, legacyExpires, legacyExpires - 86400, none, none⟩]
      else []
  | none => []

section Calls

variable (sha256Hex : String → String) (sessionIds : Nat → String) (calls : Nat → SessionCall)

def tokenHash (call : Nat) : String := hashedSessionPrefix ++ sha256Hex (sessionIds call)

/-- The list that a login writes: the sessions that live, the new one, and the newest kept. -/
def createSession (call : Nat) (now : Int) (sessions : List Session) : List Session :=
  let live := sessions.filter fun session => now < session.expiresAt
  let (provider, subject) := match calls call with
    | .createAdminSession provider subject => (provider, subject)
    | _ => ("", "")
  let all := live ++ [{
    tokenHash := tokenHash sha256Hex sessionIds call
    expiresAt := now + 86400
    createdAt := now
    provider := some (cut 32 (if provider = "" then "password" else provider))
    subject := some (cut 100 (if subject = "" then "admin" else subject)) }]
  all.drop (all.length - maxAdminSessions)

/-- A call goes on with the sessions it has read. -/
def resume (call : Nat) (now : Int) (sessions : List Session) : SessionReader → SessionPhase
  | .create =>
      .writingSessions (createSession sha256Hex sessionIds calls call now sessions) (now + 86400)
  | .validate presented revoked =>
      .validated presented revoked (validate sha256Hex now presented sessions)

/-- The first statement of `readSessions`. -/
def readSessions (call : Nat) (store : SessionStore) (now : Int) (reader : SessionReader) :
    SessionPhase :=
  match store.sessions with
  | some sessions =>
      resume sha256Hex sessionIds calls call now
        (sessions.filter fun session => session.tokenHash ≠ "") reader
  | none => .readingId reader now

def deleteMeta (store : SessionStore) : MetaKey → SessionStore
  | .sessions => { store with sessions := none }
  | .sessionId => { store with sessionId := none }
  | .sessionExpires => { store with sessionExpires := none }

/-- A row is deleted for a revocation; it had returned logins before it. -/
def clearRow (store : SessionStore) (key : MetaKey) (before : List Nat) : SessionStore :=
  let cleared := Function.update store.cleared key (store.cleared key ++ before)
  { deleteMeta store key with cleared }

/-- One of the three deletions of `revokeAllAdminSessions`. -/
def deleteNext (store : SessionStore) (before : List Nat) (rest : List MetaKey) (key : MetaKey) :
    SessionStore × SessionPhase :=
  if key ∈ rest then
    let cleared := clearRow store key before
    let left := rest.filter fun other => other ≠ key
    if left = [] then ({ cleared with revoked := store.revoked ++ before }, .finished)
    else (cleared, .deleting before left)
  else (store, .deleting before rest)

def sessionAct (call : Nat) (store : SessionStore) (phase : SessionPhase) (input : SessionInput) :
    SessionStore × SessionPhase :=
  match phase with
  | .waiting =>
      match calls call with
      | .createAdminSession _ _ =>
          (store, readSessions sha256Hex sessionIds calls call store input.now .create)
      | .validateAdminSession presented =>
          (store,
            if presented = "" then .validated presented store.revoked none
            else
              readSessions sha256Hex sessionIds calls call store input.now
                (.validate presented store.revoked))
      | .revokeAllAdminSessions =>
          (store, .deleting store.returned [.sessions, .sessionId, .sessionExpires])
  | .readingId reader now => (store, .readingExpires reader now store.sessionId)
  | .readingExpires reader now legacyId =>
      (store, resume sha256Hex sessionIds calls call now
        (legacySessions input.now legacyId (store.sessionExpires.getD 0)) reader)
  | .writingSessions sessions expiresAt =>
      ({ store with sessions := some sessions }, .writingId expiresAt)
  | .writingId expiresAt =>
      ({ store with sessionId := some (tokenHash sha256Hex sessionIds call) },
        .writingExpires expiresAt)
  | .writingExpires expiresAt =>
      ({ store with sessionExpires := some expiresAt, returned := store.returned ++ [call] },
        .finished)
  | .deleting before rest => deleteNext store before rest input.key
  | .validated presented revoked result => (store, .validated presented revoked result)
  | .finished => (store, .finished)

end Calls

end NieSla.Auth
