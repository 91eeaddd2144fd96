import NieSla.Lib.Processes

/-! The GitHub login: states and tickets that wait in two lists of `app_meta` to be used
once. A call consumes a token by comparing and replacing the list it has read; a call that
issues a token writes the list it has read without looking again. -/
namespace NieSla.Auth

structure PendingEntry where
  tokenHash : String
  expiresAt : Int
  subject : Option String
deriving DecidableEq

inductive PendingKey where
  | oauthStates
  | oauthTickets
deriving DecidableEq

def maxPendingOAuth : Nat := 10

def oauthStateTtlSec : Int := 600

def oauthTicketTtlSec : Int := 300

/-- The JSON lists of the two rows, the tokens for which `consumePendingToken` has returned an
entry, and the calls that have made a token. -/
structure PendingStore where
  rows : PendingKey → Option (List PendingEntry)
  returned : PendingKey → List String
  issued : List Nat

namespace PendingStore

def read (store : PendingStore) (key : PendingKey) : List PendingEntry :=
  ((store.rows key).getD []).filter fun entry => entry.tokenHash ≠ ""

def write (store : PendingStore) (key : PendingKey) (entries : List PendingEntry) :
    PendingStore :=
  let kept := entries.drop (entries.length - maxPendingOAuth)
  { store with rows := Function.update store.rows key (some kept) }

/-- The list without the entry of the token replaces the list that was read. -/
def consume (store : PendingStore) (key : PendingKey) (token : String)
    (remaining : List PendingEntry) : PendingStore :=
  let returned := store.returned key ++ [token]
  { store.write key remaining with returned := Function.update store.returned key returned }

end PendingStore

/-- The loop of `consumePendingToken` over the list. -/
def takeEntry (now : Int) (hash : String) :
    Option PendingEntry → List PendingEntry → Option PendingEntry × List PendingEntry
  | found, [] => (found, [])
  | found, entry :: rest =>
      if entry.expiresAt ≤ now then takeEntry now hash found rest
      else if found.isNone ∧ entry.tokenHash = hash then takeEntry now hash (some entry) rest
      else
        let (taken, remaining) := takeEntry now hash found rest
        (taken, entry :: remaining)

/-- The list that a call with a new token writes back. -/
def pushToken (now : Int) (entry : PendingEntry) (pending : List PendingEntry) :
    List PendingEntry :=
  let live := pending.filter fun entry => now < entry.expiresAt
  live.drop (live.length - (maxPendingOAuth - 1)) ++ [entry]

inductive OAuthCall where
  | startGitHubOAuth
  | finishGitHubOAuth (state : String)
  | completeGitHubOAuth (ticket : String)

/-- The statement a call runs next, and what it has read. -/
inductive OAuthPhase where
  | waiting
  /-- The ticket was found; the TOTP code is checked next. -/
  | found
  | selecting (key : PendingKey) (token : String) (attempt : Nat)
  | updating (key : PendingKey) (token : String) (attempt : Nat) (raw : List PendingEntry)
      (remaining : List PendingEntry)
  /-- The state is consumed; GitHub is asked next. -/
  | exchanging
  | writing (key : PendingKey) (entries : List PendingEntry)
  | finished

/-- What a step learns from outside: the time, whether the checks before it pass, and the
GitHub login. -/
structure OAuthInput where
  now : Int
  passes : Bool := true
  login : String := "admin"

section Calls

variable (sha256Hex : String → String) (tokens : Nat → String) (calls : Nat → OAuthCall)

/-- `readPending` of a call that has made its token. -/
def issue (call : Nat) (store : PendingStore) (key : PendingKey) (now ttl : Int)
    (subject : Option String) : PendingStore × OAuthPhase :=
  ({ store with issued := store.issued ++ [call] },
    .writing key (pushToken now ⟨sha256Hex (tokens call), now + ttl, subject⟩ (store.read key)))

def oauthAct (call : Nat) (store : PendingStore) (phase : OAuthPhase) (input : OAuthInput) :
    PendingStore × OAuthPhase :=
  match phase with
  | .waiting =>
      match calls call with
      | .startGitHubOAuth =>
          issue sha256Hex tokens call store .oauthStates input.now oauthStateTtlSec none
      | .finishGitHubOAuth state =>
          (store, if input.passes then .selecting .oauthStates state 0 else .finished)
      | .completeGitHubOAuth ticket =>
          (store,
            if input.passes && (store.read .oauthTickets).any fun entry =>
              input.now < entry.expiresAt && entry.tokenHash = sha256Hex ticket then .found
            else .finished)
  | .found =>
      match calls call with
      | .completeGitHubOAuth ticket =>
          (store, if input.passes then .selecting .oauthTickets ticket 0 else .finished)
      | _ => (store, .finished)
  | .selecting key token attempt =>
      match store.rows key, takeEntry input.now (sha256Hex token) none (store.read key) with
      | some raw, (some _, remaining) => (store, .updating key token attempt raw remaining)
      | _, _ => (store, .finished)
  | .updating key token attempt raw remaining =>
      if store.rows key = some raw then
        (store.consume key token remaining,
          match calls call with
          | .finishGitHubOAuth _ => .exchanging
          | _ => .finished)
      else (store, if attempt + 1 < 3 then .selecting key token (attempt + 1) else .finished)
  | .exchanging =>
      if input.passes then
        issue sha256Hex tokens call store .oauthTickets input.now oauthTicketTtlSec
          (some input.login)
      else (store, .finished)
  | .writing key entries => (store.write key entries, .finished)
  | .finished => (store, .finished)

end Calls

end NieSla.Auth
