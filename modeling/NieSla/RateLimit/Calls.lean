import NieSla.Lib.Processes

/-! The rate limiter on the table `rate_limits`: each call reads the clock and then carries out its
statements, which other calls may come between. Beside the table stands the log of what was done. -/
namespace NieSla.RateLimit

structure Row where
  key : String
  ts : ℤ
deriving DecidableEq

/-- `rateLimitStatusD1`, what it returns. -/
structure Status where
  limited : Bool
  count : ℕ
  retryAfter : ℤ
deriving DecidableEq

inductive RateCall where
  | rateLimitD1 (key : String) (limit windowSec : ℕ)
  | rateLimitStatusD1 (key : String) (limit windowSec : ℕ)
  | cleanupRateLimitsD1

/-- Where a call stands; `now` is the clock that it has read. -/
inductive Phase where
  | waiting
  | called (now : ℤ)
  | deleted (now : ℤ)
  | finished

inductive Outcome where
  | accepted (key : String) (now : ℤ)
  | rejected (key : String) (now : ℤ)
  /-- The rows before a time are deleted, of one key or of all. -/
  | deleted (scope : Option String) (before : ℤ)
  | status (key : String) (now : ℤ) (result : Status)
deriving DecidableEq

structure Store where
  clock : ℤ
  rows : List Row := []
  log : List Outcome := []

section Statements

variable (rows : List Row) (key : String)

/-- The times of the rows of a key. -/
def timesOf : List ℤ := (rows.filter fun row => row.key = key).map Row.ts

/-- The `INSERT ... SELECT ... WHERE (SELECT COUNT(*) ...) < ?`, and whether a row has changed. -/
def insertBelow (now windowStart : ℤ) (limit : ℕ) : List Row × Bool :=
  if (timesOf rows key).countP (windowStart ≤ ·) < limit then (rows ++ [⟨key, now⟩], true)
  else (rows, false)

def Reaches (scope : Option String) (key : String) : Prop := scope = none ∨ scope = some key

instance (scope : Option String) (key : String) : Decidable (Reaches scope key) :=
  inferInstanceAs (Decidable (_ ∨ _))

/-- `DELETE FROM rate_limits WHERE ts < ?`, with or without a key. -/
def deleteBefore (scope : Option String) (before : ℤ) : List Row :=
  rows.filter fun row => ¬ (Reaches scope row.key ∧ row.ts < before)

/-- `SELECT COUNT(*) AS count, MIN(ts) AS oldest_ts`, and what is made of the row. -/
def readStatus (limit windowSec : ℕ) (now : ℤ) : Status :=
  let within := (timesOf rows key).filter (now - windowSec ≤ ·)
  let count := within.length
  let oldest := match within.min? with
    | none | some 0 => now
    | some ts => ts
  { limited := limit ≤ count
    count
    retryAfter := if limit ≤ count then max 1 (oldest + windowSec - now + 1) else 0 }

end Statements

/-- The next step of a call, `elapsed` seconds after the step before it. -/
def rateAct (calls : ℕ → RateCall) (call : ℕ) (store : Store) (phase : Phase) (elapsed : ℕ) :
    Store × Phase :=
  let store := { store with clock := store.clock + elapsed }
  match phase with
  | .waiting => (store, .called store.clock)
  | .called now =>
      match calls call with
      | .rateLimitD1 key limit windowSec =>
          let (rows, changed) := insertBelow store.rows key now (now - windowSec) limit
          let outcome := if changed then .accepted key now else .rejected key now
          ({ store with rows, log := store.log ++ [outcome] }, .finished)
      | .rateLimitStatusD1 key _ windowSec =>
          ({ store with
              rows := deleteBefore store.rows (some key) (now - windowSec)
              log := store.log ++ [.deleted (some key) (now - windowSec)] }, .deleted now)
      | .cleanupRateLimitsD1 =>
          ({ store with
              rows := deleteBefore store.rows none (now - 3600)
              log := store.log ++ [.deleted none (now - 3600)] }, .finished)
  | .deleted now =>
      match calls call with
      | .rateLimitStatusD1 key limit windowSec =>
          let result := readStatus store.rows key limit windowSec now
          ({ store with log := store.log ++ [.status key now result] }, .finished)
      | _ => (store, .finished)
  | .finished => (store, .finished)

/-- The times of the accepted calls on a key, in the order of their statements. -/
def acceptedAt (key : String) (log : List Outcome) : List ℤ :=
  log.filterMap fun
    | .accepted other now => if other = key then some now else none
    | _ => none

/-- The times before which rows of a key have been deleted. -/
def cutoffs (key : String) (log : List Outcome) : List ℤ :=
  log.filterMap fun
    | .deleted scope before => if Reaches scope key then some before else none
    | _ => none

/-- All calls on the key have the one limit and window. -/
def Uniform (key : String) (limit windowSec : ℕ) (calls : ℕ → RateCall) : Prop :=
  ∀ call other otherLimit otherWindow,
    calls call = .rateLimitD1 other otherLimit otherWindow ∨
      calls call = .rateLimitStatusD1 other otherLimit otherWindow →
    other = key → otherLimit = limit ∧ otherWindow = windowSec

/-- No call with a later clock has been accepted, and no row that the call counts can have been
deleted, when the `INSERT` of a call on the key is carried out. -/
def Timely (key : String) (calls : ℕ → RateCall) (call : ℕ) (store : Store) (phase : Phase)
    (_elapsed : ℕ) : Prop :=
  match phase, calls call with
  | .called now, .rateLimitD1 other _ windowSec =>
      other = key →
        (∀ ts ∈ acceptedAt key store.log, ts ≤ now) ∧
          ∀ before ∈ cutoffs key store.log, before ≤ now - windowSec
  | _, _ => True

instance (key : String) (calls : ℕ → RateCall) (call : ℕ) (store : Store) (phase : Phase)
    (elapsed : ℕ) : Decidable (Timely key calls call store phase elapsed) :=
  match phase with
  | .waiting | .deleted _ | .finished => .isTrue trivial
  | .called now =>
      match which : calls call with
      | .rateLimitD1 other _ windowSec =>
          decidable_of_iff (other = key →
            (∀ ts ∈ acceptedAt key store.log, ts ≤ now) ∧
              ∀ before ∈ cutoffs key store.log, before ≤ now - windowSec) (by simp only [Timely, which])
      | .rateLimitStatusD1 _ _ _ | .cleanupRateLimitsD1 => .isTrue (by simp only [Timely, which])

/-- The calls of the key that are accepted in the `windowSec` seconds up to a time. -/
def within (windowSec : ℕ) (until_ : ℤ) (times : List ℤ) : ℕ :=
  times.countP fun ts => until_ - windowSec ≤ ts ∧ ts ≤ until_

/-- The sliding window, over all that was done. -/
structure Sliding (key : String) (limit windowSec : ℕ) (log : List Outcome) : Prop where
  bounded : ∀ until_, within windowSec until_ (acceptedAt key log) ≤ limit
  rejected : ∀ before now after, log = before ++ .rejected key now :: after →
    limit ≤ within windowSec now (acceptedAt key before)
  retry : 0 < limit → ∀ before now after, log = before ++ .rejected key now :: after →
    ∀ asked result, .status key asked result ∈ before → result.limited = true →
      asked + result.retryAfter ≤ now → ∃ ts ∈ acceptedAt key before, asked < ts ∧ ts ≤ now

end NieSla.RateLimit
