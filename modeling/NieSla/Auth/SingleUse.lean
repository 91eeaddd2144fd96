import NieSla.Auth.Pending

/-! A token is consumed at most once, as long as no call that issues a token writes back an
entry that has been consumed since it read the list. -/
namespace NieSla.Auth

open Processes

def hashes (entries : List PendingEntry) : List String := entries.map PendingEntry.tokenHash

namespace PendingStore

def stored (store : PendingStore) (key : PendingKey) : List String :=
  hashes ((store.rows key).getD [])

/-- The hashes of the consumed tokens. -/
def consumed (sha256Hex : String → String) (store : PendingStore) (key : PendingKey) :
    List String :=
  (store.returned key).map sha256Hex

/-- A hash that was stored at the start or belongs to a token made since. -/
def Known (sha256Hex : String → String) (tokens : Nat → String)
    (store initial : PendingStore) (hash : String) : Prop :=
  (∃ key, hash ∈ initial.stored key) ∨ ∃ call ∈ store.issued, hash = sha256Hex (tokens call)

/-- Nothing is stored twice, consumed twice, or stored after it is consumed. -/
structure Sound (sha256Hex : String → String) (tokens : Nat → String)
    (store initial : PendingStore) : Prop where
  distinct : ∀ key, (store.stored key).Nodup
  fresh : ∀ key, ∀ hash ∈ store.stored key, hash ∉ store.consumed sha256Hex key
  once : ∀ key, (store.consumed sha256Hex key).Nodup
  storedKnown : ∀ key, ∀ hash ∈ store.stored key, store.Known sha256Hex tokens initial hash
  consumedKnown : ∀ key, ∀ hash ∈ store.consumed sha256Hex key,
    store.Known sha256Hex tokens initial hash

end PendingStore

/-- What a phase remembers. -/
def Remembers (sha256Hex : String → String) (tokens : Nat → String) (initial : PendingStore)
    (call : Nat) (store : PendingStore) : OAuthPhase → Prop
  | .updating _ token _ raw remaining =>
      call ∉ store.issued ∧ (sha256Hex token :: hashes remaining).Subperm (hashes raw)
  | .writing _ entries =>
      (hashes entries).Nodup ∧ ∀ hash ∈ hashes entries, store.Known sha256Hex tokens initial hash
  | .finished => True
  | .waiting | .found | .selecting _ _ _ | .exchanging => call ∉ store.issued

/-- A call that writes a list writes none of the entries consumed so far. -/
def WritesUnconsumed (sha256Hex : String → String) (_call : Nat) (store : PendingStore)
    (phase : OAuthPhase) (_input : OAuthInput) : Prop :=
  match phase with
  | .writing key entries => ∀ hash ∈ hashes entries, hash ∉ store.consumed sha256Hex key
  | _ => True

instance (sha256Hex : String → String) (call : Nat) (store : PendingStore) :
    ∀ phase input, Decidable (WritesUnconsumed sha256Hex call store phase input)
  | .writing _ entries, _ => inferInstanceAs (Decidable (∀ hash ∈ hashes entries, _))
  | .waiting, _ | .found, _ | .selecting _ _ _, _ | .updating _ _ _ _ _, _ | .exchanging, _
  | .finished, _ => .isTrue trivial

/-! The lists. -/

theorem takeEntry_some (now : Int) (hash : String) (entry : PendingEntry)
    (pending : List PendingEntry) :
    takeEntry now hash (some entry) pending =
      (some entry, pending.filter fun entry => now < entry.expiresAt) := by
  induction pending with
  | nil => rfl
  | cons first rest ih =>
      unfold takeEntry
      by_cases expired : first.expiresAt ≤ now
      · simp [expired, ih]
      · simp [expired, ih, Int.not_le.mp expired]

/-- The entry that is taken and those that remain are entries of the list. -/
theorem takeEntry_subperm {now : Int} {hash : String} {pending remaining : List PendingEntry}
    {entry : PendingEntry} (taken : takeEntry now hash none pending = (some entry, remaining)) :
    entry.tokenHash = hash ∧ (entry :: remaining).Subperm pending := by
  induction pending generalizing remaining with
  | nil => cases taken
  | cons first rest ih =>
      unfold takeEntry at taken
      split at taken
      · obtain ⟨same, inside⟩ := ih taken
        exact ⟨same, inside.trans (List.sublist_cons_self first rest).subperm⟩
      · split at taken
        · rename_i matching
          rw [takeEntry_some] at taken
          obtain ⟨same, rfl⟩ := Prod.mk.inj taken
          cases same
          exact ⟨matching.2, (List.filter_sublist.cons_cons _).subperm⟩
        · cases later : takeEntry now hash none rest with
          | mk found others =>
              rw [later] at taken
              obtain ⟨rfl, rfl⟩ := Prod.mk.inj taken
              obtain ⟨same, inside⟩ := ih later
              refine ⟨same, (List.Perm.swap _ _ _).subperm.trans ?_⟩
              exact (List.subperm_cons first).mpr inside

theorem subperm_hashes {first second : List PendingEntry} (inside : first.Subperm second) :
    (hashes first).Subperm (hashes second) := by
  obtain ⟨same, perm, sublist⟩ := inside
  exact ⟨hashes same, perm.map _, sublist.map _⟩

private theorem nodup_of_subperm {first second : List String} (inside : first.Subperm second)
    (distinct : second.Nodup) : first.Nodup := by
  obtain ⟨same, perm, sublist⟩ := inside
  exact perm.nodup_iff.mp (distinct.sublist sublist)

theorem hashes_pushToken (now : Int) (entry : PendingEntry) (pending : List PendingEntry) :
    (hashes (pushToken now entry pending)).Sublist (hashes pending ++ [entry.tokenHash]) := by
  unfold pushToken hashes
  rw [List.map_append]
  apply List.Sublist.append _ (List.Sublist.refl _)
  exact ((List.drop_sublist _ _).trans List.filter_sublist).map _

namespace PendingStore

theorem hashes_read (store : PendingStore) (key : PendingKey) :
    (hashes (store.read key)).Sublist (store.stored key) :=
  List.filter_sublist.map _

theorem stored_write_self (store : PendingStore) (key : PendingKey)
    (entries : List PendingEntry) :
    ((store.write key entries).stored key).Sublist (hashes entries) := by
  simp only [stored, write, Function.update_self, Option.getD_some]
  exact (List.drop_sublist _ _).map _

theorem stored_write_of_ne (store : PendingStore) {key other : PendingKey}
    (entries : List PendingEntry) (different : other ≠ key) :
    (store.write key entries).stored other = store.stored other := by
  simp only [stored, write, Function.update_of_ne different]

end PendingStore

section Store

variable {sha256Hex : String → String} {tokens : Nat → String} {initial store : PendingStore}

theorem PendingStore.Known.issued {hash : String} {call : Nat}
    (known : store.Known sha256Hex tokens initial hash) :
    PendingStore.Known sha256Hex tokens { store with issued := store.issued ++ [call] } initial
      hash := by
  rcases known with before | ⟨maker, made, same⟩
  · exact .inl before
  · exact .inr ⟨maker, List.mem_append_left _ made, same⟩

theorem sound_issued (call : Nat) (sound : store.Sound sha256Hex tokens initial) :
    PendingStore.Sound sha256Hex tokens { store with issued := store.issued ++ [call] }
      initial where
  distinct := sound.distinct
  fresh := sound.fresh
  once := sound.once
  storedKnown key hash member := (sound.storedKnown key hash member).issued
  consumedKnown key hash member := (sound.consumedKnown key hash member).issued

/-- A list of entries that are not consumed may be written. -/
theorem sound_write {key : PendingKey} {entries : List PendingEntry}
    (sound : store.Sound sha256Hex tokens initial) (distinct : (hashes entries).Nodup)
    (known : ∀ hash ∈ hashes entries, store.Known sha256Hex tokens initial hash)
    (unconsumed : ∀ hash ∈ hashes entries, hash ∉ store.consumed sha256Hex key) :
    (store.write key entries).Sound sha256Hex tokens initial := by
  have kept := store.stored_write_self key entries
  constructor
  · intro other
    by_cases same : other = key
    · subst same
      exact distinct.sublist kept
    · rw [store.stored_write_of_ne entries same]
      exact sound.distinct other
  · intro other hash member
    by_cases same : other = key
    · subst same
      exact unconsumed hash (kept.subset member)
    · rw [store.stored_write_of_ne entries same] at member
      exact sound.fresh other hash member
  · exact sound.once
  · intro other hash member
    by_cases same : other = key
    · subst same
      exact known hash (kept.subset member)
    · rw [store.stored_write_of_ne entries same] at member
      exact sound.storedKnown other hash member
  · exact sound.consumedKnown

theorem consumed_consume_self (key : PendingKey) (token : String)
    (remaining : List PendingEntry) :
    (store.consume key token remaining).consumed sha256Hex key =
      store.consumed sha256Hex key ++ [sha256Hex token] := by
  simp only [PendingStore.consumed, PendingStore.consume, Function.update_self, List.map_append,
    List.map_cons, List.map_nil]

theorem consumed_consume_of_ne {key other : PendingKey} (token : String)
    (remaining : List PendingEntry) (different : other ≠ key) :
    (store.consume key token remaining).consumed sha256Hex other =
      store.consumed sha256Hex other := by
  simp only [PendingStore.consumed, PendingStore.consume, Function.update_of_ne different]

/-- The entry that is consumed was stored, so it was not consumed before. -/
theorem sound_consume {key : PendingKey} {token : String} {remaining : List PendingEntry}
    (sound : store.Sound sha256Hex tokens initial)
    (taken : (sha256Hex token :: hashes remaining).Subperm (store.stored key)) :
    (store.consume key token remaining).Sound sha256Hex tokens initial := by
  have split := List.nodup_cons.mp (nodup_of_subperm taken (sound.distinct key))
  have inside := taken.subset
  have written : (store.write key remaining).Sound sha256Hex tokens initial :=
    sound_write sound split.2
      (fun hash member => sound.storedKnown key hash (inside (List.mem_cons_of_mem _ member)))
      (fun hash member => sound.fresh key hash (inside (List.mem_cons_of_mem _ member)))
  have wasStored := inside List.mem_cons_self
  constructor
  · exact written.distinct
  · intro other hash member
    by_cases same : other = key
    · subst same
      rw [consumed_consume_self]
      apply List.not_mem_append (written.fresh other hash member)
      rw [List.mem_singleton]
      rintro rfl
      exact split.1 ((store.stored_write_self other remaining).subset member)
    · rw [consumed_consume_of_ne token remaining same]
      exact written.fresh other hash member
  · intro other
    by_cases same : other = key
    · subst same
      rw [consumed_consume_self]
      apply (List.perm_append_singleton _ _).nodup_iff.mpr
      exact List.nodup_cons.mpr ⟨sound.fresh other _ wasStored, sound.once other⟩
    · rw [consumed_consume_of_ne token remaining same]
      exact sound.once other
  · exact written.storedKnown
  · intro other hash member
    by_cases same : other = key
    · subst same
      rw [consumed_consume_self, List.mem_append, List.mem_singleton] at member
      rcases member with before | rfl
      · exact sound.consumedKnown other hash before
      · exact sound.storedKnown other _ wasStored
    · rw [consumed_consume_of_ne token remaining same] at member
      exact sound.consumedKnown other hash member

end Store

/-! Steps of the calls. -/

/-- No two calls make tokens of one hash, and none of a hash stored at the start. -/
structure FreshTokens (sha256Hex : String → String) (tokens : Nat → String)
    (initial : PendingStore) : Prop where
  injective : Function.Injective fun call => sha256Hex (tokens call)
  unstored : ∀ call key, sha256Hex (tokens call) ∉ initial.stored key

section Steps

variable {sha256Hex : String → String} {tokens : Nat → String} {initial store : PendingStore}
  {calls : Nat → OAuthCall}

theorem FreshTokens.not_known {call : Nat} (fresh : FreshTokens sha256Hex tokens initial)
    (unissued : call ∉ store.issued) :
    ¬ store.Known sha256Hex tokens initial (sha256Hex (tokens call)) := by
  rintro (⟨key, before⟩ | ⟨maker, made, same⟩)
  · exact fresh.unstored call key before
  · obtain rfl := fresh.injective same
    exact unissued made

theorem remembers_congr {call : Nat} {after : PendingStore} (same : after.issued = store.issued)
    {phase : OAuthPhase} (remembers : Remembers sha256Hex tokens initial call store phase) :
    Remembers sha256Hex tokens initial call after phase := by
  cases phase with
  | finished => trivial
  | updating key token attempt raw remaining => exact ⟨same ▸ remembers.1, remembers.2⟩
  | writing key entries =>
      refine ⟨remembers.1, fun hash member => ?_⟩
      unfold PendingStore.Known
      rw [same]
      exact remembers.2 hash member
  | _ => exact fun made => remembers (same ▸ made)

theorem remembers_issued {call other : Nat} (different : other ≠ call) {phase : OAuthPhase}
    (remembers : Remembers sha256Hex tokens initial other store phase) :
    Remembers sha256Hex tokens initial other { store with issued := store.issued ++ [call] }
      phase := by
  have stays : other ∉ store.issued → other ∉ store.issued ++ [call] := by
    simp [different]
  cases phase with
  | finished => trivial
  | updating key token attempt raw remaining => exact ⟨stays remembers.1, remembers.2⟩
  | writing key entries =>
      exact ⟨remembers.1, fun hash member => (remembers.2 hash member).issued⟩
  | _ => exact stays remembers

/-- The list with the new token. -/
theorem remembers_issue {call : Nat} (fresh : FreshTokens sha256Hex tokens initial)
    (sound : store.Sound sha256Hex tokens initial) (unissued : call ∉ store.issued)
    (key : PendingKey) (now ttl : Int) (subject : Option String) :
    Remembers sha256Hex tokens initial call
      (issue sha256Hex tokens call store key now ttl subject).1
      (issue sha256Hex tokens call store key now ttl subject).2 := by
  have pushed : (hashes (pushToken now ⟨sha256Hex (tokens call), now + ttl, subject⟩
      (store.read key))).Sublist (store.stored key ++ [sha256Hex (tokens call)]) :=
    (hashes_pushToken _ _ _).trans ((store.hashes_read key).append_right _)
  have new := fresh.not_known unissued
  constructor
  · refine List.Nodup.sublist pushed ((List.perm_append_singleton _ _).nodup_iff.mpr ?_)
    exact List.nodup_cons.mpr ⟨fun member => new (sound.storedKnown key _ member),
      sound.distinct key⟩
  · intro hash member
    rcases List.mem_append.mp (pushed.subset member) with before | own
    · exact (sound.storedKnown key hash before).issued
    · rw [List.mem_singleton] at own
      exact .inr ⟨call, List.mem_append_right _ List.mem_cons_self, own⟩

/-- What a step does to the store. -/
theorem oauthAct_cases (call : Nat) (store : PendingStore) (phase : OAuthPhase) (input : OAuthInput) :
    let next := oauthAct sha256Hex tokens calls call store phase input
    next.1 = store ∨
      ((phase = .waiting ∨ phase = .exchanging) ∧ ∃ key ttl subject,
        next = issue sha256Hex tokens call store key input.now ttl subject) ∨
      (∃ key token attempt raw remaining, phase = .updating key token attempt raw remaining ∧
        store.rows key = some raw ∧ next.1 = store.consume key token remaining ∧
        (next.2 = .exchanging ∨ next.2 = .finished)) ∨
      ∃ key entries, phase = .writing key entries ∧ next = (store.write key entries, .finished) := by
  cases phase with
  | waiting =>
      simp only [oauthAct]
      split
      · exact .inr (.inl ⟨.inl trivial, _, _, _, rfl⟩)
      · exact .inl rfl
      · exact .inl rfl
  | found =>
      simp only [oauthAct]
      split <;> exact .inl rfl
  | selecting key token attempt =>
      simp only [oauthAct]
      split <;> exact .inl rfl
  | updating key token attempt raw remaining =>
      simp only [oauthAct]
      split
      · rename_i current
        refine .inr (.inr (.inl ⟨_, _, _, _, _, rfl, current, rfl, ?_⟩))
        split
        · exact .inl rfl
        · exact .inr rfl
      · exact .inl rfl
  | exchanging =>
      simp only [oauthAct]
      split
      · exact .inr (.inl ⟨.inr trivial, _, _, _, rfl⟩)
      · exact .inl rfl
  | writing key entries => exact .inr (.inr (.inr ⟨key, entries, rfl, rfl⟩))
  | finished => exact .inl rfl

theorem remembers_oauthAct {call : Nat} {phase : OAuthPhase} {input : OAuthInput}
    (fresh : FreshTokens sha256Hex tokens initial)
    (sound : store.Sound sha256Hex tokens initial)
    (remembers : Remembers sha256Hex tokens initial call store phase) :
    Remembers sha256Hex tokens initial call
      (oauthAct sha256Hex tokens calls call store phase input).1
      (oauthAct sha256Hex tokens calls call store phase input).2 := by
  cases phase with
  | waiting =>
      simp only [oauthAct]
      split
      · exact remembers_issue fresh sound remembers _ _ _ _
      · split
        · exact remembers
        · trivial
      · split
        · exact remembers
        · trivial
  | found =>
      simp only [oauthAct]
      split
      · split
        · exact remembers
        · trivial
      · trivial
  | selecting key token attempt =>
      simp only [oauthAct]
      split
      · rename_i raw entry remaining current taken
        obtain ⟨same, inside⟩ := takeEntry_subperm taken
        have listed := subperm_hashes inside
        rw [hashes, List.map_cons, same] at listed
        refine ⟨remembers, listed.trans ?_⟩
        have read := (store.hashes_read key).subperm
        rwa [PendingStore.stored, current] at read
      · trivial
  | updating key token attempt raw remaining =>
      simp only [oauthAct]
      split
      · split
        · exact remembers.1
        · trivial
      · split
        · exact remembers.1
        · trivial
  | exchanging =>
      simp only [oauthAct]
      split
      · exact remembers_issue fresh sound remembers _ _ _ _
      · trivial
  | writing key entries => trivial
  | finished => trivial

/-- Writes of unconsumed entries keep the store sound. -/
theorem keeps_sound (fresh : FreshTokens sha256Hex tokens initial) :
    Keeps (oauthAct sha256Hex tokens calls) (WritesUnconsumed sha256Hex)
      (fun store => store.Sound sha256Hex tokens initial)
      (Remembers sha256Hex tokens initial) where
  shared call store phase input sound remembers unconsumed := by
    rcases oauthAct_cases call store phase input with
      same | ⟨_, key, ttl, subject, issued⟩ |
        ⟨key, token, attempt, raw, remaining, rfl, current, consumes, _⟩ |
        ⟨key, entries, rfl, written⟩
    · rw [same]
      exact sound
    · rw [issued]
      exact sound_issued call sound
    · rw [consumes]
      apply sound_consume sound
      rw [PendingStore.stored, current]
      exact remembers.2
    · rw [written]
      exact sound_write sound remembers.1 remembers.2 unconsumed
  self call store phase input sound remembers _ := remembers_oauthAct fresh sound remembers
  others call store phase input _ _ _ other different _ remembers := by
    rcases oauthAct_cases call store phase input with
      same | ⟨_, key, ttl, subject, issued⟩ |
        ⟨key, token, attempt, raw, remaining, _, _, consumes, _⟩ | ⟨key, entries, _, written⟩
    · rw [same]
      exact remembers
    · rw [issued]
      exact remembers_issued different remembers
    · rw [consumes]
      exact remembers_congr rfl remembers
    · rw [written]
      exact remembers_congr rfl remembers

end Steps

def PendingStore.start (rows : PendingKey → Option (List PendingEntry)) : PendingStore :=
  ⟨rows, fun _ => [], []⟩

/-- Whatever calls run together, each token is consumed at most once if no call writes back
an entry that has been consumed since. -/
theorem token_consumed_once (sha256Hex : String → String) (tokens : Nat → String)
    (calls : Nat → OAuthCall) (rows : PendingKey → Option (List PendingEntry))
    (fresh : FreshTokens sha256Hex tokens (.start rows))
    (distinct : ∀ key, ((PendingStore.start rows).stored key).Nodup)
    (events : List (Nat × OAuthInput))
    (unconsumed : Runs.Along (step (oauthAct sha256Hex tokens calls))
      (Allowed (WritesUnconsumed sha256Hex)) ⟨.start rows, fun _ => .waiting⟩ events)
    (key : PendingKey) (token : String) :
    ((Runs.run (step (oauthAct sha256Hex tokens calls)) ⟨.start rows, fun _ => .waiting⟩
      events).shared.returned key).count token ≤ 1 := by
  have initial : Invariant (fun store => store.Sound sha256Hex tokens (.start rows))
      (Remembers sha256Hex tokens (.start rows)) ⟨.start rows, fun _ => .waiting⟩ := by
    constructor
    · constructor
      · exact distinct
      · exact fun _ _ _ => List.not_mem_nil
      · exact fun _ => List.nodup_nil
      · exact fun key hash member => .inl ⟨key, member⟩
      · exact fun _ _ member => absurd member List.not_mem_nil
    · exact fun _ => List.not_mem_nil
  have sound := (run_invariant (keeps_sound fresh) initial unconsumed).shared
  exact List.nodup_iff_count_le_one.mp (List.Nodup.of_map _ (sound.once key)) token

/-! A few logins. -/

def noRows : PendingKey → Option (List PendingEntry) := fun _ => none

def stateTokens (call : Nat) : String := String.ofList (List.replicate (call + 1) 's')

theorem stateTokens_fresh : FreshTokens id stateTokens (.start noRows) where
  injective first second same := by
    have lists := congrArg List.length (String.ofList_injective same)
    simpa using lists
  unstored _ _ := List.not_mem_nil

/-- Calls 2 and 3 both present the state of call 0. -/
def logins : Nat → OAuthCall
  | 2 | 3 => .finishGitHubOAuth "s"
  | _ => .startGitHubOAuth

def oauthStep (call : Nat) : Nat × OAuthInput := (call, ⟨1000, true, "admin"⟩)

/-- Two logins start; the first state is presented twice and consumed once. -/
theorem token_consumed_once_twoLogins :
    let returned := (Runs.run (step (oauthAct id stateTokens logins))
      ⟨.start noRows, fun _ => .waiting⟩
      ([0, 0, 1, 1, 2, 2, 3, 2, 3, 3].map oauthStep)).shared.returned .oauthStates
    returned = ["s"] ∧ returned.count "s" ≤ 1 := by
  refine ⟨by decide +kernel, ?_⟩
  exact token_consumed_once id stateTokens logins noRows stateTokens_fresh
    (fun _ => List.nodup_nil) _ (by decide +kernel) .oauthStates "s"

/-- Call 1 reads the list before the state of call 0 is consumed, and writes it back after. -/
theorem written_back_state_consumed_twice :
    FreshTokens id stateTokens (.start noRows) ∧
      (Runs.run (step (oauthAct id stateTokens logins)) ⟨.start noRows, fun _ => .waiting⟩
        ([0, 0, 1, 2, 2, 2, 1, 3, 3, 3].map oauthStep)).shared.returned .oauthStates = ["s", "s"] :=
  ⟨stateTokens_fresh, by decide +kernel⟩

end NieSla.Auth
