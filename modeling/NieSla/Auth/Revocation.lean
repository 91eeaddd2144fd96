import NieSla.Auth.Sessions

/-! A revoked session stays invalid, as long as no login writes back a list in which it
stands after the revocation has deleted the row. -/
namespace NieSla.Auth

open Processes

section Tokens

variable {sha256Hex : String → String} {sessionIds : Nat → String} {calls : Nat → SessionCall}
  {initial store : SessionStore}

def SessionStore.tokens (store : SessionStore) : List String :=
  (store.sessions.getD []).map Session.tokenHash ++ store.sessionId.toList

/-- Session ids of different calls have different hashes, and no token stored at the start is
taken for one of them. -/
structure FreshIds (sha256Hex : String → String) (sessionIds : Nat → String)
    (initial : SessionStore) : Prop where
  injective : Function.Injective (tokenHash sha256Hex sessionIds)
  unaccepted : ∀ stored ∈ initial.tokens, ∀ call,
    accepts sha256Hex (sessionIds call) stored = false

/-- A token that was stored at the start or belongs to a login. -/
def Known (sha256Hex : String → String) (sessionIds : Nat → String) (initial : SessionStore)
    (stored : String) : Prop :=
  stored ∈ initial.tokens ∨ ∃ call, stored = tokenHash sha256Hex sessionIds call

theorem isHashed_tokenHash (call : Nat) :
    isHashed (tokenHash sha256Hex sessionIds call) = true := by
  unfold isHashed tokenHash
  rw [String.toList_append, List.isPrefixOf_iff_prefix]
  exact List.prefix_append _ _

/-- Only its own token is taken for a session id. -/
theorem accepts_of_known (fresh : FreshIds sha256Hex sessionIds initial) {stored : String}
    (known : Known sha256Hex sessionIds initial stored) {call : Nat}
    (other : stored ≠ tokenHash sha256Hex sessionIds call) :
    accepts sha256Hex (sessionIds call) stored = false := by
  rcases known with before | ⟨maker, rfl⟩
  · exact fresh.unaccepted stored before call
  · unfold accepts
    rw [if_pos (isHashed_tokenHash maker)]
    exact decide_eq_false other

theorem validate_eq_none {now : Int} {presented : String} {sessions : List Session}
    (unknown : ∀ session ∈ sessions, accepts sha256Hex presented session.tokenHash = false) :
    validate sha256Hex now presented sessions = none := by
  have nothing : sessions.find? (fun session => now < session.expiresAt &&
      session.tokenHash ≠ "" && accepts sha256Hex presented session.tokenHash) = none := by
    apply List.find?_eq_none.mpr
    intro session member
    simp [unknown session member]
  rw [validate, nothing]
  rfl

theorem mem_createSession {call : Nat} {now : Int} {sessions : List Session} {session : Session}
    (member : session ∈ createSession sha256Hex sessionIds calls call now sessions) :
    session ∈ sessions ∨ session.tokenHash = tokenHash sha256Hex sessionIds call := by
  have kept := List.mem_of_mem_drop member
  rcases List.mem_append.mp kept with live | new
  · exact .inl (List.mem_of_mem_filter live)
  · rw [List.mem_singleton] at new
    exact .inr (congrArg Session.tokenHash new)

theorem mem_legacySessions {now expires : Int} {legacyId : Option String} {session : Session}
    (member : session ∈ legacySessions now legacyId expires) :
    legacyId = some session.tokenHash := by
  unfold legacySessions at member
  split at member
  · split at member
    · rw [List.mem_singleton] at member
      rw [member]
    · cases member
  · cases member

end Tokens

/-! The invariant. -/

section Invariant

variable (sha256Hex : String → String) (sessionIds : Nat → String)

/-- No row holds the token of a login whose revocation has deleted the row. -/
structure SessionStore.Sound (store initial : SessionStore) : Prop where
  sessions : ∀ call ∈ store.cleared .sessions, ∀ session ∈ store.sessions.getD [],
    session.tokenHash ≠ tokenHash sha256Hex sessionIds call
  sessionId : ∀ call ∈ store.cleared .sessionId,
    store.sessionId ≠ some (tokenHash sha256Hex sessionIds call)
  revoked : ∀ key, store.revoked ⊆ store.cleared key
  cleared : ∀ key, store.cleared key ⊆ store.returned
  known : ∀ stored ∈ store.tokens, Known sha256Hex sessionIds initial stored

def ReaderSound (call : Nat) (store : SessionStore) : SessionReader → Prop
  | .create => call ∉ store.returned
  | .validate _ revoked => ∀ key, revoked ⊆ store.cleared key

/-- The token that a validation has read is not one that was revoked before it started. -/
def ReadUnrevoked (legacyId : Option String) : SessionReader → Prop
  | .create => True
  | .validate _ revoked => ∀ call ∈ revoked,
      legacyId ≠ some (tokenHash sha256Hex sessionIds call)

def Carries (initial : SessionStore) (call : Nat) (store : SessionStore) : SessionPhase → Prop
  | .waiting | .writingId _ | .writingExpires _ => call ∉ store.returned
  | .readingId reader _ => ReaderSound call store reader
  | .readingExpires reader _ legacyId =>
      ReaderSound call store reader ∧
        (∀ id ∈ legacyId, Known sha256Hex sessionIds initial id) ∧
          ReadUnrevoked sha256Hex sessionIds legacyId reader
  | .writingSessions sessions _ =>
      call ∉ store.returned ∧
        ∀ session ∈ sessions, Known sha256Hex sessionIds initial session.tokenHash
  | .deleting before rest =>
      before ⊆ store.returned ∧ ∀ key, key ∉ rest → before ⊆ store.cleared key
  | .validated presented revoked result =>
      ∀ call ∈ revoked, presented = sessionIds call → result = none
  | .finished => True

/-- A login that writes its list writes no session whose revocation has deleted the row. -/
def WritesUnrevoked (_call : Nat) (store : SessionStore) (phase : SessionPhase)
    (_input : SessionInput) : Prop :=
  match phase with
  | .writingSessions sessions _ =>
      ∀ session ∈ sessions, ∀ call ∈ store.cleared .sessions,
        session.tokenHash ≠ tokenHash sha256Hex sessionIds call
  | _ => True

instance (call : Nat) (store : SessionStore) : ∀ phase input,
    Decidable (WritesUnrevoked sha256Hex sessionIds call store phase input)
  | .writingSessions sessions _, _ => inferInstanceAs (Decidable (∀ session ∈ sessions, _))
  | .waiting, _ | .readingId _ _, _ | .readingExpires _ _ _, _ | .writingId _, _
  | .writingExpires _, _ | .deleting _ _, _ | .validated _ _ _, _ | .finished, _ =>
      .isTrue trivial

end Invariant

section Steps

variable {sha256Hex : String → String} {sessionIds : Nat → String} {calls : Nat → SessionCall}
  {initial store after : SessionStore} {call other : Nat} {phase : SessionPhase}

/-- What a step of one call may change for the others. -/
structure Grows (call : Nat) (store after : SessionStore) : Prop where
  cleared : ∀ key, store.cleared key ⊆ after.cleared key
  returned : store.returned ⊆ after.returned
  own : ∀ other ∈ after.returned, other ≠ call → other ∈ store.returned

theorem Grows.of_eq (cleared : after.cleared = store.cleared)
    (returned : after.returned = store.returned) : Grows call store after where
  cleared _ := by rw [cleared]; exact List.Subset.refl _
  returned := by rw [returned]; exact List.Subset.refl _
  own _ member _ := returned ▸ member

theorem Grows.readerSound (grows : Grows call store after) (different : other ≠ call)
    {reader : SessionReader} (sound : ReaderSound other store reader) :
    ReaderSound other after reader := by
  cases reader with
  | create => exact fun member => sound (grows.own other member different)
  | validate presented revoked => exact fun key => List.Subset.trans (sound key) (grows.cleared key)

theorem Grows.carries (grows : Grows call store after) (different : other ≠ call)
    (carries : Carries sha256Hex sessionIds initial other store phase) :
    Carries sha256Hex sessionIds initial other after phase := by
  have unreturned : other ∉ store.returned → other ∉ after.returned :=
    fun absent member => absent (grows.own other member different)
  cases phase with
  | waiting => exact unreturned carries
  | writingId expiresAt => exact unreturned carries
  | writingExpires expiresAt => exact unreturned carries
  | readingId reader now => exact grows.readerSound different carries
  | readingExpires reader now legacyId =>
      exact ⟨grows.readerSound different carries.1, carries.2⟩
  | writingSessions sessions expiresAt => exact ⟨unreturned carries.1, carries.2⟩
  | deleting before rest =>
      exact ⟨List.Subset.trans carries.1 grows.returned,
        fun key done => List.Subset.trans (carries.2 key done) (grows.cleared key)⟩
  | validated presented revoked result => exact carries
  | finished => trivial

/-- A call that has read sessions with known tokens, none of them revoked for a validation. -/
theorem carries_resume (fresh : FreshIds sha256Hex sessionIds initial) {now : Int}
    {sessions : List Session} {reader : SessionReader} (sound : ReaderSound call store reader)
    (known : ∀ session ∈ sessions, Known sha256Hex sessionIds initial session.tokenHash)
    (unrevoked : ∀ session ∈ sessions,
      ReadUnrevoked sha256Hex sessionIds (some session.tokenHash) reader) :
    Carries sha256Hex sessionIds initial call store
      (resume sha256Hex sessionIds calls call now sessions reader) := by
  cases reader with
  | create =>
      refine ⟨sound, fun session member => ?_⟩
      rcases mem_createSession member with read | own
      · exact known session read
      · exact .inr ⟨call, own⟩
  | validate presented revoked =>
      intro maker member same
      apply validate_eq_none
      intro session read
      rw [same]
      apply accepts_of_known fresh (known session read)
      exact fun matching => unrevoked session read maker member (congrArg some matching)

theorem mem_tokens_of_session {session : Session} (member : session ∈ store.sessions.getD []) :
    session.tokenHash ∈ store.tokens :=
  List.mem_append_left _ (List.mem_map_of_mem member)

theorem carries_readSessions (fresh : FreshIds sha256Hex sessionIds initial) {now : Int}
    {reader : SessionReader} (sound : store.Sound sha256Hex sessionIds initial)
    (readerSound : ReaderSound call store reader) :
    Carries sha256Hex sessionIds initial call store
      (readSessions sha256Hex sessionIds calls call store now reader) := by
  unfold readSessions
  split
  · rename_i sessions current
    have stored : ∀ session ∈ sessions.filter fun session => session.tokenHash ≠ "",
        session ∈ store.sessions.getD [] := by
      intro session member
      rw [current]
      exact List.mem_of_mem_filter member
    apply carries_resume fresh readerSound
    · exact fun session member => sound.known _ (mem_tokens_of_session (stored session member))
    · intro session member
      cases reader with
      | create => trivial
      | validate presented revoked =>
          intro maker inside same
          exact sound.sessions maker (readerSound .sessions inside) session
            (stored session member) (Option.some.inj same)
  · exact readerSound

theorem cleared_clearRow_self (store : SessionStore) (key : MetaKey) (before : List Nat) :
    (clearRow store key before).cleared key = store.cleared key ++ before :=
  Function.update_self ..

theorem cleared_clearRow_of_ne (store : SessionStore) {key other : MetaKey} (before : List Nat)
    (different : other ≠ key) :
    (clearRow store key before).cleared other = store.cleared other :=
  Function.update_of_ne different ..

theorem returned_clearRow (store : SessionStore) (key : MetaKey) (before : List Nat) :
    (clearRow store key before).returned = store.returned := by
  cases key <;> rfl

theorem revoked_clearRow (store : SessionStore) (key : MetaKey) (before : List Nat) :
    (clearRow store key before).revoked = store.revoked := by
  cases key <;> rfl

theorem tokens_clearRow (store : SessionStore) (key : MetaKey) (before : List Nat) :
    (clearRow store key before).tokens ⊆ store.tokens := by
  cases key with
  | sessions => exact List.subset_append_right _ _
  | sessionId =>
      have remaining : (clearRow store .sessionId before).tokens =
          (store.sessions.getD []).map Session.tokenHash := List.append_nil _
      rw [remaining]
      exact List.subset_append_left _ _
  | sessionExpires => exact List.Subset.refl _

theorem cleared_subset_clearRow (store : SessionStore) (key other : MetaKey)
    (before : List Nat) : store.cleared other ⊆ (clearRow store key before).cleared other := by
  by_cases same : other = key
  · subst same
    rw [cleared_clearRow_self]
    exact List.subset_append_left _ _
  · rw [cleared_clearRow_of_ne store before same]
    exact List.Subset.refl _

theorem grows_deleteNext {before : List Nat} {rest : List MetaKey} {key : MetaKey} :
    Grows call store (deleteNext store before rest key).1 := by
  have grows : Grows call store (clearRow store key before) := by
    constructor
    · exact fun other => cleared_subset_clearRow store key other before
    · rw [returned_clearRow]
      exact List.Subset.refl _
    · rw [returned_clearRow]
      exact fun _ member _ => member
  unfold deleteNext
  dsimp only
  split
  · split
    · exact ⟨grows.cleared, grows.returned, grows.own⟩
    · exact grows
  · exact .of_eq rfl rfl

theorem grows_sessionAct (input : SessionInput) :
    Grows call store (sessionAct sha256Hex sessionIds calls call store phase input).1 := by
  cases phase with
  | waiting =>
      simp only [sessionAct]
      split <;> exact .of_eq rfl rfl
  | writingExpires expiresAt =>
      constructor
      · exact fun _ => List.Subset.refl _
      · exact List.subset_append_left _ _
      · intro other member different
        rcases List.mem_append.mp member with before | own
        · exact before
        · exact absurd (List.mem_singleton.mp own) different
  | deleting before rest => exact grows_deleteNext
  | _ => exact .of_eq rfl rfl

/-- The deleted row holds nothing. -/
theorem sound_clearRow {before : List Nat} (key : MetaKey)
    (sound : store.Sound sha256Hex sessionIds initial) (returned : before ⊆ store.returned) :
    (clearRow store key before).Sound sha256Hex sessionIds initial where
  sessions call member session inside := by
    cases key with
    | sessions => cases inside
    | _ => exact sound.sessions call member session inside
  sessionId call member := by
    cases key with
    | sessionId => exact nofun
    | _ => exact sound.sessionId call member
  revoked other := by
    rw [revoked_clearRow]
    exact List.Subset.trans (sound.revoked other) (cleared_subset_clearRow store key other before)
  cleared other := by
    rw [returned_clearRow]
    by_cases same : other = key
    · subst same
      rw [cleared_clearRow_self]
      exact List.append_subset.mpr ⟨sound.cleared other, returned⟩
    · rw [cleared_clearRow_of_ne store before same]
      exact sound.cleared other
  known stored member := sound.known stored (tokens_clearRow store key before member)

theorem sound_deleteNext {before : List Nat} {rest : List MetaKey} (key : MetaKey)
    (sound : store.Sound sha256Hex sessionIds initial)
    (carries : Carries sha256Hex sessionIds initial call store (.deleting before rest)) :
    (deleteNext store before rest key).1.Sound sha256Hex sessionIds initial ∧
      Carries sha256Hex sessionIds initial call (deleteNext store before rest key).1
        (deleteNext store before rest key).2 := by
  obtain ⟨returned, done⟩ := carries
  have after := sound_clearRow key sound returned
  have fenced : ∀ other, other ∉ rest.filter (fun other => other ≠ key) →
      before ⊆ (clearRow store key before).cleared other := by
    intro other absent
    by_cases same : other = key
    · subst same
      rw [cleared_clearRow_self]
      exact List.subset_append_right _ _
    · have gone : other ∉ rest := by simpa [same] using absent
      exact List.Subset.trans (done other gone) (cleared_subset_clearRow store key other before)
  unfold deleteNext
  dsimp only
  split
  · split
    · rename_i none_
      rw [none_] at fenced
      refine ⟨⟨after.sessions, after.sessionId, fun other => ?_, after.cleared, after.known⟩,
        trivial⟩
      apply List.append_subset.mpr
      rw [← revoked_clearRow store key before]
      exact ⟨after.revoked other, fenced other List.not_mem_nil⟩
    · refine ⟨after, ?_, fenced⟩
      rw [returned_clearRow]
      exact returned
  · exact ⟨sound, returned, done⟩

theorem sound_writeSessions {sessions : List Session}
    (sound : store.Sound sha256Hex sessionIds initial)
    (known : ∀ session ∈ sessions, Known sha256Hex sessionIds initial session.tokenHash)
    (unrevoked : ∀ session ∈ sessions, ∀ call ∈ store.cleared .sessions,
      session.tokenHash ≠ tokenHash sha256Hex sessionIds call) :
    SessionStore.Sound sha256Hex sessionIds { store with sessions := some sessions }
      initial where
  sessions call member session inside := unrevoked session inside call member
  sessionId := sound.sessionId
  revoked := sound.revoked
  cleared := sound.cleared
  known stored member := by
    rcases List.mem_append.mp member with listed | id
    · obtain ⟨session, inside, rfl⟩ := List.mem_map.mp listed
      exact known session inside
    · exact sound.known stored (List.mem_append_right _ id)

/-- A login that has not returned is not among those a revocation has fenced. -/
theorem sound_writeId (fresh : FreshIds sha256Hex sessionIds initial)
    (sound : store.Sound sha256Hex sessionIds initial) (running : call ∉ store.returned) :
    SessionStore.Sound sha256Hex sessionIds
      { store with sessionId := some (tokenHash sha256Hex sessionIds call) } initial where
  sessions := sound.sessions
  sessionId maker member same := by
    have own := fresh.injective (Option.some.inj same)
    exact running (sound.cleared .sessionId (own ▸ member))
  revoked := sound.revoked
  cleared := sound.cleared
  known stored member := by
    rcases List.mem_append.mp member with listed | id
    · exact sound.known stored (List.mem_append_left _ listed)
    · rw [Option.toList_some, List.mem_singleton] at id
      exact .inr ⟨call, id⟩

theorem sound_return (sound : store.Sound sha256Hex sessionIds initial) (expiresAt : Int) :
    SessionStore.Sound sha256Hex sessionIds { store with
      sessionExpires := some expiresAt, returned := store.returned ++ [call] } initial where
  sessions := sound.sessions
  sessionId := sound.sessionId
  revoked := sound.revoked
  cleared key := List.Subset.trans (sound.cleared key) (List.subset_append_left _ _)
  known := sound.known

/-- One step keeps the rows sound, and its own call. -/
theorem sound_sessionAct {input : SessionInput} (fresh : FreshIds sha256Hex sessionIds initial)
    (sound : store.Sound sha256Hex sessionIds initial)
    (carries : Carries sha256Hex sessionIds initial call store phase)
    (unrevoked : WritesUnrevoked sha256Hex sessionIds call store phase input) :
    let next := sessionAct sha256Hex sessionIds calls call store phase input
    next.1.Sound sha256Hex sessionIds initial ∧
      Carries sha256Hex sessionIds initial call next.1 next.2 := by
  intro next
  cases phase with
  | waiting =>
      simp only [next, sessionAct]
      split
      · exact ⟨sound, carries_readSessions fresh sound carries⟩
      · refine ⟨sound, ?_⟩
        split
        · exact fun _ _ _ => rfl
        · exact carries_readSessions fresh sound sound.revoked
      · exact ⟨sound, List.Subset.refl _, fun key absent => by cases key <;> simp at absent⟩
  | readingId reader now =>
      refine ⟨sound, carries, fun id stored => ?_, ?_⟩
      · exact sound.known id (List.mem_append_right _ (Option.mem_toList.mpr stored))
      · cases reader with
        | create => trivial
        | validate presented revoked =>
            exact fun maker member => sound.sessionId maker (carries .sessionId member)
  | readingExpires reader now legacyId =>
      obtain ⟨readerSound, known, unread⟩ := carries
      refine ⟨sound, carries_resume fresh readerSound ?_ ?_⟩
      · exact fun session member => known _ (mem_legacySessions member)
      · intro session member
        rw [← mem_legacySessions member]
        exact unread
  | writingSessions sessions expiresAt =>
      exact ⟨sound_writeSessions sound carries.2 unrevoked, carries.1⟩
  | writingId expiresAt => exact ⟨sound_writeId fresh sound carries, carries⟩
  | writingExpires expiresAt => exact ⟨sound_return sound expiresAt, trivial⟩
  | deleting before rest => exact sound_deleteNext input.key sound carries
  | validated presented revoked result => exact ⟨sound, carries⟩
  | finished => exact ⟨sound, trivial⟩

theorem keeps_revoked (fresh : FreshIds sha256Hex sessionIds initial) :
    Keeps (sessionAct sha256Hex sessionIds calls) (WritesUnrevoked sha256Hex sessionIds)
      (fun store => store.Sound sha256Hex sessionIds initial)
      (Carries sha256Hex sessionIds initial) where
  shared _ _ _ _ sound carries unrevoked := (sound_sessionAct fresh sound carries unrevoked).1
  self _ _ _ _ sound carries unrevoked := (sound_sessionAct fresh sound carries unrevoked).2
  others _ _ _ input _ _ _ _ different _ carries :=
    (grows_sessionAct input).carries different carries

end Steps

def SessionStore.start (sessions : Option (List Session)) (sessionId : Option String)
    (sessionExpires : Option Int) : SessionStore :=
  ⟨sessions, sessionId, sessionExpires, [], fun _ => [], []⟩

/-- Whatever calls run together, a validation that starts after a revocation has returned
finds no session of a login that had returned before the revocation started, if no login
writes back such a session. -/
theorem revoked_session_invalid (sha256Hex : String → String) (sessionIds : Nat → String)
    (calls : Nat → SessionCall) (sessions : Option (List Session)) (sessionId : Option String)
    (sessionExpires : Option Int)
    (fresh : FreshIds sha256Hex sessionIds (.start sessions sessionId sessionExpires))
    (events : List (Nat × SessionInput))
    (unrevoked : Runs.Along (step (sessionAct sha256Hex sessionIds calls))
      (Allowed (WritesUnrevoked sha256Hex sessionIds))
      ⟨.start sessions sessionId sessionExpires, fun _ => .waiting⟩ events)
    (validator login : Nat) (presented : String) (revoked : List Nat)
    (result : Option Validation)
    (answered : (Runs.run (step (sessionAct sha256Hex sessionIds calls))
      ⟨.start sessions sessionId sessionExpires, fun _ => .waiting⟩ events).phase validator =
        .validated presented revoked result)
    (before : login ∈ revoked) (same : presented = sessionIds login) : result = none := by
  have initial : Invariant
      (fun store => store.Sound sha256Hex sessionIds (.start sessions sessionId sessionExpires))
      (Carries sha256Hex sessionIds (.start sessions sessionId sessionExpires))
      ⟨.start sessions sessionId sessionExpires, fun _ => .waiting⟩ := by
    constructor
    · constructor
      · exact nofun
      · exact nofun
      · exact fun _ => List.Subset.refl _
      · exact fun _ => List.Subset.refl _
      · exact fun _ member => .inl member
    · exact fun _ => List.not_mem_nil
  have carries := (run_invariant (keeps_revoked fresh) initial unrevoked).phase validator
  rw [answered] at carries
  exact carries login before same

/-! Two logins, a revocation and a validation. -/

def shortIds (call : Nat) : String := String.ofList (List.replicate (call + 1) 'x')

theorem shortIds_fresh : FreshIds id shortIds (.start none none none) where
  injective first second same := by
    have tails := (List.append_right_inj hashedSessionPrefix.toList).mp (by
      simpa only [tokenHash, String.toList_append, id] using congrArg String.toList same)
    simpa [shortIds] using congrArg List.length tails
  unaccepted := nofun

def relogin : Nat → SessionCall
  | 0 | 1 => .createAdminSession "password" "admin"
  | 2 => .revokeAllAdminSessions
  | _ => .validateAdminSession "x"

def sessionStep (call : Nat) (key : MetaKey) : Nat × SessionInput := (call, ⟨1000, key⟩)

def loginSteps (call : Nat) : List (Nat × SessionInput) :=
  List.replicate 6 (sessionStep call .sessions)

def revokeSteps : List (Nat × SessionInput) :=
  [sessionStep 2 .sessions, sessionStep 2 .sessionId, sessionStep 2 .sessions,
    sessionStep 2 .sessionExpires]

/-- The first login is revoked, the second one comes after. -/
def revokedBetween : List (Nat × SessionInput) :=
  loginSteps 0 ++ revokeSteps ++ loginSteps 1 ++ [sessionStep 3 .sessions]

theorem revoked_session_invalid_revokedBetween :
    ∃ result, (Runs.run (step (sessionAct id shortIds relogin))
      ⟨.start none none none, fun _ => .waiting⟩ revokedBetween).phase 3 =
        .validated "x" [0] result ∧ result = none :=
  ⟨none, by decide +kernel, revoked_session_invalid id shortIds relogin none none none
    shortIds_fresh revokedBetween (by decide +kernel) 3 0 "x" [0] none (by decide +kernel)
    (by decide) (by decide)⟩

/-- The second login reads the list before the revocation and writes it back after. -/
theorem written_back_session_valid :
    FreshIds id shortIds (.start none none none) ∧
      (Runs.run (step (sessionAct id shortIds relogin))
        ⟨.start none none none, fun _ => .waiting⟩
        (loginSteps 0 ++ [sessionStep 1 .sessions] ++ revokeSteps ++
          [sessionStep 1 .sessions, sessionStep 1 .sessions, sessionStep 1 .sessions,
            sessionStep 3 .sessions])).phase 3 =
        .validated "x" [0] (some ⟨87400, "password", "admin"⟩) ∧ shortIds 0 = "x" :=
  ⟨shortIds_fresh, by decide +kernel, by decide⟩

end NieSla.Auth
