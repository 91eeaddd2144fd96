import NieSla.Auth.Rotated

/-! The tokens that the calls return, through any order of their statements. -/
namespace NieSla.Auth

open Processes

/-- What is stored under the subject's key material can be presented as it is. -/
def PlainTokens (store : CredentialStore) : Prop :=
  ∀ subject row material owner token, store.credentials.get? subject = some row →
    row.ciphertext = .sealed material owner token → trim token = token ∧ token ≠ ""

/-- No row is the one of the token. -/
def Unused (sha256Hex : String → String) (store : CredentialStore) (token : String) : Prop :=
  ∀ subject row, store.credentials.get? subject = some row → row.tokenHash ≠ sha256Hex token

/-- The tokens that the calls draw, and the rows that there are at first. -/
structure FreshCredentials (sha256Hex : String → String) (randomTokens : Nat → String)
    (initial : CredentialStore) : Prop where
  injective : Function.Injective randomTokens
  plain : ∀ call, trim (randomTokens call) = randomTokens call ∧ randomTokens call ≠ ""
  unused : ∀ call, Unused sha256Hex initial (randomTokens call)
  unique : UniqueHashes initial
  stored : PlainTokens initial

section Rows

variable {sha256Hex : String → String} {store : CredentialStore} {subject other : Subject} {row : Credential}
  {token : String}

/-- The store after a statement that writes one row. -/
def CredentialStore.write (store : CredentialStore) (subject : Subject) (row : Credential) : CredentialStore :=
  { store with credentials := store.credentials.set subject row }

theorem get?_write_self : (store.write subject row).credentials.get? subject = some row :=
  OrderedMap.get?_set_self _ _ _

theorem get?_write_of_ne (apart : other ≠ subject) :
    (store.write subject row).credentials.get? other = store.credentials.get? other :=
  OrderedMap.get?_set_of_ne _ _ apart

theorem holds_write_self (same : row.tokenHash = sha256Hex token) :
    Holds sha256Hex (store.write subject row) subject token :=
  ⟨row, get?_write_self, same⟩

theorem Holds.write_of_ne (holds : Holds sha256Hex store other token) (apart : other ≠ subject) :
    Holds sha256Hex (store.write subject row) other token := by
  obtain ⟨found, there, hash⟩ := holds
  exact ⟨found, (get?_write_of_ne apart).trans there, hash⟩

theorem Unused.write (unused : Unused sha256Hex store token) (apart : row.tokenHash ≠ sha256Hex token) :
    Unused sha256Hex (store.write subject row) token := by
  intro owner found there
  by_cases same : owner = subject
  · subst same
    cases get?_write_self.symm.trans there
    exact apart
  · exact unused owner found ((get?_write_of_ne same).symm.trans there)

theorem UniqueHashes.write (unique : UniqueHashes store)
    (apart : ∀ owner found, owner ≠ subject → store.credentials.get? owner = some found →
      found.tokenHash ≠ row.tokenHash) : UniqueHashes (store.write subject row) := by
  intro first second firstRow secondRow firstFound secondFound same
  by_cases one : first = subject
  · subst one
    cases get?_write_self.symm.trans firstFound
    by_contra two
    rw [get?_write_of_ne (Ne.symm two)] at secondFound
    exact apart second secondRow (Ne.symm two) secondFound same.symm
  · rw [get?_write_of_ne one] at firstFound
    by_cases two : second = subject
    · subst two
      cases get?_write_self.symm.trans secondFound
      exact absurd same (apart first firstRow one firstFound)
    · rw [get?_write_of_ne two] at secondFound
      exact unique first second firstRow secondRow firstFound secondFound same

theorem PlainTokens.write (plain : PlainTokens store)
    (row_plain : ∀ material owner token, row.ciphertext = .sealed material owner token →
      trim token = token ∧ token ≠ "") : PlainTokens (store.write subject row) := by
  intro owner found material sealer token there
  by_cases same : owner = subject
  · subst same
    cases get?_write_self.symm.trans there
    exact row_plain material sealer token
  · exact plain owner found material sealer token ((get?_write_of_ne same).symm.trans there)

/-- An insert writes the row, or leaves the store as it is where the subject has one. -/
theorem insertOrIgnore_eq (unused : Unused sha256Hex store token) (same : row.tokenHash = sha256Hex token) :
    store.insertOrIgnore subject row =
      if (store.credentials.get? subject).isSome then store else store.write subject row := by
  have noHash : ¬ (store.credentials.entries.any fun entry => entry.2.tokenHash = row.tokenHash) = true := by
    intro taken
    obtain ⟨entry, member, hash⟩ := List.any_eq_true.mp taken
    exact unused entry.1 entry.2 (OrderedMap.get?_eq_some.mpr member)
      ((decide_eq_true_eq.mp hash).trans same)
  simp only [CredentialStore.insertOrIgnore, noHash, Bool.false_eq_true, or_false]
  rfl

end Rows

section Calls

variable {sha256Hex : String → String} {env : AuthEnv} {randomTokens : Nat → String}
  {calls : Nat → CredentialCall} {initial : CredentialStore} {tokens : TokenStore} {subject : Subject}
  {token : String} {call : Nat}

/-- The row is the one of a token that can be presented. -/
def Good (sha256Hex : String → String) (store : CredentialStore) (subject : Subject) (token : String) : Prop :=
  Holds sha256Hex store subject token ∧ trim token = token ∧ token ≠ ""

structure SoundTokens (sha256Hex : String → String) (initial : CredentialStore) (tokens : TokenStore) : Prop where
  targets : tokens.store.targets = initial.targets
  latencyAgents : tokens.store.latencyAgents = initial.latencyAgents
  unique : UniqueHashes tokens.store
  stored : PlainTokens tokens.store
  promised : ∀ subject, ∀ token ∈ tokens.promised subject, Good sha256Hex tokens.store subject token

def PhaseGood (sha256Hex : String → String) (randomTokens : Nat → String) (call : Nat) (tokens : TokenStore) :
    CredentialPhase → Prop
  | .waiting | .creating _ | .updating _ | .inserting _ =>
      Unused sha256Hex tokens.store (randomTokens call)
  | .migrating subject token | .holding subject token =>
      call ∈ tokens.held subject ∧ Good sha256Hex tokens.store subject token
  | .rereading _ | .finished => True

/-- A rotation changes a row only while no other call has a token of the subject in hand or has
returned one since the rotation started, and it inserts a row only where there is none. -/
def Undisturbed (_ : Nat) (tokens : TokenStore) (phase : CredentialPhase) (_ : Unit) : Prop :=
  match phase with
  | .updating subject => (tokens.store.credentials.get? subject).isSome = true →
      tokens.held subject = [] ∧ tokens.promised subject = []
  | .inserting subject => tokens.store.credentials.get? subject = none
  | _ => True

instance (call : Nat) (tokens : TokenStore) :
    (phase : CredentialPhase) → (input : Unit) → Decidable (Undisturbed call tokens phase input)
  | .updating _, _ => inferInstanceAs (Decidable (_ → _ ∧ _))
  | .inserting _, _ => inferInstanceAs (Decidable (_ = _))
  | .waiting, _ | .creating _, _ | .rereading _, _ | .migrating _ _, _ | .holding _ _, _ | .finished, _ =>
      .isTrue trivial

theorem Good.write_of_ne {store : CredentialStore} {other : Subject} {row : Credential}
    (good : Good sha256Hex store other token) (apart : other ≠ subject) :
    Good sha256Hex (store.write subject row) other token :=
  ⟨good.1.write_of_ne apart, good.2⟩

theorem Good.isSome {store : CredentialStore} (good : Good sha256Hex store subject token) :
    (store.credentials.get? subject).isSome = true := by
  obtain ⟨⟨row, found, -⟩, -⟩ := good
  rw [found]
  rfl

/-- A token that is read from a row can be presented, and its row is that row. -/
theorem good_of_decrypted (stored : PlainTokens tokens.store) {row : Credential} {needsMigration : Bool}
    (found : tokens.store.credentials.get? subject = some row)
    (decrypted : decryptCredentialValue sha256Hex env subject row = some (token, needsMigration)) :
    Good sha256Hex tokens.store subject token := by
  unfold decryptCredentialValue at decrypted
  split at decrypted
  next material owner plain envelope =>
    split at decrypted
    next all =>
      cases decrypted
      exact ⟨⟨row, found, all.2.2.symm⟩, stored subject row material owner token found envelope⟩
    · cases decrypted
  · cases decrypted
  · cases decrypted

/-- What a step of a call keeps for the store and for all other calls. -/
def Passes (sha256Hex : String → String) (randomTokens : Nat → String) (initial : CredentialStore) (call : Nat)
    (tokens later : TokenStore) : Prop :=
  SoundTokens sha256Hex initial later ∧ ∀ other, other ≠ call → ∀ phase,
    PhaseGood sha256Hex randomTokens other tokens phase → PhaseGood sha256Hex randomTokens other later phase

theorem Passes.trans {middle later : TokenStore}
    (first : Passes sha256Hex randomTokens initial call tokens middle)
    (second : Passes sha256Hex randomTokens initial call middle later) :
    Passes sha256Hex randomTokens initial call tokens later :=
  ⟨second.1, fun other apart phase good => second.2 other apart phase (first.2 other apart phase good)⟩

theorem passes_refl (sound : SoundTokens sha256Hex initial tokens) :
    Passes sha256Hex randomTokens initial call tokens tokens := ⟨sound, fun _ _ _ => id⟩

/-- Steps that leave the store alone and take no token out of another call's hands. -/
theorem passes_of_store (sound : SoundTokens sha256Hex initial tokens) {later : TokenStore}
    (store : later.store = tokens.store)
    (promised : ∀ subject, ∀ token ∈ later.promised subject, Good sha256Hex tokens.store subject token)
    (held : ∀ other, other ≠ call → ∀ subject, other ∈ tokens.held subject → other ∈ later.held subject) :
    Passes sha256Hex randomTokens initial call tokens later := by
  refine ⟨⟨?_, ?_, ?_, ?_, ?_⟩, fun other apart phase good => ?_⟩
  · rw [store]
    exact sound.targets
  · rw [store]
    exact sound.latencyAgents
  · rw [store]
    exact sound.unique
  · rw [store]
    exact sound.stored
  · rw [store]
    exact promised
  · cases phase with
    | waiting | creating | updating | inserting =>
        simp only [PhaseGood, store] at good ⊢
        exact good
    | migrating subject token | holding subject token =>
        simp only [PhaseGood, store] at good ⊢
        exact ⟨held other apart subject good.1, good.2⟩
    | rereading | finished => trivial

theorem passes_hold (sound : SoundTokens sha256Hex initial tokens) (subject : Subject) :
    Passes sha256Hex randomTokens initial call tokens (tokens.hold subject call) := by
  refine passes_of_store sound rfl sound.promised fun other _ owner member => ?_
  by_cases same : owner = subject
  · subst same
    simp [TokenStore.hold, member]
  · simp [TokenStore.hold, same, member]

theorem mem_hold (tokens : TokenStore) (subject : Subject) (call : Nat) :
    call ∈ (tokens.hold subject call).held subject := by
  simp [TokenStore.hold]

theorem passes_answer (sound : SoundTokens sha256Hex initial tokens)
    (good : Good sha256Hex tokens.store subject token) :
    Passes sha256Hex randomTokens initial call tokens (tokens.answer subject call token) := by
  refine passes_of_store sound rfl (fun owner given member => ?_) fun other apart owner member => ?_
  · by_cases same : owner = subject
    · subst same
      simp only [TokenStore.answer, Function.update_self, List.mem_append, List.mem_singleton] at member
      rcases member with before | rfl
      · exact sound.promised owner given before
      · exact good
    · simp only [TokenStore.answer, Function.update_of_ne same] at member
      exact sound.promised owner given member
  · by_cases same : owner = subject
    · subst same
      simpa [TokenStore.answer] using (List.mem_erase_of_ne apart).mpr member
    · simpa [TokenStore.answer, same] using member

theorem passes_restart (sound : SoundTokens sha256Hex initial tokens) (subject : Subject) :
    Passes sha256Hex randomTokens initial call tokens
      { tokens with promised := Function.update tokens.promised subject [] } := by
  refine passes_of_store sound rfl (fun owner given member => ?_) fun _ _ _ => id
  by_cases same : owner = subject
  · subst same
    simp at member
  · simp only [Function.update_of_ne same] at member
    exact sound.promised owner given member

/-- A call stores its own token while no token of the subject is in other hands. -/
theorem passes_write (fresh : FreshCredentials sha256Hex randomTokens initial) (ideal : IdealHash sha256Hex)
    (sound : SoundTokens sha256Hex initial tokens) (unused : Unused sha256Hex tokens.store (randomTokens call))
    (inHand : ∀ other ∈ tokens.held subject, ∀ token, ¬ Good sha256Hex tokens.store subject token)
    (given : tokens.promised subject = []) :
    Passes sha256Hex randomTokens initial call tokens
        { tokens with
          store := tokens.store.write subject (newCredential sha256Hex env subject (randomTokens call)) } := by
  refine ⟨⟨sound.targets, sound.latencyAgents, ?_, ?_, ?_⟩, fun other apart phase good => ?_⟩
  · exact sound.unique.write fun owner found _ there => unused owner found there
  · refine sound.stored.write fun material owner plain envelope => ?_
    cases envelope
    exact fresh.plain call
  · intro owner token member
    by_cases same : owner = subject
    · subst same
      rw [given] at member
      cases member
    · exact (sound.promised owner token member).write_of_ne same
  · cases phase with
    | waiting | creating | updating | inserting =>
        exact good.write fun same => apart (fresh.injective (ideal.injective same)).symm
    | migrating owner token | holding owner token =>
        refine ⟨good.1, ?_⟩
        by_cases same : owner = subject
        · subst same
          exact absurd good.2 (inHand other good.1 token)
        · exact good.2.write_of_ne same
    | rereading | finished => trivial

/-- A new envelope for a token that is the row's own, or was when it was read. -/
theorem passes_migrate (sound : SoundTokens sha256Hex initial tokens)
    (good : Good sha256Hex tokens.store subject token) :
    Passes sha256Hex randomTokens initial call tokens (migrate env tokens subject token) ∧
      Good sha256Hex (migrate env tokens subject token).store subject token := by
  obtain ⟨⟨row, found, hash⟩, plain⟩ := good
  have keeps : ∀ owner given, Good sha256Hex tokens.store owner given →
      Good sha256Hex (tokens.store.write subject
        { row with ciphertext := .sealed env.primary subject token }) owner given := by
    rintro owner given ⟨⟨other, there, same⟩, shape⟩
    by_cases own : owner = subject
    · subst own
      cases found.symm.trans there
      exact ⟨holds_write_self same, shape⟩
    · exact ⟨Holds.write_of_ne ⟨other, there, same⟩ own, shape⟩
  have wrote : migrate env tokens subject token =
      { tokens with
        store := tokens.store.write subject { row with ciphertext := .sealed env.primary subject token } } := by
    rw [migrate, found]
    rfl
  rw [wrote]
  refine ⟨⟨⟨sound.targets, sound.latencyAgents, ?_, ?_, ?_⟩, fun other _ phase good => ?_⟩,
    keeps subject token ⟨⟨row, found, hash⟩, plain⟩⟩
  · exact sound.unique.write fun owner other apart there same =>
      apart (sound.unique owner subject other row there found same)
  · refine sound.stored.write fun material owner given envelope => ?_
    cases envelope
    exact plain
  · exact fun owner given member => keeps owner given (sound.promised owner given member)
  · cases phase with
    | waiting | creating | updating | inserting =>
        exact good.write (good subject row found)
    | migrating owner given | holding owner given => exact ⟨good.1, keeps owner given good.2⟩
    | rereading | finished => trivial

/-- What a step has to give: nothing is lost for the others, and the call can go on. -/
def Goes (sha256Hex : String → String) (randomTokens : Nat → String) (initial : CredentialStore) (call : Nat)
    (tokens : TokenStore) (next : TokenStore × CredentialPhase) : Prop :=
  Passes sha256Hex randomTokens initial call tokens next.1 ∧
    PhaseGood sha256Hex randomTokens call next.1 next.2

theorem goes_afterRead (sound : SoundTokens sha256Hex initial tokens) {row : Credential}
    (found : tokens.store.credentials.get? subject = some row) :
    Goes sha256Hex randomTokens initial call tokens (afterRead sha256Hex env call tokens subject row) := by
  unfold afterRead
  split
  · exact ⟨passes_refl sound, trivial⟩
  next token needsMigration decrypted =>
    have good := good_of_decrypted sound.stored found decrypted
    refine ⟨passes_hold sound subject, ?_⟩
    dsimp only
    split
    · exact ⟨mem_hold tokens subject call, good⟩
    · exact ⟨mem_hold tokens subject call, good⟩

theorem goes_create (unconfigured : env.configured = "") (sound : SoundTokens sha256Hex initial tokens)
    (unused : Unused sha256Hex tokens.store (randomTokens call)) (subject : Subject) :
    Goes sha256Hex randomTokens initial call tokens (create sha256Hex env call tokens subject) := by
  simp only [create, legacyScopedToken_unconfigured unconfigured, ne_eq, not_true_eq_false, if_false]
  split
  · exact ⟨passes_refl sound, trivial⟩
  · exact ⟨passes_refl sound, unused⟩

theorem goes_startCall (unconfigured : env.configured = "") (sound : SoundTokens sha256Hex initial tokens)
    (unused : Unused sha256Hex tokens.store (randomTokens call)) (operation : CredentialCall) :
    Goes sha256Hex randomTokens initial call tokens (startCall sha256Hex env call tokens operation) := by
  cases operation with
  | getOrCreateAgentToken type subjectId =>
      simp only [startCall]
      split
      · exact ⟨passes_refl sound, trivial⟩
      split
      · exact goes_create unconfigured sound unused _
      next row found =>
        split
        · exact goes_afterRead sound found
        · exact goes_create unconfigured sound unused _
  | rotateAgentCredential type subjectId =>
      simp only [startCall]
      split
      · exact ⟨passes_refl sound, trivial⟩
      split
      · exact ⟨passes_refl sound, trivial⟩
      · exact ⟨passes_restart sound _, unused⟩

theorem not_good_of_none (nothing : tokens.store.credentials.get? subject = none) (token : String) :
    ¬ Good sha256Hex tokens.store subject token := by
  intro good
  have there := good.isSome
  rw [nothing] at there
  cases there

theorem promised_eq_nil (sound : SoundTokens sha256Hex initial tokens)
    (nothing : tokens.store.credentials.get? subject = none) : tokens.promised subject = [] := by
  cases given : tokens.promised subject with
  | nil => rfl
  | cons token rest =>
      exact absurd (sound.promised subject token (by simp [given])) (not_good_of_none nothing token)

theorem passes_insert (fresh : FreshCredentials sha256Hex randomTokens initial) (ideal : IdealHash sha256Hex)
    (sound : SoundTokens sha256Hex initial tokens) (unused : Unused sha256Hex tokens.store (randomTokens call))
    (subject : Subject) :
    Passes sha256Hex randomTokens initial call tokens
      { tokens with
        store := tokens.store.insertOrIgnore subject
          (newCredential sha256Hex env subject (randomTokens call)) } := by
  rw [insertOrIgnore_eq unused rfl]
  split
  · exact passes_refl sound
  next absent =>
    have nothing := Option.not_isSome_iff_eq_none.mp absent
    exact passes_write fresh ideal sound unused (fun _ _ => not_good_of_none nothing)
      (promised_eq_nil sound nothing)

/-- The token that a rotation has just written is in its hands. -/
theorem goes_rotated (fresh : FreshCredentials sha256Hex randomTokens initial) {later : TokenStore}
    (passes : Passes sha256Hex randomTokens initial call tokens later)
    (wrote : Holds sha256Hex later.store subject (randomTokens call)) :
    Goes sha256Hex randomTokens initial call tokens
      (later.hold subject call, .holding subject (randomTokens call)) :=
  ⟨passes.trans (passes_hold passes.1 subject), mem_hold later subject call, wrote, fresh.plain call⟩

theorem goes_update (fresh : FreshCredentials sha256Hex randomTokens initial) (ideal : IdealHash sha256Hex)
    (sound : SoundTokens sha256Hex initial tokens) (unused : Unused sha256Hex tokens.store (randomTokens call))
    (alone : (tokens.store.credentials.get? subject).isSome = true →
      tokens.held subject = [] ∧ tokens.promised subject = []) :
    Goes sha256Hex randomTokens initial call tokens
      (update sha256Hex env call (randomTokens call) tokens subject) := by
  simp only [update]
  split
  · exact ⟨passes_refl sound, unused⟩
  next there =>
    split
    · exact ⟨passes_refl sound, trivial⟩
    · rw [Option.isNone_iff_eq_none, ← ne_eq, ← Option.isSome_iff_ne_none] at there
      obtain ⟨inHand, given⟩ := alone there
      have passes : Passes sha256Hex randomTokens initial call tokens
          { tokens with
            store := tokens.store.write subject (newCredential sha256Hex env subject (randomTokens call)) } :=
        passes_write fresh ideal sound unused (by simp [inHand]) given
      exact goes_rotated fresh passes (holds_write_self rfl)

theorem goes_act (fresh : FreshCredentials sha256Hex randomTokens initial) (ideal : IdealHash sha256Hex)
    (unconfigured : env.configured = "") (sound : SoundTokens sha256Hex initial tokens)
    (phase : CredentialPhase) (good : PhaseGood sha256Hex randomTokens call tokens phase) (input : Unit)
    (alone : Undisturbed call tokens phase input) :
    Goes sha256Hex randomTokens initial call tokens
      (credentialAct sha256Hex env randomTokens calls call tokens phase input) := by
  cases phase with
  | waiting => exact goes_startCall unconfigured sound good _
  | creating subject => exact ⟨passes_insert fresh ideal sound good subject, trivial⟩
  | rereading subject =>
      simp only [credentialAct]
      split
      · exact ⟨passes_refl sound, trivial⟩
      next row found => exact goes_afterRead sound found
  | migrating subject token =>
      have migrated : Passes sha256Hex randomTokens initial call tokens (migrate env tokens subject token) ∧
          Good sha256Hex (migrate env tokens subject token).store subject token :=
        passes_migrate sound good.2
      refine ⟨migrated.1, ?_, migrated.2⟩
      simp only [credentialAct, migrate]
      split
      · exact good.1
      · exact good.1
  | updating subject => exact goes_update fresh ideal sound good alone
  | inserting subject =>
      have passes : Passes sha256Hex randomTokens initial call tokens
          { tokens with
            store := tokens.store.insertOrIgnore subject
              (newCredential sha256Hex env subject (randomTokens call)) } :=
        passes_insert fresh ideal sound good subject
      refine goes_rotated fresh passes ?_
      rw [insertOrIgnore_eq good rfl, if_neg (by simp [show tokens.store.credentials.get? subject = none from alone])]
      exact holds_write_self rfl
  | holding subject token => exact ⟨passes_answer sound good.2, trivial⟩
  | finished => exact ⟨passes_refl sound, trivial⟩

theorem keeps_tokens (fresh : FreshCredentials sha256Hex randomTokens initial) (ideal : IdealHash sha256Hex)
    (unconfigured : env.configured = "") :
    Keeps (credentialAct sha256Hex env randomTokens calls) Undisturbed (SoundTokens sha256Hex initial)
      (PhaseGood sha256Hex randomTokens) where
  shared _ _ phase input sound good alone :=
    (goes_act fresh ideal unconfigured sound phase good input alone).1.1
  self _ _ phase input sound good alone :=
    (goes_act fresh ideal unconfigured sound phase good input alone).2
  others _ _ phase input sound good alone :=
    (goes_act fresh ideal unconfigured sound phase good input alone).1.2

end Calls

section Runs

variable (sha256Hex : String → String) (env : AuthEnv) (randomTokens : Nat → String)
  (calls : Nat → CredentialCall)

/-- No call has started. -/
def tokenPool (initial : CredentialStore) : Pool TokenStore CredentialPhase :=
  ⟨⟨initial, fun _ => [], fun _ => []⟩, fun _ => .waiting⟩

/-- The pool after some statements. -/
def tokensAfter (initial : CredentialStore) (events : List (Nat × Unit)) : Pool TokenStore CredentialPhase :=
  Runs.run (Processes.step (credentialAct sha256Hex env randomTokens calls)) (tokenPool initial) events

/-- Each store that a request meets is one of the run, and the token was returned by then and no later
rotation of the subject had started. -/
def Meets (initial : CredentialStore) (events : List (Nat × Unit)) (subject : Subject) (token : String)
    (stores : Nat → CredentialStore) : Prop :=
  ∀ n, ∃ before, before <+: events ∧
    token ∈ (tokensAfter sha256Hex env randomTokens calls initial before).shared.promised subject ∧
    stores n = (tokensAfter sha256Hex env randomTokens calls initial before).shared.store

/-- What the calls promise: a token that was returned authenticates its subject, and no other does. -/
def Honoured (initial : CredentialStore) (events : List (Nat × Unit)) : Prop :=
  ∀ subject : Subject, subject.Canonical → Enabled initial subject → ∀ token stores,
    Meets sha256Hex env randomTokens calls initial events subject token stores →
      ∀ cached, Cached sha256Hex env cached →
        Authenticates sha256Hex env cached stores subject token ∧
          ∀ presented, presented ≠ "" → trim presented ≠ token → presented ≠ env.configured →
            Rejected sha256Hex env cached stores subject presented

variable {sha256Hex env randomTokens calls}

theorem sound_tokensAfter {initial : CredentialStore} (fresh : FreshCredentials sha256Hex randomTokens initial)
    (ideal : IdealHash sha256Hex) (unconfigured : env.configured = "") {events : List (Nat × Unit)}
    (along : Runs.Along (Processes.step (credentialAct sha256Hex env randomTokens calls)) (Allowed Undisturbed)
      (tokenPool initial) events) :
    SoundTokens sha256Hex initial (tokensAfter sha256Hex env randomTokens calls initial events).shared := by
  have start : Invariant (SoundTokens sha256Hex initial) (PhaseGood sha256Hex randomTokens)
      (tokenPool initial) := by
    refine ⟨⟨rfl, rfl, fresh.unique, fresh.stored, ?_⟩, fresh.unused⟩
    simp [tokenPool]
  exact (run_invariant (keeps_tokens fresh ideal unconfigured) start along).shared

/-- In every order of the statements, where no `AGENT_TOKEN` is configured. -/
theorem rotated_token_alone {initial : CredentialStore} (ideal : IdealHash sha256Hex)
    (fresh : FreshCredentials sha256Hex randomTokens initial) (unconfigured : env.configured = "")
    (events : List (Nat × Unit))
    (along : Runs.Along (Processes.step (credentialAct sha256Hex env randomTokens calls)) (Allowed Undisturbed)
      (tokenPool initial) events) :
    Honoured sha256Hex env randomTokens calls initial events := by
  intro subject canonical enabled token stores meets cached fill
  have good (n : Nat) : Good sha256Hex (stores n) subject token ∧ UniqueHashes (stores n) ∧
      Enabled (stores n) subject := by
    obtain ⟨before, ⟨rest, rfl⟩, given, same⟩ := meets n
    have sound := sound_tokensAfter fresh ideal unconfigured (Runs.along_append.mp along).1
    rw [same]
    refine ⟨sound.promised subject token given, sound.unique, ?_⟩
    simp only [Enabled, sound.targets, sound.latencyAgents]
    exact enabled
  have view : View sha256Hex stores subject token :=
    ⟨fun n => (good n).1.1, fun n => (good n).2.1, fun n => (good n).2.2⟩
  obtain ⟨-, plain, some_⟩ := (good 0).1
  exact ⟨authenticates_of_view ideal unconfigured view some_ plain canonical, fun presented shown other _ =>
    rejected_of_view ideal unconfigured fill view some_ canonical shown other⟩

end Runs

/-! A rotation of a target that has no row yet. -/

def tagged (text : String) : String := "sha:" ++ text

def drawn (call : Nat) : String := String.ofList (List.replicate (call + 1) 'f')

def frontendOnly : CredentialStore := ⟨.empty, [⟨"frontend", true⟩], []⟩

def rotations (_ : Nat) : CredentialCall := .rotateAgentCredential .agent "frontend"

theorem ideal_tagged : IdealHash tagged := by
  refine ⟨fun first second same => ?_, fun text empty => ?_⟩
  · have chars := congrArg String.toList same
    simp only [tagged, String.toList_append] at chars
    exact String.toList_injective (List.append_cancel_left chars)
  · have chars := congrArg String.toList empty
    simp [tagged] at chars

theorem trim_drawn (call : Nat) : trim (drawn call) = drawn call := by
  have solid : isSpace 'f' = false := by decide
  simp only [trim, drawn, String.toList_ofList, trimChars]
  rw [List.replicate_succ, List.dropWhile_cons_of_neg (by simp [solid]), ← List.replicate_succ,
    List.reverse_replicate, List.replicate_succ, List.dropWhile_cons_of_neg (by simp [solid]),
    ← List.replicate_succ, List.reverse_replicate]

theorem fresh_drawn : FreshCredentials tagged drawn frontendOnly where
  injective first second same := by simpa [drawn] using congrArg (fun text => text.toList.length) same
  plain call := ⟨trim_drawn call, by simp [drawn]⟩
  unused _ _ _ found := by cases found
  unique _ _ _ _ found := by cases found
  stored _ _ _ _ _ found := by cases found

theorem rotated_token_alone_frontend :
    Honoured tagged { totpEncryptionKey := "long-lived" } drawn rotations frontendOnly
      (List.replicate 4 (0, ())) :=
  rotated_token_alone ideal_tagged fresh_drawn (by decide +kernel) _ (by decide +kernel)

/-- With an `AGENT_TOKEN` the token that is derived from it still authenticates the subject. -/
theorem derived_token_survives :
    ¬ Honoured tagged { agentToken := "master", totpEncryptionKey := "long-lived" } drawn rotations frontendOnly
      (List.replicate 4 (0, ())) := by
  intro honoured
  have rejected := honoured ⟨.agent, "frontend"⟩ ⟨by decide +kernel, by decide +kernel, by decide +kernel⟩
    ⟨⟨"frontend", true⟩, by decide +kernel, rfl, by decide +kernel⟩ (drawn 0)
    (fun _ => (tokensAfter tagged { agentToken := "master", totpEncryptionKey := "long-lived" } drawn rotations
      frontendOnly (List.replicate 4 (0, ()))).shared.store)
    (fun _ => ⟨_, List.prefix_rfl, by decide +kernel, rfl⟩) none nofun
  have accepted := (rejected.2 "nst_sha:master:frontend" (by decide +kernel) (by decide +kernel)
    (by decide +kernel)).1 "frontend" (by decide +kernel) "frontend"
  exact accepted.1 (by decide +kernel)

end NieSla.Auth
