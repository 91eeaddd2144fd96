import NieSla.Auth.Rotation

/-! A rotated token stops authenticating, where no `AGENT_TOKEN` is configured and each rotation
writes while no other call on its subject has a token in hand. -/
namespace NieSla.Auth

open Processes

/-- SHA-256 taken as ideal. -/
structure IdealHash (sha256Hex : String → String) : Prop where
  injective : Function.Injective sha256Hex
  nonempty : ∀ text, sha256Hex text ≠ ""

/-- The row of the subject is the one of the token. -/
def Holds (sha256Hex : String → String) (store : CredentialStore) (subject : Subject) (token : String) :
    Prop :=
  ∃ row, store.credentials.get? subject = some row ∧ row.tokenHash = sha256Hex token

def UniqueHashes (store : CredentialStore) : Prop :=
  ∀ subject other row otherRow, store.credentials.get? subject = some row →
    store.credentials.get? other = some otherRow → row.tokenHash = otherRow.tokenHash → subject = other

/-- An enabled row answers to the subject. -/
def Enabled (store : CredentialStore) (subject : Subject) : Prop :=
  match subject.type with
  | .agent => ∃ row ∈ store.targets, row.enabled = true ∧ sanitizeAgentId row.id = subject.id
  | .latency => ∃ row ∈ store.latencyAgents, row.enabled = true ∧ row.id = subject.id

/-- What the code makes of the id is the id again. -/
structure Subject.Canonical (subject : Subject) : Prop where
  sanitized : sanitizeAgentId subject.id = subject.id
  trimmed : trim subject.id = subject.id
  nonempty : subject.id ≠ ""

section Statements

variable {sha256Hex : String → String} {env : AuthEnv} {store : CredentialStore} {subject : Subject}
  {token presented : String}

theorem normalizeSubject_of_eq {id : String} (same : sanitizeAgentId id = subject.id)
    (named : subject.id ≠ "") : normalizeSubject subject.type id = .ok subject := by
  rw [normalizeSubject, same, if_neg named]

theorem any_hash_iff (ideal : IdealHash sha256Hex) (holds : Holds sha256Hex store subject token)
    (some_ : token ≠ "") :
    (presented ≠ "" ∧ ((store.credentials.get? subject).any fun row =>
      decide (row.tokenHash ≠ "" ∧ sha256Hex presented = row.tokenHash)) = true) ↔ presented = token := by
  obtain ⟨row, found, hash⟩ := holds
  rw [found, Option.any_some, decide_eq_true_eq, hash, ideal.injective.eq_iff]
  constructor
  · exact fun all => all.2.2
  · rintro rfl
    exact ⟨some_, ideal.nonempty _, rfl⟩

theorem verifyAgentCredential_of_holds (ideal : IdealHash sha256Hex)
    (holds : Holds sha256Hex store subject token) (some_ : token ≠ "") (named : subject.id ≠ "")
    {id : String} (same : sanitizeAgentId id = subject.id) (presented : String) :
    verifyAgentCredential sha256Hex store subject.type id presented =
      .ok (decide (trim presented = token)) := by
  simp only [verifyAgentCredential, normalizeSubject_of_eq same named]
  refine congrArg Except.ok (decide_eq_decide.mpr ?_)
  exact any_hash_iff ideal holds some_

theorem verifyEnabledAgentCredential_of_holds (ideal : IdealHash sha256Hex)
    (holds : Holds sha256Hex store subject token) (some_ : token ≠ "") (named : subject.id ≠ "")
    {id : String} (same : sanitizeAgentId id = subject.id) (presented : String) :
    verifyEnabledAgentCredential sha256Hex store subject.type id presented =
      .ok (decide (trim presented = token ∧ (store.enabledRow subject.type subject.id).isSome = true)) := by
  simp only [verifyEnabledAgentCredential, normalizeSubject_of_eq same named]
  refine congrArg Except.ok (decide_eq_decide.mpr ?_)
  rw [and_left_comm, any_hash_iff ideal holds some_, and_comm]

/-- The row with a hash, by the unique index. -/
theorem credentialOf_of_holds (unique : UniqueHashes store) (holds : Holds sha256Hex store subject token) :
    ∃ row, store.credentialOf subject.type (sha256Hex token) = some (subject, row) ∧
      row.tokenHash = sha256Hex token := by
  obtain ⟨row, found, hash⟩ := holds
  have member := OrderedMap.get?_eq_some.mp found
  obtain ⟨⟨other, otherRow⟩, there⟩ : ∃ entry, store.credentialOf subject.type (sha256Hex token) = some entry :=
    Option.isSome_iff_exists.mp (List.find?_isSome.mpr ⟨(subject, row), member, by simp [hash]⟩)
  have both := List.find?_some there
  have otherFound := OrderedMap.get?_eq_some.mpr (List.mem_of_find?_eq_some there)
  simp only [decide_eq_true_eq] at both
  cases unique subject other row otherRow found otherFound (hash.trans both.2.symm)
  exact ⟨otherRow, there, both.2⟩

theorem findCredential_of_holds (ideal : IdealHash sha256Hex) (unique : UniqueHashes store)
    (holds : Holds sha256Hex store subject token) (some_ : token ≠ "") (named : subject.id ≠ "")
    (same : trim presented = token) :
    findCredential sha256Hex store subject.type presented = some subject.id := by
  obtain ⟨row, found, hash⟩ := credentialOf_of_holds unique holds
  rw [findCredential, same, if_neg some_, found]
  simp [named, hash, ideal.nonempty]

theorem findCredential_ne (ideal : IdealHash sha256Hex) (holds : Holds sha256Hex store subject token)
    (other : trim presented ≠ token) :
    findCredential sha256Hex store subject.type presented ≠ some subject.id := by
  intro found
  obtain ⟨row, there, hash⟩ := holds
  simp only [findCredential] at found
  split at found
  · cases found
  · obtain ⟨⟨owner, ownerRow⟩, member, same⟩ := Option.bind_eq_some_iff.mp found
    have both := List.find?_some member
    simp only [decide_eq_true_eq] at both
    split at same
    · have owned : owner = subject := by
        cases owner
        cases subject
        simp_all
      subst owned
      cases there.symm.trans (OrderedMap.get?_eq_some.mpr (List.mem_of_find?_eq_some member))
      exact other (ideal.injective (both.2.symm.trans hash))
    · cases same

theorem legacyScopedToken_unconfigured (unconfigured : env.configured = "") (type : SubjectType)
    (id : String) : legacyScopedToken sha256Hex env type id = .ok "" := if_pos unconfigured

theorem agentScopedToken_unconfigured (unconfigured : env.configured = "") (id : String) :
    agentScopedToken sha256Hex env id = .ok "" := by
  simp only [agentScopedToken]
  split
  · rfl
  · exact legacyScopedToken_unconfigured unconfigured _ _

theorem scopedTokenEntries_unconfigured (unconfigured : env.configured = "") (store : CredentialStore) :
    scopedTokenEntries sha256Hex env store = .ok [] := by
  have every (rows : List NodeRow) :
      (rows.mapM fun row => do
        let token ← agentScopedToken sha256Hex env row.id
        return (row.id, token)) = Except.ok (rows.map fun row => (row.id, "")) := by
    induction rows with
    | nil => rfl
    | cons row rest ih =>
        rw [List.mapM_cons, ih, agentScopedToken_unconfigured unconfigured]
        rfl
  rw [scopedTokenEntries, every]
  refine congrArg Except.ok (List.filter_eq_nil_iff.mpr ?_)
  intro entry member
  obtain ⟨row, -, rfl⟩ := List.mem_map.mp member
  simp

theorem matchLatency_unconfigured (unconfigured : env.configured = "") (presented : String)
    (rows : List NodeRow) : matchLatency sha256Hex env presented rows = .error unauthorized := by
  induction rows with
  | nil => rfl
  | cons row rest ih =>
      rw [matchLatency, latencyAgentScopedToken, legacyScopedToken_unconfigured unconfigured]
      exact ih

end Statements

/-! Requests while the row is the one of a token. -/

/-- In all the stores that a request meets, the subject is enabled and its row is the one of the
token. -/
structure View (sha256Hex : String → String) (stores : Nat → CredentialStore) (subject : Subject)
    (token : String) : Prop where
  holds : ∀ n, Holds sha256Hex (stores n) subject token
  unique : ∀ n, UniqueHashes (stores n)
  enabled : ∀ n, Enabled (stores n) subject

section Requests

variable {sha256Hex : String → String} {env : AuthEnv} {stores : Nat → CredentialStore}
  {token presented id : String}

theorem findEnabledAgentTarget_isSome (enabled : ∀ n, Enabled (stores n) ⟨.agent, id⟩) (named : id ≠ "")
    {agentId : String} (same : sanitizeAgentId (trim agentId) = id) :
    (findEnabledAgentTarget stores agentId).isSome = true := by
  obtain ⟨row, member, on, sanitized⟩ := enabled 2
  have last : ((stores 2).targets.find? fun row => row.enabled ∧ sanitizeAgentId row.id = id).isSome = true :=
    List.find?_isSome.mpr ⟨row, member, by simp [on, sanitized]⟩
  simp only [findEnabledAgentTarget, same, if_neg named, Option.isSome_or, last, Bool.or_true]

theorem enabledRow_isSome {store : CredentialStore} (enabled : Enabled store ⟨.latency, id⟩) :
    (store.enabledRow .latency id).isSome = true := by
  obtain ⟨row, member, on, same⟩ := enabled
  exact List.find?_isSome.mpr ⟨row, member, by simp [on, same]⟩

theorem ne_empty_of_sanitize {text : String} (same : sanitizeAgentId text = id) (named : id ≠ "") : text ≠ "" := by
  rintro rfl
  exact named (same.symm.trans (by decide))

/-- Without a configured token a request by id compares the token with the row. -/
theorem requireAgentForId_of_view (ideal : IdealHash sha256Hex) (unconfigured : env.configured = "")
    (view : View sha256Hex stores ⟨.agent, id⟩ token) (some_ : token ≠ "") (named : id ≠ "")
    {agentId : String} (same : sanitizeAgentId (trim agentId) = id) (shown : presented ≠ "") :
    requireAgentForId sha256Hex env stores agentId presented =
      if trim presented = token then .ok (.scoped (trim agentId)) else .error unauthorized := by
  have first : verifyEnabledAgentCredential sha256Hex (stores 0) .agent (trim agentId) presented = _ :=
    verifyEnabledAgentCredential_of_holds ideal (view.holds 0) some_ named same presented
  have second : verifyAgentCredential sha256Hex (stores 4) .agent (trim agentId) presented = _ :=
    verifyAgentCredential_of_holds ideal (view.holds 4) some_ named same presented
  have target : (findEnabledAgentTarget (fun n => stores (1 + n)) (trim agentId)).isNone = false := by
    rw [Option.isNone_eq_false_iff]
    exact findEnabledAgentTarget_isSome (fun n => view.enabled (1 + n)) named ((trim_trim agentId).symm ▸ same)
  have noId : trim agentId ≠ "" := ne_empty_of_sanitize same named
  have noGlobal : ¬ (env.configured ≠ "" ∧ presented = env.configured) := fun both => both.1 unconfigured
  simp only [requireAgentForId, if_neg noId, if_neg shown, if_neg noGlobal, first, second, target,
    agentScopedToken_unconfigured unconfigured]
  by_cases hit : trim presented = token
  · by_cases exact_ : ((stores 0).enabledRow .agent id).isSome = true
    · simp [hit, exact_]
      rfl
    · simp [hit, exact_]
      rfl
  · simp [hit]
    rfl

theorem requireAgentIdentity_of_view (ideal : IdealHash sha256Hex) (unconfigured : env.configured = "")
    (view : View sha256Hex stores ⟨.agent, id⟩ token) (some_ : token ≠ "") (canonical : sanitizeAgentId id = id)
    (named : id ≠ "") {agentId : String} (same : sanitizeAgentId (trim agentId) = id) (shown : presented ≠ "") :
    requireAgentIdentity sha256Hex env stores agentId presented =
      if trim presented = token then .ok (.scoped id) else .error unauthorized := by
  have first : verifyAgentCredential sha256Hex (stores 0) .agent id presented = _ :=
    verifyAgentCredential_of_holds ideal (view.holds 0) some_ named canonical presented
  have noId : ¬ (trim agentId = "" ∨ id = "") := by
    rintro (empty | empty)
    · exact ne_empty_of_sanitize same named empty
    · exact named empty
  have noGlobal : ¬ (env.configured ≠ "" ∧ presented = env.configured) := fun both => both.1 unconfigured
  simp only [requireAgentIdentity, same, if_neg noId, if_neg shown, if_neg noGlobal, first,
    agentScopedToken_unconfigured unconfigured]
  by_cases hit : trim presented = token
  · simp [hit]
    rfl
  · simp [hit]
    rfl

/-- A cached list was made with the same configuration. -/
def Cached (sha256Hex : String → String) (env : AuthEnv) (cached : Option (List (String × String))) : Prop :=
  ∀ entries, cached = some entries → ∃ store, scopedTokenEntries sha256Hex env store = .ok entries

variable {cached : Option (List (String × String))}

theorem requireAnyAgent_of_view (ideal : IdealHash sha256Hex) (unconfigured : env.configured = "")
    (view : View sha256Hex stores ⟨.agent, id⟩ token) (some_ : token ≠ "")
    (canonical : Subject.Canonical ⟨.agent, id⟩) (shown : presented ≠ "") (hit : trim presented = token) :
    requireAnyAgent sha256Hex env cached stores presented = .ok (.scoped id) := by
  have first : findCredential sha256Hex (stores 0) .agent presented = some id :=
    findCredential_of_holds ideal (view.unique 0) (view.holds 0) some_ canonical.nonempty hit
  have target : (findEnabledAgentTarget (fun n => stores (1 + n)) id).isSome = true :=
    findEnabledAgentTarget_isSome (fun n => view.enabled (1 + n)) canonical.nonempty
      (canonical.trimmed.symm ▸ canonical.sanitized)
  have noGlobal : ¬ (env.configured ≠ "" ∧ presented = env.configured) := fun both => both.1 unconfigured
  simp only [requireAnyAgent, if_neg shown, if_neg noGlobal, findEnabledCredential, first, Option.map_some,
    target, if_true, ite_self]

/-- Without a configured token a request without an id is answered from the rows alone. -/
theorem findCredential_of_requireAnyAgent (unconfigured : env.configured = "")
    (fill : Cached sha256Hex env cached)
    (accepted : requireAnyAgent sha256Hex env cached stores presented = .ok (.scoped id)) :
    ∃ n, findCredential sha256Hex (stores n) .agent presented = some id := by
  have fallback : cachedTokenEntries sha256Hex env cached (stores 8) >>= matchScoped presented =
      .error unauthorized := by
    cases cached with
    | none =>
        rw [cachedTokenEntries, scopedTokenEntries_unconfigured unconfigured]
        rfl
    | some entries =>
        obtain ⟨store, made⟩ := fill entries rfl
        rw [scopedTokenEntries_unconfigured unconfigured] at made
        cases made
        rfl
  have noGlobal : ¬ (env.configured ≠ "" ∧ presented = env.configured) := fun both => both.1 unconfigured
  by_cases shown : presented = ""
  · simp only [requireAnyAgent, if_pos shown] at accepted
    cases accepted
  simp only [requireAnyAgent, if_neg shown, if_neg noGlobal, fallback, findEnabledCredential] at accepted
  cases found : findCredential sha256Hex (stores 0) .agent presented with
  | some owner =>
      simp only [found, Option.map_some] at accepted
      refine ⟨0, ?_⟩
      split at accepted
      · cases accepted
        exact found
      · split at accepted
        · cases accepted
          exact found
        · cases accepted
  | none =>
      simp only [found, Option.map_none] at accepted
      split at accepted
      next owner there =>
        split at accepted
        · cases accepted
          exact ⟨4, there⟩
        · cases accepted
      · cases accepted

theorem requireLatencyAgentForId_of_view (ideal : IdealHash sha256Hex) (unconfigured : env.configured = "")
    (view : View sha256Hex stores ⟨.latency, id⟩ token) (some_ : token ≠ "")
    (canonical : sanitizeAgentId id = id) (named : id ≠ "") {nodeId : String}
    (same : sanitizeAgentId nodeId = id) (shown : presented ≠ "") :
    requireLatencyAgentForId sha256Hex env stores nodeId presented =
      if trim presented = token then .ok (.scoped id) else .error unauthorized := by
  have first : verifyEnabledAgentCredential sha256Hex (stores 0) .latency id presented = _ :=
    verifyEnabledAgentCredential_of_holds ideal (view.holds 0) some_ named canonical presented
  have second : verifyAgentCredential sha256Hex (stores 2) .latency id presented = _ :=
    verifyAgentCredential_of_holds ideal (view.holds 2) some_ named canonical presented
  have node : ((stores 1).enabledRow .latency id).isNone = false := by
    rw [Option.isNone_eq_false_iff]
    exact enabledRow_isSome (view.enabled 1)
  have noGlobal : ¬ (env.configured ≠ "" ∧ presented = env.configured) := fun both => both.1 unconfigured
  simp only [requireLatencyAgentForId, same, if_neg named, if_neg shown, if_neg noGlobal, first, second, node,
    latencyAgentScopedToken, legacyScopedToken_unconfigured unconfigured]
  have on : ((stores 0).enabledRow .latency id).isSome = true := enabledRow_isSome (view.enabled 0)
  by_cases hit : trim presented = token
  · simp [hit, on]
    rfl
  · simp [hit]
    rfl

theorem requireAnyLatencyAgent_of_view (ideal : IdealHash sha256Hex) (unconfigured : env.configured = "")
    (view : View sha256Hex stores ⟨.latency, id⟩ token) (some_ : token ≠ "") (named : id ≠ "")
    (shown : presented ≠ "") (hit : trim presented = token) :
    requireAnyLatencyAgent sha256Hex env stores presented = .ok (.scoped id) := by
  have first : findCredential sha256Hex (stores 0) .latency presented = some id :=
    findCredential_of_holds ideal (view.unique 0) (view.holds 0) some_ named hit
  have noGlobal : ¬ (env.configured ≠ "" ∧ presented = env.configured) := fun both => both.1 unconfigured
  simp only [requireAnyLatencyAgent, if_neg shown, if_neg noGlobal, findEnabledCredential, first,
    Option.map_some, enabledRow_isSome (view.enabled 0), if_true]

theorem findCredential_of_requireAnyLatencyAgent (unconfigured : env.configured = "")
    (accepted : requireAnyLatencyAgent sha256Hex env stores presented = .ok (.scoped id)) :
    ∃ n, findCredential sha256Hex (stores n) .latency presented = some id := by
  have noGlobal : ¬ (env.configured ≠ "" ∧ presented = env.configured) := fun both => both.1 unconfigured
  by_cases shown : presented = ""
  · simp only [requireAnyLatencyAgent, if_pos shown] at accepted
    cases accepted
  simp only [requireAnyLatencyAgent, if_neg shown, if_neg noGlobal, matchLatency_unconfigured unconfigured,
    findEnabledCredential] at accepted
  cases found : findCredential sha256Hex (stores 0) .latency presented with
  | some owner =>
      simp only [found, Option.map_some] at accepted
      refine ⟨0, ?_⟩
      split at accepted
      · cases accepted
        exact found
      · split at accepted
        · cases accepted
          exact found
        · cases accepted
  | none =>
      simp only [found, Option.map_none] at accepted
      split at accepted
      next owner there =>
        split at accepted
        · cases accepted
          exact ⟨2, there⟩
        · cases accepted
      · cases accepted

variable {subject : Subject}

theorem authenticates_of_view (ideal : IdealHash sha256Hex) (unconfigured : env.configured = "")
    (view : View sha256Hex stores subject token) (some_ : token ≠ "") (plain : trim token = token)
    (canonical : subject.Canonical) : Authenticates sha256Hex env cached stores subject token := by
  obtain ⟨type, id⟩ := subject
  cases type with
  | agent =>
      refine ⟨fun agentId same => ⟨?_, ?_⟩, requireAnyAgent_of_view ideal unconfigured view some_ canonical some_ plain⟩
      · rw [requireAgentForId_of_view ideal unconfigured view some_ canonical.nonempty same some_, if_pos plain]
      · rw [requireAgentIdentity_of_view ideal unconfigured view some_ canonical.sanitized canonical.nonempty
          same some_, if_pos plain]
  | latency =>
      refine ⟨fun nodeId same => ?_, requireAnyLatencyAgent_of_view ideal unconfigured view some_
        canonical.nonempty some_ plain⟩
      rw [requireLatencyAgentForId_of_view ideal unconfigured view some_ canonical.sanitized canonical.nonempty
        same some_, if_pos plain]

theorem rejected_of_view (ideal : IdealHash sha256Hex) (unconfigured : env.configured = "")
    (fill : Cached sha256Hex env cached) (view : View sha256Hex stores subject token) (some_ : token ≠ "")
    (canonical : subject.Canonical) (shown : presented ≠ "") (other : trim presented ≠ token) :
    Rejected sha256Hex env cached stores subject presented := by
  obtain ⟨type, id⟩ := subject
  cases type with
  | agent =>
      refine ⟨fun agentId same owner => ⟨?_, ?_⟩, fun accepted => ?_⟩
      · rw [requireAgentForId_of_view ideal unconfigured view some_ canonical.nonempty same shown, if_neg other]
        nofun
      · rw [requireAgentIdentity_of_view ideal unconfigured view some_ canonical.sanitized canonical.nonempty
          same shown, if_neg other]
        nofun
      · obtain ⟨n, found⟩ := findCredential_of_requireAnyAgent unconfigured fill accepted
        exact findCredential_ne ideal (view.holds n) other found
  | latency =>
      refine ⟨fun nodeId same owner => ?_, fun accepted => ?_⟩
      · rw [requireLatencyAgentForId_of_view ideal unconfigured view some_ canonical.sanitized canonical.nonempty
          same shown, if_neg other]
        nofun
      · obtain ⟨n, found⟩ := findCredential_of_requireAnyLatencyAgent unconfigured accepted
        exact findCredential_ne ideal (view.holds n) other found

end Requests

end NieSla.Auth
