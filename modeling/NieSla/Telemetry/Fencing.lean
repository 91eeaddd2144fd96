import NieSla.Telemetry.Lifecycle

/-! A deletion fences the reports of the sockets that were opened before it, as long as no operation
writes past a check that a deletion has overtaken. -/
namespace NieSla.Telemetry.Lifecycle

open Processes

/-- The check of the epoch would still let a report pass. -/
def Admits (store : Store) (socket : Socket) : Prop :=
  currentEpoch store.row socket.epoch = some socket.epoch

instance (store : Store) (socket : Socket) : Decidable (Admits store socket) :=
  inferInstanceAs (Decidable (_ = _))

/-- The epoch was given out; once a deletion is marked it lies behind. -/
structure Issued (store : Store) (socket : Socket) : Prop where
  positive : 0 < socket.epoch
  opened : socket.opened ≤ store.deletions
  epoch : ∃ row ∈ store.row, socket.epoch ≤ row.epoch ∧
    (socket.opened < store.deletions → socket.epoch < row.epoch)

/-- What opens an epoch. -/
def opensEpoch : Option Row → Bool
  | some ⟨_, true⟩ | some ⟨0, false⟩ | none => true
  | some ⟨_ + 1, false⟩ => false

section Guard

variable (env : Env)

/-- The state of the group that is written is let pass. -/
def PersistsFenced (group : List SocketReport) (store : Store) (input : StepInput) : Prop :=
  persistThrottled store input.now = false → input.fails = false →
    ∀ next ∈ stateToPersist group, Admits store next.2.socket

/-- The lifecycle row is written over what the operation has read; a state or telemetry is written
while the row still lets its epoch pass; and reports that a drain throws away have one epoch. -/
def Fences (_call : Nat) (store : Store) (phase : Phase) (input : StepInput) : Prop :=
  match phase with
  | .opening read => opensEpoch read = true → store.row = read
  | .marking read => store.row = read
  | .recording socket result epoch previous read =>
      currentEpoch read epoch = some epoch →
        ∀ state ∈ rememberedState socket result previous input.now, Admits store state.socket
  | .checkingGroup group read =>
      ∀ first ∈ group.head?,
        if currentEpoch read first.socket.epoch = none then
          ∀ item ∈ group, item.socket.epoch = first.socket.epoch
        else PersistsFenced group store input
  | .persisted group _ =>
      appends group = true → input.fails = false →
        ∀ item ∈ group, chunkStarts item.report ≠ [] → Admits store item.socket
  | .appended group _ => PersistsFenced group store input
  | _ => True

instance (group : List SocketReport) (store : Store) (input : StepInput) :
    Decidable (PersistsFenced group store input) :=
  inferInstanceAs (Decidable (_ → _ → ∀ next ∈ stateToPersist group, Admits store next.2.socket))

instance (call : Nat) (store : Store) : ∀ phase input, Decidable (Fences call store phase input)
  | .opening read, _ => inferInstanceAs (Decidable (opensEpoch read = true → store.row = read))
  | .marking read, _ => inferInstanceAs (Decidable (store.row = read))
  | .recording socket result epoch previous read, input => inferInstanceAs (Decidable
      (currentEpoch read epoch = some epoch →
        ∀ state ∈ rememberedState socket result previous input.now, Admits store state.socket))
  | .checkingGroup group read, input => inferInstanceAs (Decidable (∀ first ∈ group.head?,
      if currentEpoch read first.socket.epoch = none then
        ∀ item ∈ group, item.socket.epoch = first.socket.epoch
      else PersistsFenced group store input))
  | .persisted group _, input => inferInstanceAs (Decidable
      (appends group = true → input.fails = false →
        ∀ item ∈ group, chunkStarts item.report ≠ [] → Admits store item.socket))
  | .appended group _, input => inferInstanceAs (Decidable (PersistsFenced group store input))
  | .waiting, _ | .accepting _, _ | .checking _ _ _, _ | .processing _ _ _ _ _, _ | .loading _, _
  | .finishing _ _, _ | .marked, _ | .listing _ _, _ | .deleting _, _ | .finished, _ =>
      .isTrue True.intro

end Guard

/-- All that the stores hold was reported on sockets with issued epochs, and what drains have thrown
away was not let pass. -/
structure Sound (store : Store) : Prop where
  sockets : ∀ socket ∈ store.sockets, Issued store socket
  memLatest : ∀ state ∈ store.memLatest, Issued store state.socket
  memReports : ∀ item ∈ store.memReports, Issued store item.socket
  latestRow : ∀ state ∈ store.latestRow, Issued store state.socket
  discarded : ∀ entry ∈ store.discarded, currentEpoch entry.2 entry.1.socket.epoch = none

/-- What an operation holds between two steps. -/
def Holds (_call : Nat) (store : Store) : Phase → Prop
  | .opening read => ∀ row ∈ read, ∃ current ∈ store.row, row.epoch ≤ current.epoch
  | .accepting epoch => 0 < epoch ∧ ∃ current ∈ store.row, epoch ≤ current.epoch
  | .checking socket _ _ => Issued store socket
  | .processing socket _ epoch memo stored =>
      Issued store socket ∧ epoch = socket.epoch ∧
        ∀ state, state ∈ memo ∨ state ∈ stored → Issued store state.socket
  | .recording socket _ epoch previous _ =>
      Issued store socket ∧ epoch = socket.epoch ∧ ∀ state ∈ previous, Issued store state.socket
  | .loading group | .checkingGroup group _ | .persisted group _ | .appended group _
  | .finishing group _ => ∀ item ∈ group, Issued store item.socket
  | .waiting | .marking _ | .marked | .listing _ _ | .deleting _ | .finished => True

/-- Where a report may be left. -/
inductive Place where
  | memory
  | latestRow
  | chunk (start : Int)

/-- A report is left there whose socket was opened before a deletion was marked. -/
def Left (store : Store) : Place → Prop
  | .memory => ∃ state ∈ store.memLatest, state.socket.opened < store.deletions
  | .latestRow => ∃ state ∈ store.latestRow, state.socket.opened < store.deletions
  | .chunk start => ∃ items ∈ store.chunks.get? start, ∃ item ∈ items,
      item.socket.opened < store.deletions

/-- The operation will still clear the place. -/
def Clears : Phase → Place → Prop
  | .marked, _ => True
  | .listing found startAfter, .chunk start =>
      start ∈ found ∨ (startAfter.all fun last => decide (last < start)) = true
  | .deleting keys, .chunk start => start ∈ keys
  | _, _ => False

section Epochs

variable {store after : Store} {socket : Socket}

theorem currentEpoch_some {row : Row} {expected : Nat} (positive : 0 < expected) :
    currentEpoch (some row) expected =
      if row.deleted = true ∨ (row.epoch ≠ 0 ∧ row.epoch ≠ expected) then none
      else some expected := by
  simp only [currentEpoch]
  by_cases deleted : row.deleted = true
  · rw [if_pos deleted, if_pos (Or.inl deleted)]
  · rw [if_neg deleted]
    by_cases zero : row.epoch = 0
    · rw [if_pos zero, if_neg (by omega), if_neg (by simp [deleted, zero])]
    · rw [if_neg zero]
      by_cases same : row.epoch = expected
      · rw [same, if_neg (by omega), if_neg (by simp [deleted])]
      · rw [if_pos (Or.inr ⟨positive, same⟩), if_pos (Or.inr ⟨zero, same⟩)]

theorem currentEpoch_eq {read : Option Row} {expected epoch : Nat} (positive : 0 < expected)
    (passed : currentEpoch read expected = some epoch) : epoch = expected := by
  cases read with
  | none => exact (Option.some.inj passed).symm
  | some row =>
      rw [currentEpoch_some positive] at passed
      split at passed
      · cases passed
      · exact (Option.some.inj passed).symm

/-- An epoch that is let pass was given out after the last deletion. -/
theorem opened_of_admits (issued : Issued store socket) (admits : Admits store socket) :
    socket.opened = store.deletions := by
  obtain ⟨row, current, _, past⟩ := issued.epoch
  by_contra other
  have behind := past (lt_of_le_of_ne issued.opened other)
  rw [Admits, Option.mem_def.mp current, currentEpoch_some issued.positive, if_pos] at admits
  · cases admits
  · exact Or.inr ⟨by omega, by omega⟩

/-- What a step leaves of the epochs that were given out. -/
structure Grows (store after : Store) : Prop where
  issued : ∀ socket, Issued store socket → Issued after socket
  row : ∀ epoch, (∃ current ∈ store.row, epoch ≤ current.epoch) →
    ∃ current ∈ after.row, epoch ≤ current.epoch

theorem grows_of_same (row : after.row = store.row) (deletions : after.deletions = store.deletions) :
    Grows store after := by
  refine ⟨fun socket issued => ⟨issued.positive, ?_, ?_⟩, fun epoch reached => ?_⟩
  · exact deletions ▸ issued.opened
  · rw [row, deletions]
    exact issued.epoch
  · exact row ▸ reached

/-- A row that is put over the last one with a larger epoch. -/
theorem grows_of_put {row : Row} (larger : ∀ current ∈ store.row, 0 < current.epoch →
      current.epoch < row.epoch)
    (put : after.row = some row)
    (deletions : after.deletions = store.deletions ∨ after.deletions = store.deletions + 1) :
    Grows store after := by
  constructor
  · intro socket issued
    obtain ⟨current, stored, reached, _⟩ := issued.epoch
    have positive := issued.positive
    have above := larger current stored (by omega)
    refine ⟨positive, ?_, row, put, ?_, fun _ => ?_⟩
    · have opened := issued.opened
      omega
    · omega
    · omega
  · intro epoch reached
    obtain ⟨current, stored, below⟩ := reached
    refine ⟨row, put, ?_⟩
    by_cases positive : 0 < current.epoch
    · have above := larger current stored positive
      omega
    · omega

end Epochs

section Persist

variable {env : Env} {store : Store} {group : List SocketReport} {failed : Bool}
  {input : StepInput}

theorem stateToPersist_socket {next : Nat × LatestState} (found : next ∈ stateToPersist group) :
    ∃ item ∈ group, next.2.socket = item.socket := by
  unfold stateToPersist at found
  simp only [Option.bind_eq_bind, Option.mem_def, Option.bind_eq_some_iff] at found
  obtain ⟨index, _, item, at_, state, known, marked⟩ := found
  split at marked
  · cases marked
  · cases marked
    refine ⟨item, List.mem_of_getElem? at_, ?_⟩
    obtain ⟨_, _, rfl⟩ := Option.map_eq_some_iff.mp known
    rfl

/-- The drain writes the latest row only, with the newest state of the group. -/
theorem persistNewest_store (env : Env) (group : List SocketReport) (failed : Bool)
    (input : StepInput) (store : Store) : ∃ latestRow latestPersistAt,
    (persistNewest env group failed input store).1 =
        { store with latestRow := latestRow, latestPersistAt := latestPersistAt } ∧
      (latestRow = store.latestRow ∨ persistThrottled store input.now = false ∧
        input.fails = false ∧ ∃ next ∈ stateToPersist group, latestRow = some next.2) := by
  unfold persistNewest
  split
  · exact ⟨_, _, rfl, Or.inl rfl⟩
  · rename_i index state found
    split
    · exact ⟨_, _, rfl, Or.inl rfl⟩
    · rename_i free
      have unthrottled := Bool.eq_false_iff.mpr free
      dsimp only
      split
      · exact ⟨_, _, rfl, Or.inl rfl⟩
      · rename_i works
        have succeeds := Bool.eq_false_iff.mpr works
        split <;> exact ⟨_, _, rfl, Or.inr ⟨unthrottled, succeeds, _, found, rfl⟩⟩

theorem persistNewest_group {item : SocketReport}
    (member : item ∈ (persistNewest env group failed input store).2.1) :
    ∃ before ∈ group, item.socket = before.socket := by
  have marked (index : Nat) (inside : item ∈ group.modify index markPersisted) :
      ∃ before ∈ group, item.socket = before.socket := by
    obtain ⟨position, bound, rfl⟩ := List.mem_iff_getElem.mp inside
    rw [List.length_modify] at bound
    refine ⟨group[position], List.getElem_mem bound, ?_⟩
    rw [List.getElem_modify]
    split <;> rfl
  unfold persistNewest at member
  split at member
  · exact ⟨item, member, rfl⟩
  · split at member
    · exact marked _ member
    · dsimp only at member
      split at member
      · exact ⟨item, member, rfl⟩
      · split at member
        · exact ⟨item, member, rfl⟩
        · exact marked _ member

end Persist

section Chunks

variable {store : Store} {group : List SocketReport} {start : Int}

/-- What a chunk holds after an append it held before, or is in the group. -/
theorem mem_appendLocal {items : List SocketReport} {item : SocketReport}
    (held : items ∈ (appendLocal group store).chunks.get? start) (member : item ∈ items) :
    (∃ before ∈ store.chunks.get? start, item ∈ before) ∨
      item ∈ group ∧ start ∈ chunkStarts item.report := by
  have added (entries : List (Int × SocketReport)) (chunks : OrderedMap Int (List SocketReport))
      (found : items ∈ (entries.foldl addToChunk chunks).get? start) :
      (∃ before ∈ chunks.get? start, item ∈ before) ∨ (start, item) ∈ entries := by
    induction entries generalizing chunks with
    | nil => exact Or.inl ⟨items, found, member⟩
    | cons entry rest ih =>
        cases ih _ found with
        | inr later => exact Or.inr (List.mem_cons_of_mem _ later)
        | inl earlier =>
            obtain ⟨before, stored, inside⟩ := earlier
            rw [addToChunk, OrderedMap.get?_set] at stored
            split at stored
            · rename_i own
              cases Option.mem_some_iff.mp stored
              cases List.mem_append.mp inside with
              | inl old =>
                  cases present : chunks.get? entry.1 with
                  | none =>
                      rw [present] at old
                      cases old
                  | some known =>
                      rw [present] at old
                      exact Or.inl ⟨known, own ▸ present, old⟩
              | inr new =>
                  rw [List.mem_singleton.mp new, own]
                  exact Or.inr List.mem_cons_self
            · exact Or.inl ⟨before, stored, inside⟩
  cases added _ _ held with
  | inl before => exact Or.inl before
  | inr new =>
      obtain ⟨other, inside, listed⟩ := List.mem_flatMap.mp new
      obtain ⟨_, own, same⟩ := List.mem_map.mp listed
      cases same
      exact Or.inr ⟨inside, own⟩

/-- A key that is left to list is on the page, or the page is full and ends before it. -/
theorem mem_listPage {startAfter : Option Int} (stored : start ∈ store.chunks.keys)
    (left : (startAfter.all fun last => decide (last < start)) = true) :
    start ∈ listPage store startAfter ∨
      ¬ (listPage store startAfter).length < storageListPageLimit ∧
        ((listPage store startAfter).getLast?.all fun last => decide (last < start)) = true := by
  unfold listPage
  have sorted := List.pairwise_insertionSort (· ≤ ·)
    (store.chunks.keys.filter fun key => startAfter.all fun last => decide (last < key))
  have distinct : (List.insertionSort (· ≤ ·) (store.chunks.keys.filter fun key =>
      startAfter.all fun last => decide (last < key))).Nodup :=
    (List.perm_insertionSort _ _).nodup_iff.mpr (store.chunks.nodup_keys.filter _)
  have listed : start ∈ List.insertionSort (· ≤ ·) (store.chunks.keys.filter fun key =>
      startAfter.all fun last => decide (last < key)) :=
    (List.mem_insertionSort _).mpr (List.mem_filter.mpr ⟨stored, left⟩)
  generalize List.insertionSort (· ≤ ·) (store.chunks.keys.filter fun key =>
    startAfter.all fun last => decide (last < key)) = keys at sorted distinct listed
  rw [← List.take_append_drop storageListPageLimit keys] at listed sorted distinct
  cases List.mem_append.mp listed with
  | inl page => exact Or.inl page
  | inr later =>
      apply Or.inr
      constructor
      · have bound : storageListPageLimit < keys.length := by
          by_contra short
          rw [List.drop_eq_nil_of_le (not_lt.mp short)] at later
          cases later
        rw [List.length_take]
        omega
      · rw [Option.all_eq_true]
        intro last ends
        have inside := List.mem_of_getLast? ends
        have before := (List.pairwise_append.mp sorted).2.2 last inside start later
        have other := (List.nodup_append.mp distinct).2.2 last inside start later
        exact decide_eq_true (lt_of_le_of_ne before other)

end Chunks

section Steps

variable {env : Env} {agentId : String} {calls : Nat → Call} {call : Nat} {store after : Store}
  {phase : Phase} {input : StepInput}

theorem Holds.later (grows : Grows store after) (holds : Holds call store phase) :
    Holds call after phase := by
  cases phase with
  | opening read => exact fun row known => grows.row row.epoch (holds row known)
  | accepting epoch => exact ⟨holds.1, grows.row epoch holds.2⟩
  | checking socket result read => exact grows.issued socket holds
  | processing socket result epoch memo stored =>
      exact ⟨grows.issued socket holds.1, holds.2.1,
        fun state known => grows.issued state.socket (holds.2.2 state known)⟩
  | recording socket result epoch previous read =>
      exact ⟨grows.issued socket holds.1, holds.2.1,
        fun state known => grows.issued state.socket (holds.2.2 state known)⟩
  | loading group | checkingGroup group _ | persisted group _ | appended group _
  | finishing group _ => exact fun item member => grows.issued item.socket (holds item member)
  | waiting | marking _ | marked | listing _ _ | deleting _ | finished => exact True.intro

variable (env agentId calls call store input) in
/-- Only an opening and a mark write the lifecycle row. -/
theorem row_act (opens : ∀ read, phase ≠ .opening read) (marks : ∀ read, phase ≠ .marking read) :
    (act env agentId calls call store phase input).1.row = store.row ∧
      (act env agentId calls call store phase input).1.deletions = store.deletions := by
  have persists (group : List SocketReport) (failed : Bool) :
      (persistNewest env group failed input store).1.row = store.row ∧
        (persistNewest env group failed input store).1.deletions = store.deletions := by
    obtain ⟨latestRow, latestPersistAt, same, _⟩ := persistNewest_store env group failed input store
    rw [same]
    exact ⟨rfl, rfl⟩
  cases phase with
  | opening read => exact absurd rfl (opens read)
  | marking read => exact absurd rfl (marks read)
  | waiting =>
      simp only [act]
      cases calls call with
      | message index result =>
          dsimp only
          split <;> exact ⟨rfl, rfl⟩
      | drain =>
          dsimp only
          split <;> exact ⟨rfl, rfl⟩
      | openSocket | delete => exact ⟨rfl, rfl⟩
  | checking socket result read =>
      simp only [act]
      cases currentEpoch read socket.epoch <;> exact ⟨rfl, rfl⟩
  | recording socket result epoch previous read =>
      simp only [act]
      split <;> exact ⟨rfl, rfl⟩
  | checkingGroup group read =>
      cases group with
      | nil => exact ⟨rfl, rfl⟩
      | cons first rest =>
          simp only [act]
          cases currentEpoch read first.socket.epoch with
          | none => exact ⟨rfl, rfl⟩
          | some _ => exact persists _ _
  | persisted group failed =>
      simp only [act]
      split
      · split <;> exact ⟨rfl, rfl⟩
      · exact ⟨rfl, rfl⟩
  | appended group failed => exact persists _ _
  | finishing group failed => cases failed <;> exact ⟨rfl, rfl⟩
  | deleting keys => cases keys <;> exact ⟨rfl, rfl⟩
  | accepting _ | processing _ _ _ _ _ | loading _ | marked | listing _ _ | finished =>
      exact ⟨rfl, rfl⟩

variable (env agentId calls) in
theorem grows_act (fences : Fences call store phase input) :
    Grows store (act env agentId calls call store phase input).1 := by
  by_cases opens : ∃ read, phase = .opening read
  · obtain ⟨read, rfl⟩ := opens
    match read, fences with
    | some ⟨epoch + 1, false⟩, _ => exact grows_of_same rfl rfl
    | some ⟨epoch, true⟩, fences =>
        refine grows_of_put ?_ rfl (Or.inl rfl)
        intro current stored _
        rw [fences rfl, Option.mem_some_iff] at stored
        exact stored ▸ Nat.lt_succ_self epoch
    | some ⟨0, false⟩, fences =>
        refine grows_of_put ?_ rfl (Or.inl rfl)
        intro current stored positive
        rw [fences rfl, Option.mem_some_iff] at stored
        exact absurd positive (stored ▸ lt_irrefl 0)
    | none, fences =>
        refine grows_of_put ?_ rfl (Or.inl rfl)
        intro current stored
        rw [fences rfl] at stored
        cases stored
  by_cases marks : ∃ read, phase = .marking read
  · obtain ⟨read, rfl⟩ := marks
    refine grows_of_put ?_ rfl (Or.inr rfl)
    intro current stored _
    rw [show store.row = read from fences] at stored
    rw [Option.mem_def.mp stored]
    exact Nat.lt_succ_self current.epoch
  · obtain ⟨row, deletions⟩ := row_act env agentId calls call store input
      (fun read same => opens ⟨read, same⟩) fun read same => marks ⟨read, same⟩
    exact grows_of_same row deletions

variable (store) in
/-- What the epochs given out before the step account for, they account for after it. -/
theorem sound_of_issued (grows : Grows store after)
    (sockets : ∀ socket ∈ after.sockets, Issued store socket)
    (memLatest : ∀ state ∈ after.memLatest, Issued store state.socket)
    (memReports : ∀ item ∈ after.memReports, Issued store item.socket)
    (latestRow : ∀ state ∈ after.latestRow, Issued store state.socket)
    (discarded : ∀ entry ∈ after.discarded, currentEpoch entry.2 entry.1.socket.epoch = none) :
    Sound after where
  sockets socket member := grows.issued socket (sockets socket member)
  memLatest state member := grows.issued state.socket (memLatest state member)
  memReports item member := grows.issued item.socket (memReports item member)
  latestRow state member := grows.issued state.socket (latestRow state member)
  discarded := discarded

theorem sound_persistNewest {group : List SocketReport} {failed : Bool} (sound : Sound store)
    (holds : ∀ item ∈ group, Issued store item.socket) :
    Sound (persistNewest env group failed input store).1 := by
  obtain ⟨latestRow, latestPersistAt, same, written⟩ :=
    persistNewest_store env group failed input store
  rw [same]
  refine sound_of_issued store (grows_of_same rfl rfl) sound.sockets sound.memLatest sound.memReports ?_
    sound.discarded
  intro state member
  cases written with
  | inl kept => exact sound.latestRow state (kept ▸ member)
  | inr put =>
      obtain ⟨_, _, next, found, stored⟩ := put
      obtain ⟨item, inside, own⟩ := stateToPersist_socket found
      cases Option.some.inj (stored.symm.trans (Option.mem_def.mp member))
      exact own ▸ holds item inside

theorem issued_opened {epoch : Nat} (positive : 0 < epoch)
    (reached : ∃ current ∈ store.row, epoch ≤ current.epoch) :
    Issued store ⟨epoch, store.deletions⟩ := by
  obtain ⟨current, stored, below⟩ := reached
  exact ⟨positive, le_refl _, current, stored, below, fun older => absurd older (lt_irrefl _)⟩

/-- One more socket. -/
theorem issued_append {epoch : Nat} (sound : Sound store) (positive : 0 < epoch)
    (reached : ∃ current ∈ store.row, epoch ≤ current.epoch) (socket : Socket)
    (member : socket ∈ store.sockets ++ [⟨epoch, store.deletions⟩]) : Issued store socket := by
  cases List.mem_append.mp member with
  | inl before => exact sound.sockets socket before
  | inr new => exact List.mem_singleton.mp new ▸ issued_opened positive reached

/-- A state that a message leaves in memory is its own or the previous one. -/
theorem remembered_cases {socket : Socket} {result : MessageResult} {previous : Option LatestState}
    {now : Int} {state : LatestState} (member : state ∈ rememberedState socket result previous now) :
    state.socket = socket ∨ state ∈ previous := by
  unfold rememberedState at member
  split at member
  · cases Option.mem_some_iff.mp member
    exact Or.inl rfl
  · exact Or.inr member

variable (env agentId calls) in
theorem sound_act (sound : Sound store) (holds : Holds call store phase)
    (fences : Fences call store phase input) :
    Sound (act env agentId calls call store phase input).1 := by
  have grows := grows_act env agentId calls fences
  cases phase with
  | waiting =>
      simp only [act] at grows ⊢
      cases calls call with
      | drain =>
          dsimp only at grows ⊢
          split
          · exact sound
          · refine sound_of_issued store (grows_of_same rfl rfl) sound.sockets sound.memLatest ?_
              sound.latestRow sound.discarded
            intro item member
            cases member
      | message index result =>
          dsimp only
          split <;> exact sound
      | openSocket | delete => exact sound
  | opening read =>
      match read, holds, grows with
      | some ⟨epoch + 1, false⟩, holds, _ =>
          exact sound_of_issued store (grows_of_same rfl rfl)
            (issued_append sound (Nat.succ_pos epoch) (holds _ rfl)) sound.memLatest
            sound.memReports sound.latestRow sound.discarded
      | some ⟨epoch, true⟩, _, grows | some ⟨0, false⟩, _, grows | none, _, grows =>
          exact sound_of_issued store grows sound.sockets sound.memLatest sound.memReports sound.latestRow
            sound.discarded
  | accepting epoch =>
      exact sound_of_issued store (grows_of_same rfl rfl) (issued_append sound holds.1 holds.2)
        sound.memLatest sound.memReports sound.latestRow sound.discarded
  | checking socket result read =>
      simp only [act]
      cases currentEpoch read socket.epoch <;> exact sound
  | recording socket result epoch previous read =>
      simp only [act]
      obtain ⟨issued, same, before⟩ := holds
      split
      · refine sound_of_issued store (grows_of_same rfl rfl) sound.sockets ?_ ?_ sound.latestRow
          sound.discarded
        · intro state member
          cases Option.or_eq_some_iff.mp member with
          | inl new =>
              cases remembered_cases new with
              | inl own => exact own ▸ issued
              | inr kept => exact before state kept
          | inr kept => exact sound.memLatest state kept.2
        · intro item member
          cases List.mem_append.mp (List.mem_of_mem_drop member) with
          | inl queued => exact sound.memReports item queued
          | inr new =>
              rw [List.mem_singleton.mp new]
              subst same
              exact issued
      · exact sound
  | checkingGroup group read =>
      cases group with
      | nil => exact sound
      | cons first rest =>
          simp only [act]
          have guarded := fences first rfl
          cases passed : currentEpoch read first.socket.epoch with
          | some _ => exact sound_persistNewest sound holds
          | none =>
              rw [if_pos passed] at guarded
              refine sound_of_issued store (grows_of_same rfl rfl) sound.sockets sound.memLatest
                sound.memReports sound.latestRow ?_
              intro entry member
              cases List.mem_append.mp member with
              | inl before => exact sound.discarded entry before
              | inr new =>
                  obtain ⟨item, inside, rfl⟩ := List.mem_map.mp new
                  rw [guarded item inside]
                  exact passed
  | persisted group failed =>
      simp only [act]
      split
      · split
        · exact sound
        · exact sound_of_issued store (grows_of_same rfl rfl) sound.sockets sound.memLatest
            sound.memReports sound.latestRow sound.discarded
      · exact sound
  | appended group failed => exact sound_persistNewest sound holds
  | finishing group failed =>
      cases failed with
      | false => exact sound
      | true =>
          refine sound_of_issued store (grows_of_same rfl rfl) sound.sockets sound.memLatest ?_
            sound.latestRow sound.discarded
          intro item member
          cases List.mem_append.mp (List.mem_of_mem_drop member) with
          | inl again => exact holds item again
          | inr queued => exact sound.memReports item queued
  | marking read =>
      exact sound_of_issued store grows sound.sockets sound.memLatest sound.memReports sound.latestRow
        sound.discarded
  | marked =>
      refine sound_of_issued store (grows_of_same rfl rfl) sound.sockets ?_ ?_ ?_ sound.discarded
      · intro state member
        cases member
      · intro item member
        cases member
      · intro state member
        cases member
  | deleting keys =>
      cases keys with
      | nil => exact sound
      | cons key rest =>
          exact sound_of_issued store (grows_of_same rfl rfl) sound.sockets sound.memLatest
            sound.memReports sound.latestRow sound.discarded
  | processing _ _ _ _ _ | loading _ | listing _ _ | finished => exact sound

theorem previousState_cases {memo stored : Option LatestState} {state : LatestState}
    (member : state ∈ previousState memo stored) : state ∈ memo ∨ state ∈ stored := by
  simp only [previousState] at member
  split at member
  · exact Or.inr member
  · exact Or.inl member

variable (env agentId calls) in
/-- What the operation holds next, by what was given out before the step. -/
theorem holds_act (sound : Sound store) (holds : Holds call store phase)
    (fences : Fences call store phase input) :
    Holds call (act env agentId calls call store phase input).1
      (act env agentId calls call store phase input).2 := by
  have grows := grows_act env agentId calls fences
  cases phase with
  | waiting =>
      simp only [act]
      cases calls call with
      | openSocket => exact fun row known => ⟨row, known, le_refl _⟩
      | message index result =>
          dsimp only
          split
          · rename_i socket found
            split
            · exact True.intro
            · exact sound.sockets socket (List.mem_of_getElem? found)
          · exact True.intro
      | drain =>
          dsimp only
          split
          · exact True.intro
          · have taken : Grows store { store with memReports := [] } := grows_of_same rfl rfl
            intro item member
            exact taken.issued _ (sound.memReports item ((List.mem_insertionSort _).mp member))
      | delete => exact True.intro
  | opening read =>
      match read with
      | some ⟨_ + 1, false⟩ => exact True.intro
      | some ⟨epoch, true⟩ => exact ⟨Nat.succ_pos epoch, _, rfl, le_refl _⟩
      | some ⟨0, false⟩ => exact ⟨Nat.one_pos, _, rfl, le_refl _⟩
      | none => exact ⟨Nat.one_pos, _, rfl, le_refl _⟩
  | checking socket result read =>
      simp only [act]
      cases passed : currentEpoch read socket.epoch with
      | none => exact True.intro
      | some epoch =>
          refine ⟨holds, currentEpoch_eq holds.positive passed, ?_⟩
          intro state known
          cases known with
          | inl memo => exact sound.memLatest state memo
          | inr stored => exact sound.latestRow state stored
  | processing socket result epoch memo stored =>
      simp only [act]
      split
      · exact True.intro
      · exact ⟨holds.1, holds.2.1, fun state known => holds.2.2 state (previousState_cases known)⟩
  | recording socket result epoch previous read =>
      simp only [act]
      split <;> exact True.intro
  | loading group => exact holds
  | checkingGroup group read =>
      cases group with
      | nil => exact True.intro
      | cons first rest =>
          simp only [act] at grows ⊢
          cases passed : currentEpoch read first.socket.epoch with
          | none => exact True.intro
          | some _ =>
              rw [passed] at grows
              intro item member
              obtain ⟨before, inside, same⟩ := persistNewest_group member
              exact grows.issued _ (same ▸ holds before inside)
  | persisted group failed =>
      simp only [act] at grows ⊢
      split
      · rename_i adds
        split
        · exact holds
        · rename_i works
          rw [if_pos adds, if_neg works] at grows
          intro item member
          obtain ⟨before, inside, rfl⟩ := List.mem_map.mp member
          exact grows.issued _ (holds before inside)
      · exact holds
  | appended group failed =>
      intro item member
      obtain ⟨before, inside, same⟩ := persistNewest_group member
      exact grows.issued _ (same ▸ holds before inside)
  | finishing group failed => cases failed <;> exact True.intro
  | deleting keys => cases keys <;> exact True.intro
  | listing found startAfter =>
      simp only [act, nextPage]
      split <;> exact True.intro
  | accepting _ | marking _ | marked | finished => exact True.intro

/-- No place holds an old report but those that did before, when the stores of states and of
telemetry are the same. -/
theorem left_of_same {place : Place} (memLatest : after.memLatest = store.memLatest)
    (latestRow : after.latestRow = store.latestRow) (chunks : after.chunks = store.chunks)
    (deletions : after.deletions = store.deletions) (left : Left after place) : Left store place := by
  cases place with
  | memory =>
      rw [Left, memLatest, deletions] at left
      exact left
  | latestRow =>
      rw [Left, latestRow, deletions] at left
      exact left
  | chunk start =>
      rw [Left, chunks, deletions] at left
      exact left

/-- A drain that writes a state that is let pass leaves no old one. -/
theorem left_persistNewest {group : List SocketReport} {failed : Bool} {place : Place}
    (holds : ∀ item ∈ group, Issued store item.socket)
    (fenced : PersistsFenced group store input)
    (left : Left (persistNewest env group failed input store).1 place) : Left store place := by
  obtain ⟨latestRow, latestPersistAt, same, written⟩ :=
    persistNewest_store env group failed input store
  rw [same] at left
  cases place with
  | memory => exact left
  | chunk start => exact left
  | latestRow =>
      cases written with
      | inl kept =>
          subst kept
          exact left
      | inr put =>
          obtain ⟨free, works, next, found, stored⟩ := put
          obtain ⟨state, known, old⟩ := left
          obtain ⟨item, inside, own⟩ := stateToPersist_socket found
          cases Option.some.inj (stored.symm.trans (Option.mem_def.mp known))
          have current := opened_of_admits (own ▸ holds item inside) (fenced free works next found)
          exact absurd old (by rw [current]; exact lt_irrefl _)

variable (env agentId calls) in
/-- A guarded step leaves an old report only where one was left that the operation was not about to
clear, or where the operation is going to clear it. -/
theorem left_act (holds : Holds call store phase)
    (fences : Fences call store phase input) (place : Place)
    (left : Left (act env agentId calls call store phase input).1 place) :
    (Left store place ∧ ¬ Clears phase place) ∨
      Clears (act env agentId calls call store phase input).2 place := by
  cases phase with
  | marking read => exact Or.inr True.intro
  | marked =>
      cases place with
      | memory =>
          obtain ⟨_, none_, _⟩ := left
          cases none_
      | latestRow =>
          obtain ⟨_, none_, _⟩ := left
          cases none_
      | chunk start => exact Or.inr (Or.inr rfl)
  | listing found startAfter =>
      cases place with
      | memory => exact Or.inl ⟨left, fun clears => clears⟩
      | latestRow => exact Or.inl ⟨left, fun clears => clears⟩
      | chunk start =>
          by_cases clears : Clears (.listing found startAfter) (.chunk start)
          case neg => exact Or.inl ⟨left, clears⟩
          apply Or.inr
          have known : start ∈ store.chunks.keys := by
            by_contra absent
            obtain ⟨items, stored, _⟩ := show Left store (.chunk start) from left
            rw [OrderedMap.get?_eq_none.mpr absent] at stored
            cases stored
          have page : start ∈ found ∨ start ∈ listPage store startAfter ∨
              ¬ (listPage store startAfter).length < storageListPageLimit ∧
                ((listPage store startAfter).getLast?.all fun last => decide (last < start)) = true :=
            clears.imp_right (mem_listPage known)
          simp only [act, nextPage]
          split
          · rename_i short
            rcases page with before | here | ⟨full, _⟩
            · exact List.mem_append_left _ before
            · exact List.mem_append_right _ here
            · exact absurd short full
          · rcases page with before | here | ⟨_, later⟩
            · exact Or.inl (List.mem_append_left _ before)
            · exact Or.inl (List.mem_append_right _ here)
            · exact Or.inr later
  | deleting keys =>
      cases keys with
      | nil =>
          refine Or.inl ⟨left, ?_⟩
          cases place with
          | chunk start => exact List.not_mem_nil
          | memory | latestRow => exact id
      | cons key rest =>
          cases place with
          | memory => exact Or.inl ⟨left, fun clears => clears⟩
          | latestRow => exact Or.inl ⟨left, fun clears => clears⟩
          | chunk start =>
              obtain ⟨items, stored, inside⟩ := left
              simp only [act, OrderedMap.get?_erase] at stored
              split at stored
              · cases stored
              · rename_i other
                by_cases waits : start ∈ rest
                · exact Or.inr waits
                · refine Or.inl ⟨⟨items, stored, inside⟩, ?_⟩
                  intro clears
                  cases List.mem_cons.mp clears with
                  | inl same => exact other same
                  | inr later => exact waits later
  | waiting =>
      refine Or.inl ⟨?_, fun clears => clears⟩
      simp only [act] at left
      cases calls_ : calls call with
      | message index result =>
          rw [calls_] at left
          dsimp only at left
          split at left <;> exact left
      | drain =>
          rw [calls_] at left
          dsimp only at left
          split at left
          · exact left
          · exact left_of_same rfl rfl rfl rfl left
      | openSocket | delete =>
          rw [calls_] at left
          exact left
  | opening read =>
      refine Or.inl ⟨?_, fun clears => clears⟩
      cases read with
      | none => exact left_of_same rfl rfl rfl rfl left
      | some row =>
          obtain ⟨_ | epoch, _ | _⟩ := row
          all_goals exact left_of_same rfl rfl rfl rfl left
  | checking socket result read =>
      refine Or.inl ⟨?_, fun clears => clears⟩
      simp only [act] at left
      split at left <;> exact left
  | recording socket result epoch previous read =>
      refine Or.inl ⟨?_, fun clears => clears⟩
      simp only [act] at left
      split at left
      case isFalse => exact left
      rename_i passed
      obtain ⟨issued, same, before⟩ := holds
      cases place with
      | latestRow => exact left
      | chunk start => exact left
      | memory =>
          obtain ⟨state, known, old⟩ := left
          cases Option.or_eq_some_iff.mp known with
          | inr kept => exact ⟨state, kept.2, old⟩
          | inl new =>
              have given : Issued store state.socket := by
                cases remembered_cases new with
                | inl own => exact own ▸ issued
                | inr kept => exact before state kept
              have current := opened_of_admits given (fences passed state new)
              have past : state.socket.opened < store.deletions := old
              omega
  | checkingGroup group read =>
      refine Or.inl ⟨?_, fun clears => clears⟩
      cases group with
      | nil => exact left
      | cons first rest =>
          have guarded := fences first rfl
          simp only [act] at left
          cases passed : currentEpoch read first.socket.epoch with
          | none =>
              rw [passed] at left
              exact left_of_same rfl rfl rfl rfl left
          | some epoch =>
              rw [passed] at left guarded
              exact left_persistNewest holds (by simpa using guarded) left
  | persisted group failed =>
      refine Or.inl ⟨?_, fun clears => clears⟩
      simp only [act] at left
      split at left
      case isFalse => exact left
      rename_i adds
      split at left
      · exact left
      · rename_i works
        cases place with
        | memory => exact left
        | latestRow => exact left
        | chunk start =>
            obtain ⟨items, stored, item, inside, old⟩ := left
            cases mem_appendLocal stored inside with
            | inl before =>
                obtain ⟨earlier, kept, there⟩ := before
                exact ⟨earlier, kept, item, there, old⟩
            | inr new =>
                have admitted := fences adds (Bool.eq_false_iff.mpr works) item new.1
                  (List.ne_nil_of_mem new.2)
                have current := opened_of_admits (holds item new.1) admitted
                have past : item.socket.opened < store.deletions := old
                omega
  | appended group failed =>
      exact Or.inl ⟨left_persistNewest holds fences left, fun clears => clears⟩
  | finishing group failed =>
      refine Or.inl ⟨?_, fun clears => clears⟩
      cases failed with
      | false => exact left
      | true => exact left_of_same rfl rfl rfl rfl left
  | accepting _ | processing _ _ _ _ _ | loading _ | finished =>
      exact Or.inl ⟨left_of_same rfl rfl rfl rfl left, fun clears => clears⟩

end Steps

theorem keeps_sound (env : Env) (agentId : String) (calls : Nat → Call) :
    Keeps (act env agentId calls) Fences Sound Holds where
  shared _ _ _ _ sound holds fences := sound_act env agentId calls sound holds fences
  self _ _ _ _ sound holds fences := holds_act env agentId calls sound holds fences
  others _ _ _ _ _ _ fences _ _ _ waiting :=
    waiting.later (grows_act env agentId calls fences)

theorem answers_left (env : Env) (agentId : String) (calls : Nat → Call) :
    Answers (act env agentId calls) Fences Sound Holds Left Clears :=
  fun _ _ _ _ _ holds fences place left => left_act env agentId calls holds fences place left

def runOperations (env : Env) (agentId : String) (calls : Nat → Call) (store : Store)
    (events : List (Nat × StepInput)) : Pool Store Phase :=
  Runs.run (Processes.step (act env agentId calls)) ⟨store, fun _ => .waiting⟩ events

/-- Whenever no operation is in flight, no report is left that came over a socket opened before a
deletion, and a drain throws away only what its check does not let pass: in every run whose writes are
not overtaken by a deletion and whose drains do not throw away groups of several epochs. -/
theorem deletion_fences (env : Env) (agentId : String) (calls : Nat → Call) (store : Store)
    (sound : Sound store) (undeleted : store.deletions = 0) (events : List (Nat × StepInput))
    (along : Runs.Along (Processes.step (act env agentId calls)) (Allowed Fences)
      ⟨store, fun _ => .waiting⟩ events) :
    ((∀ call, ((runOperations env agentId calls store events).phase call).idle = true) →
        ∀ place, ¬ Left (runOperations env agentId calls store events).shared place) ∧
      ∀ entry ∈ (runOperations env agentId calls store events).shared.discarded,
        currentEpoch entry.2 entry.1.socket.epoch = none := by
  have opened : Invariant Sound Holds (⟨store, fun _ => .waiting⟩ : Pool Store Phase) :=
    ⟨sound, fun _ => True.intro⟩
  have covered : Covered Left Clears (⟨store, fun _ => .waiting⟩ : Pool Store Phase) := by
    intro place left
    have old {opened : Nat} : ¬ opened < store.deletions := by
      rw [undeleted]
      exact Nat.not_lt_zero opened
    cases place with
    | memory =>
        obtain ⟨state, _, past⟩ := left
        exact absurd past old
    | latestRow =>
        obtain ⟨state, _, past⟩ := left
        exact absurd past old
    | chunk start =>
        obtain ⟨items, _, item, _, past⟩ := left
        exact absurd past old
  obtain ⟨invariant, clears⟩ := run_covered (keeps_sound env agentId calls)
    (answers_left env agentId calls) opened covered along
  refine ⟨fun idle place left => ?_, invariant.shared.discarded⟩
  obtain ⟨call, clearing⟩ := clears place left
  have resting := idle call
  unfold runOperations at resting
  generalize (Runs.run (Processes.step (act env agentId calls)) ⟨store, fun _ => .waiting⟩
    events).phase call = phase at clearing resting
  cases phase with
  | waiting | finished => cases place <;> exact clearing
  | _ => cases resting

section Examples

private def operations : Nat → Call
  | 0 | 3 => .openSocket
  | 1 => .message 0 { updatedAt := 1000, points := [⟨900, [], []⟩] }
  | 2 => .delete
  | 4 => .message 1 { updatedAt := 1001, points := [⟨901, [], []⟩] }
  | _ => .drain

private theorem stepTime_pos : (0 : Int) < 1000 := by decide

private def atTime : StepInput := { now := 1000, now_pos := stepTime_pos }

private def failsAt : StepInput := { now := 1000, now_pos := stepTime_pos, fails := true }

private def steps (call count : Nat) : List (Nat × StepInput) := List.replicate count (call, atTime)

private def ran (events : List (Nat × StepInput)) : Pool Store Phase :=
  runOperations {} "a" operations {} events

private theorem sound_empty : Sound {} := by
  refine ⟨?_, ?_, ?_, ?_, ?_⟩
  · intro socket member
    cases member
  · intro state member
    cases member
  · intro item member
    cases member
  · intro state member
    cases member
  · intro entry member
    cases member

/-- One after the other: a report, a deletion, and a report that is drained. -/
private def inTurn : List (Nat × StepInput) :=
  steps 0 3 ++ steps 1 4 ++ steps 2 5 ++ steps 3 3 ++ steps 4 4 ++ steps 5 6

private theorem idle_of_bounded {events : List (Nat × StepInput)}
    (bound : ∀ event ∈ events, event.1 < 7)
    (early : ∀ call < 7, ((ran events).phase call).idle = true) (call : Nat) :
    ((ran events).phase call).idle = true := by
  by_cases below : call < 7
  · exact early call below
  · have absent : ∀ event ∈ events, event.1 ≠ call := by
      intro event member same
      exact below (same ▸ bound event member)
    rw [ran, runOperations, phase_of_not_mem _ absent]
    rfl

private theorem idle_inTurn (call : Nat) : ((ran inTurn).phase call).idle = true :=
  idle_of_bounded (by decide) (by decide +kernel) call

theorem deletion_fences_inTurn : (∀ place, ¬ Left (ran inTurn).shared place) ∧
    (ran inTurn).shared.latestRow.map LatestState.updatedAt = some 1001 :=
  ⟨(deletion_fences {} "a" operations {} sound_empty rfl inTurn (by decide +kernel)).1 idle_inTurn,
    by decide +kernel⟩

/-- The deletion comes between the second check of a message and its write. -/
private def overtaken : List (Nat × StepInput) := steps 0 3 ++ steps 1 3 ++ steps 2 5 ++ steps 1 1

/-- The deletion comes while a drain holds a report; the drain fails, and the report waits in the
queue when the next one comes. -/
private def requeued : List (Nat × StepInput) :=
  steps 0 3 ++ steps 1 4 ++ steps 5 3 ++ steps 2 5 ++ [(5, failsAt)] ++ steps 5 1 ++ steps 3 3 ++
    steps 4 4 ++ steps 6 3

/-- The overtaken message leaves its state in memory, and the drain of both reports throws the newer
one away although its epoch is the current one. -/
theorem overtaken_report_left :
    ((∀ call, ((ran overtaken).phase call).idle = true) ∧ Left (ran overtaken).shared .memory) ∧
      ∃ entry ∈ (ran requeued).shared.discarded,
        currentEpoch entry.2 entry.1.socket.epoch ≠ none := by
  refine ⟨⟨idle_of_bounded (by decide) (by decide +kernel), ?_⟩, ?_⟩
  · have remembered : (ran overtaken).shared.memLatest.any (fun state =>
        decide (state.socket.opened < (ran overtaken).shared.deletions)) = true := by decide +kernel
    obtain ⟨state, known, old⟩ := (Option.any_eq_true _ _).mp remembered
    exact ⟨state, known, of_decide_eq_true old⟩
  · decide +kernel

end Examples

end NieSla.Telemetry.Lifecycle
