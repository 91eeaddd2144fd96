import NieSla.Telemetry.HourFlush

/-! What is appended while `flushCompletedHours` runs stays in a chunk row or in the R2 object of
its hour, as long as no append goes to a row that the flush has read and will delete. -/
namespace NieSla.Telemetry

theorem hourStart_chunkStart (ts : Int) : hourStart (chunkStart ts) = hourStart ts := by
  unfold hourStart chunkStart hourSec chunkSec
  omega

theorem within_hour (ts : Int) : hourStart ts ≤ ts ∧ ts < hourStart ts + hourSec := by
  unfold hourStart hourSec
  omega

theorem within_chunk (ts : Int) : chunkStart ts ≤ ts ∧ ts < chunkStart ts + chunkSec := by
  unfold chunkStart chunkSec
  omega

/-- The mark is in the row of its chunk or in the object of its hour. -/
def ChunkStore.Present (store : ChunkStore) (agentId : AgentId) (mark : Mark) : Prop :=
  mark ∈ (store.rowBatch ⟨false, agentId, chunkStart mark.ts⟩).marks ∨
    mark ∈ (store.objectBatch (agentId, hourStart mark.ts)).marks

def Positive (batch : Batch) : Prop := ∀ mark ∈ batch.marks, 0 < mark.ts

/-- A chunk row belongs to the agent of its key, and what is stored has positive times. -/
structure ChunkStore.Sane (store : ChunkStore) : Prop where
  owner : ∀ key row, store.rows.get? key = some row → key.legacy = false →
    row.agentId = key.agentId
  rows : ∀ key, Positive (store.rowBatch key)
  objects : ∀ key, Positive (store.objectBatch key)

theorem positive_empty : Positive {} := by
  intro mark member
  simp [Batch.marks, Batch.data] at member

section Merge

variable {collate : String → String → Bool} {existing incoming : Batch} {start duration : Int}

theorem positive_mergeBuffer (old : Positive existing) (new : Positive incoming) :
    Positive (mergeBuffer collate existing incoming start duration) := by
  intro mark member
  rcases (mem_marks_mergeBuffer.mp member).1 with before | added
  · exact old mark before
  · exact new mark added

theorem positive_unpack_pack (positive : Positive existing) :
    Positive (unpack (pack collate existing)) :=
  fun mark member => positive mark ((mem_marks_unpack_pack positive).mp member).1

/-- A merged and packed buffer keeps the marks of both that fall into its span. -/
theorem mem_marks_packed (old : Positive existing) (new : Positive incoming) {mark : Mark}
    (member : mark ∈ existing.marks ∨ mark ∈ incoming.marks) (named : mark.Named)
    (within : start ≤ mark.ts ∧ mark.ts < start + duration) :
    mark ∈ (unpack (pack collate (mergeBuffer collate existing incoming start duration))).marks :=
  (mem_marks_unpack_pack (positive_mergeBuffer old new)).mpr
    ⟨mem_marks_mergeBuffer.mpr ⟨member, named, within⟩, named⟩

end Merge

/-! Appends. -/

section Append

variable {collate : String → String → Bool} {agentId : AgentId} {batch : Batch}
  {store : ChunkStore}

theorem get?_appendLocal (key : RowKey) :
    (appendLocal collate agentId batch store).rows.get? key =
      if key.legacy = false ∧ key.agentId = agentId then
        (((groupByChunk batch).get? key.start).map fun data =>
          some (ChunkRow.mk agentId (pack collate
            (mergeBuffer collate (store.rowBatch key) (.ofData data) key.start chunkSec)))).getD
          (store.rows.get? key)
      else store.rows.get? key := by
  unfold appendLocal
  dsimp only
  split
  · rename_i own
    obtain ⟨legacy, owner, start⟩ := key
    obtain ⟨rfl, rfl⟩ := own
    generalize groupByChunk batch = groups
    have filed := groups.foldl_entries_at (appendChunk collate owner)
      (fun (rows : OrderedMap RowKey ChunkRow) chunk => rows.get? ⟨false, owner, chunk⟩)
      (fun chunk data old => some (ChunkRow.mk owner (pack collate (mergeBuffer collate
        ((old.map fun row => unpack row.packed).getD {}) (.ofData data) chunk chunkSec))))
      (fun rows entry => by simp [appendChunk])
      (fun rows entry chunk different => by
        have apart : (⟨false, owner, chunk⟩ : RowKey) ≠ ⟨false, owner, entry.1⟩ := by
          simp [different]
        simp only [appendChunk, OrderedMap.get?_set_of_ne _ _ apart])
      store.rows start
    rw [filed]
    cases groups.get? start <;> rfl
  · rename_i other
    have same (rows : OrderedMap RowKey ChunkRow) (entry : Int × List Datum) :
        (appendChunk collate agentId rows entry).get? key = rows.get? key := by
      have apart : key ≠ ⟨false, agentId, entry.1⟩ := by
        rintro rfl
        exact other ⟨rfl, rfl⟩
      simp only [appendChunk, OrderedMap.get?_set_of_ne _ _ apart]
    generalize (groupByChunk batch).entries = entries
    generalize store.rows = rows
    induction entries generalizing rows with
    | nil => rfl
    | cons entry rest ih => rw [List.foldl_cons, ih, same]

theorem positive_ofData {chunk : Int} {data : List Datum}
    (found : (groupByChunk batch).get? chunk = some data) : Positive (.ofData data) := by
  intro mark member
  obtain ⟨datum, inside, rfl⟩ := List.mem_map.mp ((marks_ofData data mark).mp member)
  have own := (OrderedMap.mem_group_entries (OrderedMap.get?_eq_some.mp found)).1
  dsimp only at own
  rw [own] at inside
  have kept := List.mem_filter.mp (List.mem_of_mem_filter inside)
  exact (of_decide_eq_true kept.2).1

variable (collate agentId batch store) in
theorem rowBatch_appendLocal (key : RowKey) :
    (appendLocal collate agentId batch store).rowBatch key = store.rowBatch key ∨
      ∃ data, (groupByChunk batch).get? key.start = some data ∧
        (appendLocal collate agentId batch store).rowBatch key = unpack (pack collate
          (mergeBuffer collate (store.rowBatch key) (.ofData data) key.start chunkSec)) := by
  unfold ChunkStore.rowBatch
  rw [get?_appendLocal]
  split
  · cases found : (groupByChunk batch).get? key.start with
    | none => exact Or.inl rfl
    | some data => exact Or.inr ⟨data, rfl, rfl⟩
  · exact Or.inl rfl

theorem sane_appendLocal (sane : store.Sane) : (appendLocal collate agentId batch store).Sane := by
  constructor
  · intro key row found unlegacy
    rw [get?_appendLocal] at found
    split at found
    · rename_i own
      cases data : (groupByChunk batch).get? key.start with
      | none =>
          rw [data] at found
          exact sane.owner key row found unlegacy
      | some data' =>
          rw [data] at found
          cases found
          exact own.2.symm
    · exact sane.owner key row found unlegacy
  · intro key
    rcases rowBatch_appendLocal collate agentId batch store key with same | ⟨data, found, new⟩
    · rw [same]
      exact sane.rows key
    · rw [new]
      exact positive_unpack_pack (positive_mergeBuffer (sane.rows key) (positive_ofData found))
  · exact sane.objects

/-- An append keeps what is present. -/
theorem present_appendLocal (sane : store.Sane) {owner : AgentId} {mark : Mark}
    (named : mark.Named) (present : store.Present owner mark) :
    (appendLocal collate agentId batch store).Present owner mark := by
  cases present with
  | inr object => exact Or.inr object
  | inl row =>
      apply Or.inl
      rcases rowBatch_appendLocal collate agentId batch store ⟨false, owner, chunkStart mark.ts⟩
        with same | ⟨data, found, new⟩
      · rw [same]
        exact row
      · rw [new]
        exact mem_marks_packed (sane.rows _) (positive_ofData found) (Or.inl row) named
          (within_chunk mark.ts)

/-- What is appended is present. -/
theorem present_of_accepted (sane : store.Sane) {mark : Mark}
    (member : mark ∈ HourFlush.accepted batch) :
    (appendLocal collate agentId batch store).Present agentId mark := by
  obtain ⟨inside, valid⟩ := List.mem_filter.mp member
  obtain ⟨positive, named⟩ := of_decide_eq_true valid
  obtain ⟨datum, listed, same⟩ := List.mem_map.mp inside
  have grouped : datum ∈ (batch.data.filter fun datum => 0 < datum.mark.ts ∧ datum.mark.Named).filter
      fun datum => chunkStart datum.mark.ts = chunkStart mark.ts := by
    simp [listed, same, positive, named]
  have found := OrderedMap.get?_group (fun datum : Datum => chunkStart datum.mark.ts)
    (chunkStart mark.ts) (batch.data.filter fun datum => 0 < datum.mark.ts ∧ datum.mark.Named)
  rw [if_neg (List.ne_nil_of_mem grouped)] at found
  change (groupByChunk batch).get? _ = _ at found
  apply Or.inl
  unfold ChunkStore.rowBatch
  rw [get?_appendLocal, if_pos ⟨rfl, rfl⟩, found]
  apply mem_marks_packed (sane.rows _) (positive_ofData found) (Or.inr _) named
    (within_chunk mark.ts)
  exact (marks_ofData _ _).mpr (List.mem_map.mpr ⟨datum, grouped, same⟩)

/-- Rows to which nothing is appended stay as they are. -/
theorem get?_appendLocal_of_spared {key : RowKey}
    (spared : ∀ mark ∈ HourFlush.accepted batch,
      (⟨false, agentId, chunkStart mark.ts⟩ : RowKey) ≠ key) :
    (appendLocal collate agentId batch store).rows.get? key = store.rows.get? key := by
  rw [get?_appendLocal]
  split
  · rename_i own
    cases found : (groupByChunk batch).get? key.start with
    | none => rfl
    | some data =>
        exfalso
        obtain ⟨grouped, some_⟩ := OrderedMap.mem_group_entries (OrderedMap.get?_eq_some.mp found)
        obtain ⟨datum, inside⟩ := List.exists_mem_of_ne_nil _ some_
        dsimp only at grouped inside
        rw [grouped, List.mem_filter, List.mem_filter] at inside
        apply spared datum.mark
        · exact List.mem_filter.mpr ⟨List.mem_map_of_mem inside.1.1, inside.1.2⟩
        · obtain ⟨legacy, owner, start⟩ := key
          obtain ⟨rfl, rfl⟩ := own
          simpa using inside.2
  · rfl

end Append

/-! The flush. -/

/-- What the row has of the hour is in the object. -/
def RowInObject (store : ChunkStore) (key : HourKey) (entry : RowKey × ChunkRow) : Prop :=
  ∀ mark ∈ (unpack entry.2.packed).marks, mark.Named → hourStart mark.ts = key.2 →
    mark ∈ (store.objectBatch key).marks

/-- What is put has all that the object and the rows have of the hour. -/
structure PutSound (store : ChunkStore) (item : HourItem) (merged : Packed) : Prop where
  positive : Positive (unpack merged)
  object : ∀ mark ∈ (store.objectBatch item.key).marks, mark.Named →
    hourStart mark.ts = item.key.2 → mark ∈ (unpack merged).marks
  rows : ∀ entry ∈ item.rows, ∀ mark ∈ (unpack entry.2.packed).marks, mark.Named →
    hourStart mark.ts = item.key.2 → mark ∈ (unpack merged).marks

def AwaitSound (store : ChunkStore) (item : HourItem) : HourAwait → Prop
  | .get => True
  | .put merged => PutSound store item merged
  | await => ∀ entry ∈ item.left await, RowInObject store item.key entry

def OfItem (item : HourItem) (entry : RowKey × ChunkRow) : Prop :=
  (entry.2.agentId, hourStart entry.1.start) = item.key

def PhaseSound (store : ChunkStore) : FlushPhase → Prop
  | .listing _ listed _ => (listed.map Prod.fst).Nodup
  | .flushing item await rest =>
      (∀ entry ∈ item.left await, OfItem item entry) ∧
        (∀ other ∈ rest, ∀ entry ∈ other.rows, OfItem other entry) ∧ AwaitSound store item await
  | .finished => True

/-- The rows of a phase are as they were read. -/
structure RowsRead (store : ChunkStore) (rows : List (RowKey × ChunkRow)) : Prop where
  current : ∀ entry ∈ rows, store.rows.get? entry.1 = some entry.2
  distinct : (rows.map Prod.fst).Nodup

structure HourFlush.Sound (env : Env) (flush : HourFlush) : Prop where
  sane : flush.store.Sane
  present : ∀ agentId, ∀ mark ∈ flush.committed agentId,
    mark.Named ∧ flush.store.Present agentId mark
  read : RowsRead flush.store (flush.remaining env)
  phase : PhaseSound flush.store flush.phase

theorem RowsRead.sublist {store : ChunkStore} {rows fewer : List (RowKey × ChunkRow)}
    (read : RowsRead store rows) (sublist : fewer.Sublist rows) : RowsRead store fewer :=
  ⟨fun entry member => read.current entry (sublist.subset member),
    read.distinct.sublist (sublist.map Prod.fst)⟩

section Resume

variable {collate : String → String → Bool} {env : Env} {currentAt : Int} {store : ChunkStore}
  {item : HourItem} {rest items : List HourItem} {rows : List (RowKey × ChunkRow)}

theorem rows_nextHour (items : List HourItem) :
    ((nextHour env items).rows env currentAt).Sublist (items.flatMap HourItem.rows) := by
  cases items with
  | nil => exact List.Sublist.refl _
  | cons item rest =>
      simp only [nextHour]
      split
      · exact List.Sublist.refl _
      · exact List.nil_sublist _

theorem phaseSound_nextHour (own : ∀ item ∈ items, ∀ entry ∈ item.rows, OfItem item entry) :
    PhaseSound store (nextHour env items) := by
  cases items with
  | nil => trivial
  | cons item rest =>
      obtain ⟨first, others⟩ := List.forall_mem_cons.mp own
      simp only [nextHour]
      split
      · exact ⟨first, others, trivial⟩
      · trivial

theorem rows_deleteRows (rows : List (RowKey × ChunkRow)) :
    ((deleteRows env item rest rows).rows env currentAt).Sublist
      (rows ++ rest.flatMap HourItem.rows) := by
  cases rows with
  | nil => exact rows_nextHour rest
  | cons row others => exact List.Sublist.refl _

theorem phaseSound_deleteRows (own : ∀ entry ∈ rows, OfItem item entry)
    (others : ∀ other ∈ rest, ∀ entry ∈ other.rows, OfItem other entry)
    (stored : ∀ entry ∈ rows, RowInObject store item.key entry) :
    PhaseSound store (deleteRows env item rest rows) := by
  cases rows with
  | nil => exact phaseSound_nextHour others
  | cons row more => exact ⟨own, others, stored⟩

theorem rowBatch_of_current {entry : RowKey × ChunkRow}
    (current : store.rows.get? entry.1 = some entry.2) :
    store.rowBatch entry.1 = unpack entry.2.packed := by
  unfold ChunkStore.rowBatch
  rw [current]
  rfl

variable (collate) in
/-- The merged rows of an hour have what each row has of it. -/
theorem mergeRows_sound (positive : ∀ entry ∈ item.rows, Positive (unpack entry.2.packed)) :
    Positive (mergeRows collate item) ∧
      ∀ entry ∈ item.rows, ∀ mark ∈ (unpack entry.2.packed).marks, mark.Named →
        hourStart mark.ts = item.key.2 → mark ∈ (mergeRows collate item).marks := by
  suffices every : ∀ (rows : List (RowKey × ChunkRow)) (merged : Batch),
      (∀ entry ∈ rows, Positive (unpack entry.2.packed)) → Positive merged →
        Positive (rows.foldl (fun merged row =>
          mergeBuffer collate merged (unpack row.2.packed) item.key.2 hourSec) merged) ∧
        ∀ mark : Mark, mark.Named → hourStart mark.ts = item.key.2 →
          (mark ∈ merged.marks ∨ ∃ entry ∈ rows, mark ∈ (unpack entry.2.packed).marks) →
            mark ∈ (rows.foldl (fun merged row =>
              mergeBuffer collate merged (unpack row.2.packed) item.key.2 hourSec) merged).marks by
    obtain ⟨whole, keeps⟩ := every item.rows {} positive positive_empty
    exact ⟨whole, fun entry member mark inside named own =>
      keeps mark named own (Or.inr ⟨entry, member, inside⟩)⟩
  intro rows
  induction rows with
  | nil =>
      intro merged _ start
      refine ⟨start, fun mark _ _ inside => ?_⟩
      simpa using inside
  | cons row others ih =>
      intro merged each start
      obtain ⟨first, later⟩ := List.forall_mem_cons.mp each
      obtain ⟨whole, keeps⟩ := ih _ later (positive_mergeBuffer start first)
      refine ⟨whole, fun mark named own inside => keeps mark named own ?_⟩
      have within := within_hour mark.ts
      rw [own] at within
      rcases inside with before | ⟨entry, member, inRow⟩
      · exact Or.inl (mem_marks_mergeBuffer.mpr ⟨Or.inl before, named, within⟩)
      · cases List.mem_cons.mp member with
        | inl same =>
            subst same
            exact Or.inl (mem_marks_mergeBuffer.mpr ⟨Or.inr inRow, named, within⟩)
        | inr other => exact Or.inr ⟨entry, other, inRow⟩

/-- What is read and merged may be put. -/
theorem putSound_get (sane : store.Sane) (read : RowsRead store item.rows) :
    PutSound store item (pack collate (mergeBuffer collate (store.objectBatch item.key)
      (mergeRows collate item) item.key.2 hourSec)) := by
  have each : ∀ entry ∈ item.rows, Positive (unpack entry.2.packed) := by
    intro entry member
    rw [← rowBatch_of_current (read.current entry member)]
    exact sane.rows entry.1
  obtain ⟨whole, keeps⟩ := mergeRows_sound collate each
  have object := sane.objects item.key
  constructor
  · exact positive_unpack_pack (positive_mergeBuffer object whole)
  · intro mark inside named own
    exact mem_marks_packed object whole (Or.inl inside) named (own ▸ within_hour mark.ts)
  · intro entry member mark inside named own
    exact mem_marks_packed object whole (Or.inr (keeps entry member mark inside named own)) named
      (own ▸ within_hour mark.ts)

theorem objectBatch_set (store : ChunkStore) (key other : HourKey) (merged : Packed) :
    ({ store with objects := store.objects.set key merged } : ChunkStore).objectBatch other =
      if other = key then unpack merged else store.objectBatch other := by
  unfold ChunkStore.objectBatch
  rw [OrderedMap.get?_set]
  split <;> rfl

/-- A put keeps what is present. -/
theorem present_put {merged : Packed} (sound : PutSound store item merged) {agentId : AgentId}
    {mark : Mark} (named : mark.Named) (present : store.Present agentId mark) :
    ({ store with objects := store.objects.set item.key merged } : ChunkStore).Present agentId
      mark := by
  cases present with
  | inl row => exact Or.inl row
  | inr object =>
      apply Or.inr
      rw [objectBatch_set]
      split
      · rename_i same
        rw [same] at object
        exact sound.object mark object named (congrArg Prod.snd same)
      · exact object

theorem sane_put {merged : Packed} (sane : store.Sane) (sound : PutSound store item merged) :
    ({ store with objects := store.objects.set item.key merged } : ChunkStore).Sane := by
  refine ⟨sane.owner, sane.rows, fun key => ?_⟩
  rw [objectBatch_set]
  split
  · exact sound.positive
  · exact sane.objects key

theorem rowBatch_erase (store : ChunkStore) (key other : RowKey) :
    ({ store with rows := store.rows.erase key } : ChunkStore).rowBatch other =
      if other = key then {} else store.rowBatch other := by
  unfold ChunkStore.rowBatch
  rw [OrderedMap.get?_erase]
  split <;> rfl

theorem sane_erase (sane : store.Sane) (key : RowKey) :
    ({ store with rows := store.rows.erase key } : ChunkStore).Sane := by
  refine ⟨fun other row found => ?_, fun other => ?_, sane.objects⟩
  · rw [OrderedMap.get?_erase] at found
    split at found
    · cases found
    · exact sane.owner other row found
  · rw [rowBatch_erase]
    split
    · exact positive_empty
    · exact sane.rows other

/-- A row whose marks are in the object of its hour may be deleted. -/
theorem present_erase (sane : store.Sane) {row : RowKey × ChunkRow} (own : OfItem item row)
    (current : store.rows.get? row.1 = some row.2) (stored : RowInObject store item.key row)
    {agentId : AgentId} {mark : Mark} (named : mark.Named) (present : store.Present agentId mark) :
    ({ store with rows := store.rows.erase row.1 } : ChunkStore).Present agentId mark := by
  cases present with
  | inr object => exact Or.inr object
  | inl inRow =>
      by_cases same : (⟨false, agentId, chunkStart mark.ts⟩ : RowKey) = row.1
      · apply Or.inr
        have owner := sane.owner row.1 row.2 current (by rw [← same])
        have key : item.key = (agentId, hourStart mark.ts) := by
          unfold OfItem at own
          rw [← own, owner, ← same, hourStart_chunkStart]
        rw [same, rowBatch_of_current current] at inRow
        have inObject := stored mark inRow named (by rw [key])
        rw [key] at inObject
        exact inObject
      · apply Or.inl
        rw [rowBatch_erase, if_neg same]
        exact inRow

theorem RowsRead.erase {row : RowKey × ChunkRow} {others : List (RowKey × ChunkRow)}
    (read : RowsRead store (row :: others)) :
    RowsRead ({ store with rows := store.rows.erase row.1 } : ChunkStore) others := by
  have distinct := read.distinct
  rw [List.map_cons, List.nodup_cons] at distinct
  refine ⟨fun entry member => ?_, distinct.2⟩
  have different : entry.1 ≠ row.1 := fun same =>
    distinct.1 (same ▸ List.mem_map_of_mem member)
  dsimp only
  rw [OrderedMap.get?_erase_of_ne _ different]
  exact read.current entry (List.mem_cons_of_mem row member)

/-- One step of an hour. -/
theorem sound_resumeHour {await : HourAwait} {committed : AgentId → List Mark}
    (sound : HourFlush.Sound env ⟨store, currentAt, .flushing item await rest, committed⟩) :
    HourFlush.Sound env ⟨(resumeHour collate env store item rest await).1, currentAt,
      (resumeHour collate env store item rest await).2, committed⟩ := by
  obtain ⟨sane, present, read, own, others, await_⟩ := sound
  have readOwn : RowsRead store (item.left await) := read.sublist (List.sublist_append_left _ _)
  cases await with
  | get => exact ⟨sane, present, read, own, others, putSound_get sane readOwn⟩
  | put merged =>
      refine ⟨sane_put sane await_, fun agentId mark member => ?_, ⟨read.current, read.distinct⟩,
        own, others, fun entry member mark inside named hour => ?_⟩
      · obtain ⟨named, before⟩ := present agentId mark member
        exact ⟨named, present_put await_ named before⟩
      · simp only [resumeHour]
        rw [objectBatch_set, if_pos rfl]
        exact await_.rows entry member mark inside named hour
  | head => exact ⟨sane, present, read, own, others, await_⟩
  | readBack =>
      simp only [resumeHour]
      split
      · exact ⟨sane, present, read, own, others, await_⟩
      · exact ⟨sane, present, read.sublist (rows_deleteRows _),
          phaseSound_deleteRows own others await_⟩
  | exportGet => exact ⟨sane, present, read, own, others, await_⟩
  | exportPut attempt =>
      have same : RowsRead ({ store with exports := store.exports.set item.key attempt } :
          ChunkStore) (item.rows ++ rest.flatMap HourItem.rows) := ⟨read.current, read.distinct⟩
      refine ⟨⟨sane.owner, sane.rows, sane.objects⟩, present, same.sublist (rows_deleteRows _), ?_⟩
      exact phaseSound_deleteRows own others await_
  | delete row more =>
      obtain ⟨ownRow, ownMore⟩ := List.forall_mem_cons.mp own
      obtain ⟨storedRow, storedMore⟩ := List.forall_mem_cons.mp await_
      have current : store.rows.get? row.1 = some row.2 :=
        readOwn.current row List.mem_cons_self
      refine ⟨sane_erase sane row.1, fun agentId mark member => ?_,
        read.erase.sublist (rows_deleteRows _), phaseSound_deleteRows ownMore others storedMore⟩
      obtain ⟨named, before⟩ := present agentId mark member
      exact ⟨named, present_erase sane ownRow current storedRow named before⟩

/-! Listing. -/

theorem mem_listPage {rows : OrderedMap RowKey ChunkRow} {legacy : Bool}
    {startAfter : Option RowKey} {entry : RowKey × ChunkRow}
    (member : entry ∈ listPage rows legacy startAfter) : rows.get? entry.1 = some entry.2 := by
  have sorted := (List.mem_insertionSort _).mp (List.mem_of_mem_take member)
  exact OrderedMap.get?_eq_some.mpr (List.mem_of_mem_filter sorted)

theorem nodup_listPage (rows : OrderedMap RowKey ChunkRow) (legacy : Bool)
    (startAfter : Option RowKey) : ((listPage rows legacy startAfter).map Prod.fst).Nodup := by
  apply List.Nodup.sublist ((List.take_sublist _ _).map Prod.fst)
  rw [((List.perm_insertionSort _ _).map Prod.fst).nodup_iff]
  exact rows.nodup_keys.sublist (List.filter_sublist.map Prod.fst)

/-- The items are made of the listed rows of completed hours. -/
theorem rows_completedHours (listed : List (RowKey × ChunkRow)) :
    ((completedHours env currentAt listed).flatMap HourItem.rows).Perm
      (listed.filter fun entry => completedRow env currentAt entry.1) := by
  have grouped := OrderedMap.perm_group
    (fun entry : RowKey × ChunkRow => (entry.2.agentId, hourStart entry.1.start))
    (listed.filter fun entry => completedRow env currentAt entry.1)
  unfold completedHours
  rw [List.flatMap_map]
  exact grouped

theorem ofItem_completedHours {listed : List (RowKey × ChunkRow)} {item : HourItem}
    (member : item ∈ completedHours env currentAt listed) {entry : RowKey × ChunkRow}
    (inside : entry ∈ item.rows) : OfItem item entry := by
  obtain ⟨group, listed, rfl⟩ := List.mem_map.mp member
  rw [(OrderedMap.mem_group_entries listed).1] at inside
  have own := (List.mem_filter.mp inside).2
  rw [decide_eq_true_eq] at own
  exact own

theorem RowsRead.perm {other : List (RowKey × ChunkRow)} (read : RowsRead store rows)
    (perm : other.Perm rows) : RowsRead store other :=
  ⟨fun entry member => read.current entry (perm.mem_iff.mp member),
    (perm.map Prod.fst).nodup_iff.mpr read.distinct⟩

/-- One page. -/
theorem sound_addPage {committed : AgentId → List Mark} {legacy : Bool}
    {listed : List (RowKey × ChunkRow)} {startAfter : Option RowKey}
    (sound : HourFlush.Sound env ⟨store, currentAt, .listing legacy listed startAfter, committed⟩) :
    HourFlush.Sound env
      ⟨store, currentAt, addPage env currentAt store legacy listed startAfter, committed⟩ := by
  obtain ⟨sane, present, read, distinct⟩ := sound
  unfold addPage
  dsimp only
  generalize fresh_ : (listPage store.rows legacy startAfter).filter
    (fun entry => entry.1 ∉ listed.map Prod.fst) = fresh
  have current : ∀ entry ∈ fresh, store.rows.get? entry.1 = some entry.2 := by
    intro entry member
    rw [← fresh_] at member
    exact mem_listPage (List.mem_of_mem_filter member)
  have new : ((listed ++ fresh).map Prod.fst).Nodup := by
    rw [List.map_append, List.nodup_append]
    refine ⟨distinct, ?_, ?_⟩
    · rw [← fresh_]
      exact (nodup_listPage _ _ _).sublist (List.filter_sublist.map Prod.fst)
    · rintro key before _ after rfl
      obtain ⟨entry, member, rfl⟩ := List.mem_map.mp after
      rw [← fresh_] at member
      exact of_decide_eq_true (List.mem_filter.mp member).2 before
  have both : RowsRead store
      ((listed ++ fresh).filter fun entry => completedRow env currentAt entry.1) := by
    constructor
    · intro entry member
      obtain ⟨inside, completed⟩ := List.mem_filter.mp member
      cases List.mem_append.mp inside with
      | inl before => exact read.current entry (List.mem_filter.mpr ⟨before, completed⟩)
      | inr added => exact current entry added
    · exact new.sublist (List.filter_sublist.map Prod.fst)
  split
  · split
    · refine ⟨sane, present, ?_, ?_⟩
      · exact (both.perm (rows_completedHours _)).sublist (rows_nextHour _)
      · exact phaseSound_nextHour fun item member entry inside =>
          ofItem_completedHours member inside
    · exact ⟨sane, present, both, new⟩
  · exact ⟨sane, present, both, new⟩

end Resume

/-! Runs. -/

section Run

variable {collate : String → String → Bool} {env : Env}

theorem phaseSound_of_objects {store after : ChunkStore} {phase : FlushPhase}
    (sound : PhaseSound store phase) (objects : after.objects = store.objects) :
    PhaseSound after phase := by
  have batch (key : HourKey) : after.objectBatch key = store.objectBatch key := by
    unfold ChunkStore.objectBatch
    rw [objects]
  cases phase with
  | listing => exact sound
  | finished => trivial
  | flushing item await rest =>
      obtain ⟨own, others, await_⟩ := sound
      refine ⟨own, others, ?_⟩
      cases await with
      | get => trivial
      | put merged => exact ⟨await_.positive, batch item.key ▸ await_.object, await_.rows⟩
      | head | readBack | exportGet | exportPut | delete =>
          intro entry member mark inside named hour
          rw [batch]
          exact await_ entry member mark inside named hour

theorem sound_append {flush : HourFlush} {agentId : AgentId} {batch : Batch}
    (sound : flush.Sound env) (spares : HourFlush.SparesHeld env flush (.append agentId batch)) :
    (HourFlush.step collate env flush (.append agentId batch)).Sound env := by
  refine ⟨sane_appendLocal sound.sane, fun owner mark member => ?_, ⟨fun entry member => ?_,
    sound.read.distinct⟩, phaseSound_of_objects sound.phase rfl⟩
  · have kept (before : mark ∈ flush.committed owner) : mark.Named ∧
        (appendLocal collate agentId batch flush.store).Present owner mark := by
      obtain ⟨named, present⟩ := sound.present owner mark before
      exact ⟨named, present_appendLocal sound.sane named present⟩
    simp only [HourFlush.step] at member ⊢
    split at member
    · rename_i same
      subst same
      cases List.mem_append.mp member with
      | inl before => exact kept before
      | inr new =>
          have valid := of_decide_eq_true (List.mem_filter.mp new).2
          exact ⟨valid.2, present_of_accepted sound.sane new⟩
    · exact kept member
  · simp only [HourFlush.step]
    rw [get?_appendLocal_of_spared]
    · exact sound.read.current entry member
    · intro mark accepted same
      exact spares mark accepted (same ▸ List.mem_map_of_mem member)

theorem sound_step {flush : HourFlush} {event : ChunkEvent} (sound : flush.Sound env)
    (spares : HourFlush.SparesHeld env flush event) :
    (HourFlush.step collate env flush event).Sound env := by
  cases event with
  | append agentId batch => exact sound_append sound spares
  | resume =>
      obtain ⟨store, currentAt, phase, committed⟩ := flush
      cases phase with
      | listing legacy listed startAfter => exact sound_addPage sound
      | flushing item await rest => exact sound_resumeHour sound
      | finished => exact sound

/-- As long as no append goes to a row that the flush has read and will delete, every point, ping
and proxy check that an append has committed is in a chunk row or in the object of its hour. -/
theorem committed_update_present (collate : String → String → Bool) (env : Env) (currentAt : Int)
    (store : ChunkStore) (sane : store.Sane) (events : List ChunkEvent)
    (spares : Runs.Along (HourFlush.step collate env) (HourFlush.SparesHeld env)
      (HourFlush.start currentAt store) events) (agentId : AgentId) (mark : Mark) :
    let flush := Runs.run (HourFlush.step collate env) (HourFlush.start currentAt store) events
    mark ∈ flush.committed agentId → flush.store.Present agentId mark := by
  intro flush committed
  have sound : flush.Sound env := by
    apply Runs.run_invariant (fun state event sound spares => sound_step sound spares) _ spares
    refine ⟨sane, fun _ _ member => absurd member List.not_mem_nil, ⟨?_, List.nodup_nil⟩,
      List.nodup_nil⟩
    intro entry member
    cases member
  exact (sound.present agentId mark committed).2

end Run

private def nodeAgent : AgentId := ⟨"node", by decide +kernel, by decide⟩

private def sample (ts : Int) : Batch := { points := [⟨ts, [("cpu", 1)], []⟩] }

private def byText (first second : String) : Bool := first ≤ second

private def storedSample : ChunkStore := appendLocal byText nodeAgent (sample 7210) .empty

private theorem sane_storedSample : storedSample.Sane := by
  apply sane_appendLocal
  constructor
  · rintro _ _ ⟨⟩
  · exact fun _ => positive_empty
  · exact fun _ => positive_empty

/-- A point of the hour that is flushed goes to another chunk and stays in its row. -/
theorem committed_update_present_otherChunk :
    (Runs.run (HourFlush.step byText {}) (HourFlush.start 20000 storedSample)
      [.resume, .resume, .append nodeAgent (sample 7800), .resume, .resume, .resume, .resume,
        .resume]).store.Present nodeAgent (.point 7800) :=
  committed_update_present byText {} 20000 storedSample sane_storedSample _ (by decide +kernel)
    nodeAgent (.point 7800) (by decide +kernel)

/-- A point is appended to a row between its reading and its deletion. -/
theorem late_point_deleted :
    let flush := Runs.run (HourFlush.step byText {}) (HourFlush.start 20000 storedSample)
      [.resume, .resume, .append nodeAgent (sample 7211), .resume, .resume, .resume, .resume,
        .resume]
    flush.phase = .finished ∧ flush.committed nodeAgent = [.point 7211] ∧
      flush.store.rows = .empty ∧
      (flush.store.objectBatch (nodeAgent, 7200)).marks = [.point 7210] := by
  refine ⟨?_, ?_, ?_, ?_⟩
  all_goals decide +kernel

end NieSla.Telemetry
