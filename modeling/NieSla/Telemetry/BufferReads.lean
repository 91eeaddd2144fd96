import NieSla.Metrics.History
import NieSla.Telemetry.LastWriter

/-! `read` of the buffer after any appends: of each mark in the range the value that was written last. -/
namespace NieSla.Telemetry

open OrderedMap

/-- The entries of a batch that an append takes. -/
def Batch.accepted (batch : Batch) : List Datum :=
  batch.data.filter fun datum => 0 < datum.mark.ts ∧ datum.mark.Named

/-- Appends by their agents, one after the other. -/
abbrev AppendLog := List (AgentId × Batch)

def written (agentId : AgentId) (log : AppendLog) : List Datum :=
  log.flatMap fun entry => if entry.1 = agentId then entry.2.accepted else []

section Store

variable (collate : String → String → Bool)

def appendAll (log : AppendLog) : ChunkStore :=
  log.foldl (fun store entry => appendLocal collate entry.1 entry.2 store) .empty

/-- The rows with the two prefixes, each in the order of the keys. -/
def bufferRows (store : ChunkStore) : List (RowKey × ChunkRow) :=
  let listed (legacy : Bool) := (store.rows.entries.filter fun entry => entry.1.legacy = legacy).insertionSort
    fun first second => first.1.text ≤ second.1.text
  listed false ++ listed true

/-- `read` -/
def readBuffer (start stop : Int) (scopedAgentId : Option AgentId) (store : ChunkStore) : Batch :=
  let rows := (bufferRows store).filter fun row => scopedAgentId.all fun agentId => row.2.agentId = agentId
  let within (ts : Int) : Bool := start ≤ ts ∧ ts ≤ stop
  { points := Metrics.tail (byTs ((rows.flatMap fun row => (unpack row.2.packed).points).filter
      fun point => within point.ts))
    pings := Metrics.tail (((rows.flatMap fun row => (unpack row.2.packed).pings).filter
      fun ping => within ping.ts).insertionSort (tsThenTarget collate Ping.targetId Ping.ts))
    proxyChecks := Metrics.tail (((rows.flatMap fun row => (unpack row.2.packed).proxyChecks).filter
      fun check => within check.ts).insertionSort (tsThenTarget collate ProxyCheck.targetId ProxyCheck.ts)) }

end Store

/-- Of each mark in the range what was written last; a check has the name and the protocol of the earliest check of
its target in its chunk, and its texts as long as a series stores them. -/
def lastWritten (start stop : Int) (data : Batch) : Batch :=
  let within (ts : Int) : Bool := start ≤ ts ∧ ts ≤ stop
  { points := byTs ((latest MetricPoint.ts data.points).filter fun point => within point.ts)
    pings := (latest pingMark data.pings).filter fun ping => within ping.ts
    proxyChecks := (storedChecks data.proxyChecks).filter fun check => within check.ts }

/-- The same entries; those of one time whose targets the locale does not tell apart may be in another order. -/
structure SameItems (first second : Batch) : Prop where
  points : first.points = second.points
  pings : first.pings.Perm second.pings
  proxyChecks : first.proxyChecks.Perm second.proxyChecks

/-- No two entries have the same mark. -/
structure OneEach (batch : Batch) : Prop where
  points : (batch.points.map MetricPoint.ts).Nodup
  pings : (batch.pings.map pingMark).Nodup
  proxyChecks : (batch.proxyChecks.map checkMark).Nodup

/-- The read returns no more than this of each. -/
structure Capped (batch : Batch) : Prop where
  points : batch.points.length ≤ Metrics.maxBufferReadPoints
  pings : batch.pings.length ≤ Metrics.maxBufferReadPoints
  proxyChecks : batch.proxyChecks.length ≤ Metrics.maxBufferReadPoints

/-! The chunks of the log. -/

def ofChunk (chunk : Int) (data : List Datum) : Batch := .ofData (data.filter fun datum => chunkStart datum.mark.ts = chunk)

theorem ofData_append (first second : List Datum) :
    Batch.ofData (first ++ second) = (Batch.ofData first).append (.ofData second) := by
  simp [Batch.ofData, Batch.append]

theorem ofChunk_append (chunk : Int) (first second : List Datum) :
    ofChunk chunk (first ++ second) = (ofChunk chunk first).append (ofChunk chunk second) := by
  rw [ofChunk, List.filter_append, ofData_append]
  rfl

theorem Lossless.mono {some_ points : List MetricPoint} (lossless : Lossless points) (subset : some_ ⊆ points) :
    Lossless some_ := fun list inside =>
  lossless list (List.Subset.trans inside subset)

theorem written_concat (agentId : AgentId) (log : AppendLog) (entry : AgentId × Batch) :
    written agentId (log ++ [entry]) = written agentId log ++ if entry.1 = agentId then entry.2.accepted else [] := by
  simp [written]

theorem ofChunk_accepted {agentId : AgentId} {log : AppendLog} (chunk : Int) :
    OfChunk chunk (ofChunk chunk (written agentId log)) := by
  intro mark member
  obtain ⟨datum, inside, rfl⟩ := List.mem_map.mp ((marks_ofData _ mark).mp member)
  obtain ⟨among, same⟩ := List.mem_filter.mp inside
  obtain ⟨entry, -, from_⟩ := List.mem_flatMap.mp among
  split_ifs at from_ with own
  · have taken := (List.mem_filter.mp from_).2
    obtain ⟨positive, named⟩ := of_decide_eq_true taken
    exact ⟨positive, named, of_decide_eq_true same⟩
  · cases from_

variable {collate : String → String → Bool}

theorem appendAll_concat (log : AppendLog) (entry : AgentId × Batch) :
    appendAll collate (log ++ [entry]) = appendLocal collate entry.1 entry.2 (appendAll collate log) := by
  simp [appendAll]

theorem ofChunk_points_subset (chunk : Int) (data : List Datum) :
    (ofChunk chunk data).points ⊆ (Batch.ofData data).points :=
  (List.filter_sublist.filterMap _).subset

/-- What an append makes of the row of a chunk. -/
theorem rowBatch_appendLocal_own (agentId : AgentId) (batch : Batch) (store : ChunkStore) (chunk : Int) :
    (appendLocal collate agentId batch store).rowBatch ⟨false, agentId, chunk⟩ =
      if batch.accepted.filter (fun datum => chunkStart datum.mark.ts = chunk) = [] then
        store.rowBatch ⟨false, agentId, chunk⟩
      else unpack (pack collate (mergeBuffer collate (store.rowBatch ⟨false, agentId, chunk⟩)
        (ofChunk chunk batch.accepted) chunk chunkSec)) := by
  have found : (groupByChunk batch).get? chunk = _ :=
    get?_group (fun datum : Datum => chunkStart datum.mark.ts) chunk batch.accepted
  rw [ChunkStore.rowBatch, get?_appendLocal, if_pos ⟨rfl, rfl⟩, found]
  split_ifs <;> rfl

theorem rowBatch_appendLocal_other {agentId other : AgentId} (apart : other ≠ agentId) (batch : Batch)
    (store : ChunkStore) (chunk : Int) :
    (appendLocal collate other batch store).rowBatch ⟨false, agentId, chunk⟩ =
      store.rowBatch ⟨false, agentId, chunk⟩ := by
  rw [ChunkStore.rowBatch, get?_appendLocal, if_neg fun own => apart own.2.symm]
  rfl

theorem append_empty (batch : Batch) : batch.append {} = batch := by
  simp [Batch.append]

/-- The row of a chunk holds the latest of what the agent wrote of it. -/
theorem held_appendAll {agentId : AgentId} {log : AppendLog}
    (lossless : Lossless (Batch.ofData (written agentId log)).points) (chunk : Int) :
    Held (ofChunk chunk (written agentId log)) ((appendAll collate log).rowBatch ⟨false, agentId, chunk⟩) := by
  induction log using List.reverseRecOn with
  | nil => exact ⟨.refl _, .refl _, .refl _⟩
  | append_singleton log entry ih =>
      obtain ⟨owner, batch⟩ := entry
      have old : OfChunk chunk (ofChunk chunk (written agentId log)) := ofChunk_accepted chunk
      have whole : OfChunk chunk (ofChunk chunk (written agentId (log ++ [(owner, batch)]))) := ofChunk_accepted chunk
      rw [written_concat] at lossless whole ⊢
      rw [appendAll_concat]
      have before := ih (lossless.mono (by rw [ofData_append]; exact List.subset_append_left _ _))
      by_cases own : owner = agentId
      · subst own
        rw [if_pos rfl] at lossless whole ⊢
        rw [ofChunk_append] at whole ⊢
        rw [rowBatch_appendLocal_own]
        split_ifs with none_
        · have empty : ofChunk chunk batch.accepted = {} := by rw [ofChunk, none_]; rfl
          rw [empty, append_empty]
          exact before
        · refine before.append collate old (fun mark member => whole mark (mem_marks_append.mpr (.inr member))) ?_
          rw [← ofChunk_append]
          exact lossless.mono (ofChunk_points_subset chunk _)
      · rw [if_neg own, List.append_nil, rowBatch_appendLocal_other own]
        exact before

/-! The rows of an agent. -/

theorem row_appendAll {log : AppendLog} {key : RowKey} {row : ChunkRow}
    (found : (appendAll collate log).rows.get? key = some row) : key.legacy = false ∧ row.agentId = key.agentId := by
  induction log using List.reverseRecOn with
  | nil => cases found
  | append_singleton log entry ih =>
      rw [appendAll_concat, get?_appendLocal] at found
      split_ifs at found with own
      · cases groups : (groupByChunk entry.2).get? key.start with
        | none =>
            rw [groups] at found
            exact ih found
        | some data =>
            rw [groups] at found
            cases found
            exact ⟨own.1, own.2.symm⟩
      · exact ih found

theorem perm_bufferRows (store : ChunkStore) : (bufferRows store).Perm store.rows.entries := by
  refine ((List.perm_insertionSort _ _).append (List.perm_insertionSort _ _)).trans ?_
  have others : (store.rows.entries.filter fun entry => decide (entry.1.legacy = true)) =
      store.rows.entries.filter fun entry => !decide (entry.1.legacy = false) :=
    List.filter_congr fun entry _ => by cases entry.1.legacy <;> rfl
  rw [others]
  exact List.filter_append_perm _ _

/-- The rows of the agent hold, chunk by chunk, what is asked for. -/
theorem perm_rows {α : Type} {items : Batch → List α} (ts : α → Int) {log : AppendLog} {agentId : AgentId}
    {want : List α} (nothing : items {} = []) (distinct : want.Nodup)
    (own : ∀ chunk, (items ((appendAll collate log).rowBatch ⟨false, agentId, chunk⟩)).Nodup ∧
      ∀ item ∈ items ((appendAll collate log).rowBatch ⟨false, agentId, chunk⟩), chunkStart (ts item) = chunk)
    (mem : ∀ item, item ∈ want ↔
      item ∈ items ((appendAll collate log).rowBatch ⟨false, agentId, chunkStart (ts item)⟩)) :
    (((bufferRows (appendAll collate log)).filter fun row => (some agentId).all fun agentId =>
      row.2.agentId = agentId).flatMap fun row => items (unpack row.2.packed)).Perm want := by
  set rows := (bufferRows (appendAll collate log)).filter fun row => (some agentId).all fun agentId =>
    row.2.agentId = agentId with rows_
  have listed (row : RowKey × ChunkRow) : row ∈ rows ↔
      row.1 = ⟨false, agentId, row.1.start⟩ ∧ (appendAll collate log).rows.get? row.1 = some row.2 := by
    rw [rows_, List.mem_filter, (perm_bufferRows _).mem_iff, get?_eq_some, Option.all_some, decide_eq_true_eq]
    constructor
    · rintro ⟨member, same⟩
      obtain ⟨legacy, owner⟩ := row_appendAll (get?_eq_some.mpr member)
      obtain ⟨⟨legacy_, owner_, start⟩, row⟩ := row
      cases legacy
      exact ⟨by rw [← same, owner], member⟩
    · rintro ⟨key, member⟩
      obtain ⟨-, owner⟩ := row_appendAll (get?_eq_some.mpr member)
      exact ⟨member, by rw [owner, key]⟩
  have content {row : RowKey × ChunkRow} (member : row ∈ rows) :
      unpack row.2.packed = (appendAll collate log).rowBatch ⟨false, agentId, row.1.start⟩ := by
    obtain ⟨key, found⟩ := (listed row).mp member
    rw [ChunkStore.rowBatch, ← key, found]
    rfl
  have apart : rows.Pairwise fun first second => first.1.start ≠ second.1.start := by
    have keys : (rows.map Prod.fst).Nodup :=
      (((perm_bufferRows _).map Prod.fst).nodup_iff.mpr (appendAll collate log).rows.nodup_keys).sublist
        (List.filter_sublist.map Prod.fst)
    refine (List.pairwise_map.mp keys).imp_of_mem fun {first second} left right different same => different ?_
    rw [((listed first).mp left).1, ((listed second).mp right).1, same]
  have each {row : RowKey × ChunkRow} (member : row ∈ rows) {item : α} (inside : item ∈ items (unpack row.2.packed)) :
      chunkStart (ts item) = row.1.start := by
    rw [content member] at inside
    exact (own _).2 item inside
  have nodup : (rows.flatMap fun row => items (unpack row.2.packed)).Nodup := by
    refine List.nodup_flatMap.mpr ⟨fun row member => ?_, ?_⟩
    · rw [content member]
      exact (own _).1
    · refine apart.imp_of_mem fun {first second} left right different item here there => different ?_
      rw [← each left here, ← each right there]
  refine (List.perm_ext_iff_of_nodup nodup distinct).mpr fun item => ?_
  rw [mem, List.mem_flatMap]
  constructor
  · rintro ⟨row, member, inside⟩
    rw [each member inside, ← content member]
    exact inside
  · intro inside
    cases found : (appendAll collate log).rows.get? ⟨false, agentId, chunkStart (ts item)⟩ with
    | none =>
        rw [ChunkStore.rowBatch, found, Option.map_none, Option.getD_none, nothing] at inside
        cases inside
    | some row =>
        refine ⟨(⟨false, agentId, chunkStart (ts item)⟩, row), (listed _).mpr ⟨rfl, found⟩, ?_⟩
        rw [ChunkStore.rowBatch, found] at inside
        exact inside

/-! What the agent wrote, and what it wrote of a chunk. -/

section Split

variable {data : List Datum} {chunk : Int}

theorem filterMap_filter_comm {α : Type} (pick : Datum → Option α) (ts : α → Int)
    (same : ∀ datum item, pick datum = some item → datum.mark.ts = ts item) (data : List Datum) :
    (data.filter fun datum => chunkStart datum.mark.ts = chunk).filterMap pick =
      (data.filterMap pick).filter fun item => chunkStart (ts item) = chunk := by
  induction data with
  | nil => rfl
  | cons datum rest ih =>
      rw [List.filter_cons]
      cases picked : pick datum with
      | none => split_ifs <;> simp [picked, ih]
      | some item =>
          have time := same datum item picked
          by_cases here : chunkStart datum.mark.ts = chunk
          · simp [picked, ih, here, ← time]
          · simp [picked, ih, here, ← time]

theorem ofChunk_eq (chunk : Int) (data : List Datum) :
    ofChunk chunk data =
      { points := (Batch.ofData data).points.filter fun point => chunkStart point.ts = chunk
        pings := (Batch.ofData data).pings.filter fun ping => chunkStart ping.ts = chunk
        proxyChecks := (Batch.ofData data).proxyChecks.filter fun check => chunkStart check.ts = chunk } := by
  unfold ofChunk Batch.ofData
  congr 1
  · exact filterMap_filter_comm _ MetricPoint.ts (fun datum item picked => by cases datum <;> cases picked; rfl) data
  · exact filterMap_filter_comm _ Ping.ts (fun datum item picked => by cases datum <;> cases picked; rfl) data
  · exact filterMap_filter_comm _ ProxyCheck.ts (fun datum item picked => by cases datum <;> cases picked; rfl) data

/-- The latest writes of a chunk are those of its times. -/
theorem mem_latest_filter {α κ : Type} [DecidableEq κ] {key : α → κ} {ts : α → Int}
    (timed : ∀ first second, key first = key second → ts first = ts second) {items : List α} {item : α} :
    item ∈ latest key (items.filter fun item => chunkStart (ts item) = chunk) ↔
      item ∈ latest key items ∧ chunkStart (ts item) = chunk := by
  by_cases here : chunkStart (ts item) = chunk
  · rw [mem_latest, mem_latest, lastBy_filter]
    · simp [here]
    · intro other same
      simp [timed other item same, here]
  · refine ⟨fun member => ?_, fun both => absurd both.2 here⟩
    exact absurd (of_decide_eq_true (List.mem_filter.mp (mem_of_mem_latest member)).2) here

/-- A series has the checks of one chunk. -/
theorem asStored_filter {checks : List ProxyCheck} {check : ProxyCheck} (member : check ∈ latest checkMark checks)
    (here : chunkStart check.ts = chunk) :
    asStored (latest checkMark (checks.filter fun other => chunkStart other.ts = chunk)) check =
      asStored (latest checkMark checks) check := by
  have timed (first second : ProxyCheck) (same : checkMark first = checkMark second) : first.ts = second.ts :=
    congrArg Prod.snd same
  have isHead := isHead_seriesHead ⟨check, member, rfl, rfl⟩
  unfold asStored
  rw [seriesHead_eq (nodup_latest checkMark _)]
  refine ⟨(mem_latest_filter timed).mpr ⟨isHead.listed, isHead.same.2.trans here⟩, isHead.same, ?_⟩
  exact fun other among same => isHead.first other ((mem_latest_filter timed).mp among).1 same

theorem mem_storedChecks_filter {checks : List ProxyCheck} {check : ProxyCheck} :
    check ∈ storedChecks (checks.filter fun other => chunkStart other.ts = chunk) ↔
      check ∈ storedChecks checks ∧ chunkStart check.ts = chunk := by
  have timed (first second : ProxyCheck) (same : checkMark first = checkMark second) : first.ts = second.ts :=
    congrArg Prod.snd same
  simp only [storedChecks, List.mem_map]
  constructor
  · rintro ⟨source, member, rfl⟩
    obtain ⟨listed, here⟩ := (mem_latest_filter timed).mp member
    exact ⟨⟨source, listed, (asStored_filter listed here).symm⟩, by rw [asStored_ts, here]⟩
  · rintro ⟨⟨source, listed, rfl⟩, here⟩
    rw [asStored_ts] at here
    exact ⟨source, (mem_latest_filter timed).mpr ⟨listed, here⟩, asStored_filter listed here⟩

end Split

theorem nodup_storedChecks (checks : List ProxyCheck) : ((storedChecks checks).map checkMark).Nodup := by
  rw [storedChecks, map_key_map (checkMark_asStored _)]
  exact nodup_latest checkMark checks

section Read

variable {agentId : AgentId} {log : AppendLog} (lossless : Lossless (Batch.ofData (written agentId log)).points)

include lossless

variable (collate) in
theorem rows_points :
    (((bufferRows (appendAll collate log)).filter fun row => (some agentId).all fun agentId =>
      row.2.agentId = agentId).flatMap fun row => (unpack row.2.packed).points).Perm
      (latest MetricPoint.ts (Batch.ofData (written agentId log)).points) := by
  have mem (chunk : Int) (point : MetricPoint) :
      point ∈ ((appendAll collate log).rowBatch ⟨false, agentId, chunk⟩).points ↔
        point ∈ latest MetricPoint.ts (Batch.ofData (written agentId log)).points ∧ chunkStart point.ts = chunk := by
    rw [(held_appendAll lossless chunk).points.mem_iff, ofChunk_eq]
    exact mem_latest_filter fun _ _ same => same
  refine perm_rows MetricPoint.ts rfl (nodup_latest _ _).of_map (fun chunk => ⟨?_, ?_⟩) fun point => ?_
  · exact (held_appendAll lossless chunk).points.nodup_iff.mpr (nodup_latest _ _).of_map
  · exact fun point inside => ((mem chunk point).mp inside).2
  · rw [mem]
    exact (and_iff_left rfl).symm

variable (collate) in
theorem rows_pings :
    (((bufferRows (appendAll collate log)).filter fun row => (some agentId).all fun agentId =>
      row.2.agentId = agentId).flatMap fun row => (unpack row.2.packed).pings).Perm
      (latest pingMark (Batch.ofData (written agentId log)).pings) := by
  have mem (chunk : Int) (ping : Ping) :
      ping ∈ ((appendAll collate log).rowBatch ⟨false, agentId, chunk⟩).pings ↔
        ping ∈ latest pingMark (Batch.ofData (written agentId log)).pings ∧ chunkStart ping.ts = chunk := by
    rw [(held_appendAll lossless chunk).pings.mem_iff, ofChunk_eq]
    exact mem_latest_filter fun _ _ same => congrArg Prod.snd same
  refine perm_rows Ping.ts rfl (nodup_latest _ _).of_map (fun chunk => ⟨?_, ?_⟩) fun ping => ?_
  · exact (held_appendAll lossless chunk).pings.nodup_iff.mpr (nodup_latest _ _).of_map
  · exact fun ping inside => ((mem chunk ping).mp inside).2
  · rw [mem]
    exact (and_iff_left rfl).symm

variable (collate) in
theorem rows_proxyChecks :
    (((bufferRows (appendAll collate log)).filter fun row => (some agentId).all fun agentId =>
      row.2.agentId = agentId).flatMap fun row => (unpack row.2.packed).proxyChecks).Perm
      (storedChecks (Batch.ofData (written agentId log)).proxyChecks) := by
  have mem (chunk : Int) (check : ProxyCheck) :
      check ∈ ((appendAll collate log).rowBatch ⟨false, agentId, chunk⟩).proxyChecks ↔
        check ∈ storedChecks (Batch.ofData (written agentId log)).proxyChecks ∧ chunkStart check.ts = chunk := by
    rw [(held_appendAll lossless chunk).proxyChecks.mem_iff, ofChunk_eq]
    exact mem_storedChecks_filter
  refine perm_rows ProxyCheck.ts rfl (nodup_storedChecks _).of_map (fun chunk => ⟨?_, ?_⟩) fun check => ?_
  · exact (held_appendAll lossless chunk).proxyChecks.nodup_iff.mpr (nodup_storedChecks _).of_map
  · exact fun check inside => ((mem chunk check).mp inside).2
  · rw [mem]
    exact (and_iff_left rfl).symm

omit lossless in
theorem tail_perm {α : Type} {list want : List α} (perm : list.Perm want)
    (short : want.length ≤ Metrics.maxBufferReadPoints) : (Metrics.tail list).Perm want := by
  rw [← perm.length_eq] at short
  rwa [Metrics.tail, Nat.sub_eq_zero_of_le short, List.drop_zero]

omit lossless in
theorem tail_eq {α : Type} {list want : List α} (same : list = want)
    (short : want.length ≤ Metrics.maxBufferReadPoints) : Metrics.tail list = want := by
  rw [same, Metrics.tail, Nat.sub_eq_zero_of_le short, List.drop_zero]

omit lossless in
/-- Points of distinct times have one order. -/
theorem byTs_eq_of_perm {first second : List MetricPoint} (distinct : (first.map MetricPoint.ts).Nodup)
    (perm : first.Perm second) : byTs first = byTs second := by
  have sorted (points : List MetricPoint) : (byTs points).Pairwise fun first second => first.ts ≤ second.ts :=
    List.pairwise_insertionSort _ _
  have whole : (byTs first).Perm (byTs second) :=
    (List.perm_insertionSort _ _).trans (perm.trans (List.perm_insertionSort _ _).symm)
  refine whole.eq_of_pairwise (fun left right inside there below above => ?_) (sorted first) (sorted second)
  exact List.inj_on_of_nodup_map distinct (mem_byTs.mp inside) (perm.mem_iff.mpr (mem_byTs.mp there))
    (le_antisymm below above)

variable (collate) in
theorem readBuffer_appendAll (start stop : Int)
    (capped : Capped (lastWritten start stop (.ofData (written agentId log)))) :
    SameItems (readBuffer collate start stop (some agentId) (appendAll collate log))
      (lastWritten start stop (.ofData (written agentId log))) := by
  have points := (rows_points collate lossless).filter fun point =>
    decide (start ≤ point.ts ∧ point.ts ≤ stop)
  have pings := (rows_pings collate lossless).filter fun ping =>
    decide (start ≤ ping.ts ∧ ping.ts ≤ stop)
  have checks := (rows_proxyChecks collate lossless).filter fun check =>
    decide (start ≤ check.ts ∧ check.ts ≤ stop)
  have distinct := (points.map MetricPoint.ts).nodup_iff.mpr
    ((nodup_latest MetricPoint.ts _).sublist (List.filter_sublist.map MetricPoint.ts))
  have same : byTs _ = (lastWritten start stop (.ofData (written agentId log))).points :=
    byTs_eq_of_perm distinct points
  refine ⟨?_, ?_, ?_⟩ <;> dsimp only [readBuffer]
  · rw [same]
    exact tail_eq rfl capped.points
  · exact tail_perm ((List.perm_insertionSort _ _).trans pings) capped.pings
  · exact tail_perm ((List.perm_insertionSort _ _).trans checks) capped.proxyChecks

end Read

end NieSla.Telemetry
