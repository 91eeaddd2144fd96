import NieSla.Telemetry.BufferReads

/-! Appends in another order: the buffer depends on the last writer of each mark, so a batch that is appended again
changes nothing, and batches without a common mark may be appended in any order. -/
namespace NieSla.Telemetry

open OrderedMap

/-- Under each mark the same entry was written last. -/
def SameWrites (first second : List Datum) : Prop := ∀ mark, lastBy Datum.mark mark first = lastBy Datum.mark mark second

/-- Batches of different agents, or without a common mark. -/
def Apart (first second : AgentId × Batch) : Prop :=
  first.1 = second.1 → ∀ datum ∈ first.2.accepted, ∀ other ∈ second.2.accepted, datum.mark ≠ other.mark

theorem Apart.symm {first second : AgentId × Batch} (apart : Apart first second) : Apart second first :=
  fun same datum here other there => (apart same.symm other there datum here).symm

namespace SameWrites

variable {first second : List Datum}

theorem symm (same : SameWrites first second) : SameWrites second first := fun mark => (same mark).symm

theorem append {first' second' : List Datum} (front : SameWrites first first') (back : SameWrites second second') :
    SameWrites (first ++ second) (first' ++ second') := fun mark => by
  rw [lastBy_append, lastBy_append, front, back]

theorem twice (data : List Datum) : SameWrites (data ++ data) data := fun mark => by
  rw [lastBy_append]
  cases lastBy Datum.mark mark data <;> rfl

theorem swap (apart : ∀ datum ∈ first, ∀ other ∈ second, datum.mark ≠ other.mark) :
    SameWrites (first ++ second) (second ++ first) := fun mark => by
  rw [lastBy_append, lastBy_append]
  cases here : lastBy Datum.mark mark first with
  | none => simp
  | some datum =>
      have absent : lastBy Datum.mark mark second = none := lastBy_eq_none.mpr fun other member same =>
        apart datum (mem_of_lastBy here) other member ((key_of_lastBy here).trans same.symm)
      simp [absent]

end SameWrites

theorem written_cons (agentId : AgentId) (entry : AgentId × Batch) (log : AppendLog) :
    written agentId (entry :: log) = written agentId [entry] ++ written agentId log := by
  simp [written]

theorem written_append (agentId : AgentId) (first second : AppendLog) :
    written agentId (first ++ second) = written agentId first ++ written agentId second := by
  simp [written]

theorem mem_written_singleton {agentId : AgentId} {entry : AgentId × Batch} {datum : Datum} :
    datum ∈ written agentId [entry] ↔ entry.1 = agentId ∧ datum ∈ entry.2.accepted := by
  simp only [written, List.flatMap_cons, List.flatMap_nil, List.append_nil]
  split_ifs with own <;> simp [own]

theorem sameWrites_of_perm (agentId : AgentId) {middle middle' : AppendLog} (perm : middle.Perm middle')
    (apart : middle.Pairwise Apart) : SameWrites (written agentId middle) (written agentId middle') := by
  induction perm with
  | nil => exact fun _ => rfl
  | @cons entry middle middle' _ ih =>
      rw [written_cons agentId entry middle, written_cons agentId entry middle']
      exact SameWrites.append (fun _ => rfl) (ih (List.pairwise_cons.mp apart).2)
  | swap first second rest =>
      have disjoint : Apart second first := (List.pairwise_cons.mp apart).1 first List.mem_cons_self
      have parts (one two : AgentId × Batch) :
          written agentId (one :: two :: rest) = written agentId [one] ++ written agentId [two] ++ written agentId rest := by
        rw [written_cons agentId one, written_cons agentId two, List.append_assoc]
      rw [parts, parts]
      refine SameWrites.append (SameWrites.swap fun datum here other there => ?_) fun _ => rfl
      obtain ⟨own, here⟩ := mem_written_singleton.mp here
      obtain ⟨too, there⟩ := mem_written_singleton.mp there
      exact disjoint (own.trans too.symm) datum here other there
  | trans before _ one two =>
      exact fun mark => (one apart mark).trans
        (two ((before.pairwise_iff fun {_ _} apart => apart.symm).mp apart) mark)

/-! What is read depends on the last writers. -/

/-- The last item of a key among those that are picked. -/
theorem lastBy_filterMap {α κ : Type} [DecidableEq κ] {key : α → κ} {k : κ} {pick : Datum → Option α} {mark : Mark}
    (marked : ∀ datum, datum.mark = mark ↔ ∃ item, pick datum = some item ∧ key item = k) (data : List Datum) :
    lastBy key k (data.filterMap pick) = (lastBy Datum.mark mark data).bind pick := by
  induction data using List.reverseRecOn with
  | nil => rfl
  | append_singleton rest datum ih =>
      rw [List.filterMap_append, lastBy_append, lastBy_concat, ih]
      cases picked : pick datum with
      | none =>
          have other : datum.mark ≠ mark := fun same => by
            obtain ⟨item, found, -⟩ := (marked datum).mp same
            rw [picked] at found
            cases found
          rw [if_neg other, List.filterMap_cons_none picked]
          rfl
      | some item =>
          have own : datum.mark = mark ↔ key item = k := by
            rw [marked, picked]
            simp
          by_cases same : key item = k
          · simp [picked, own.mpr same, lastBy_cons, same]
          · simp [picked, mt own.mp same, lastBy_cons, same]

theorem lastBy_points (data : List Datum) (ts : Int) : lastBy MetricPoint.ts ts (Batch.ofData data).points =
    (lastBy Datum.mark (.point ts) data).bind fun | .point point => some point | _ => none :=
  lastBy_filterMap (fun datum => by cases datum <;> simp [Datum.mark]) data

theorem lastBy_pings (data : List Datum) (k : String × Int) : lastBy pingMark k (Batch.ofData data).pings =
    (lastBy Datum.mark (.ping k.1 k.2) data).bind fun | .ping ping => some ping | _ => none :=
  lastBy_filterMap (fun datum => by cases datum <;> simp [Datum.mark, pingMark, Prod.ext_iff]) data

theorem lastBy_proxyChecks (data : List Datum) (k : String × Int) :
    lastBy checkMark k (Batch.ofData data).proxyChecks =
      (lastBy Datum.mark (.proxyCheck k.1 k.2) data).bind fun | .proxyCheck check => some check | _ => none :=
  lastBy_filterMap (fun datum => by cases datum <;> simp [Datum.mark, checkMark, Prod.ext_iff]) data

theorem storedChecks_perm {first second : List ProxyCheck}
    (same : ∀ k, lastBy checkMark k first = lastBy checkMark k second) :
    (storedChecks first).Perm (storedChecks second) := by
  have perm : (latest checkMark first).Perm (latest checkMark second) := latest_perm same
  have stored : (latest checkMark first).map (asStored (latest checkMark first)) =
      (latest checkMark first).map (asStored (latest checkMark second)) := by
    refine List.map_congr_left fun check member => ?_
    have isHead := isHead_seriesHead ⟨check, member, rfl, rfl⟩
    have head : seriesHead (latest checkMark second) check = seriesHead (latest checkMark first) check :=
      seriesHead_eq (nodup_latest _ _) ⟨perm.mem_iff.mp isHead.listed, isHead.same,
        fun other among => isHead.first other (perm.mem_iff.mpr among)⟩
    rw [asStored, asStored, head]
  rw [storedChecks, stored]
  exact perm.map _

theorem lastWritten_same (start stop : Int) {first second : List Datum} (same : SameWrites first second) :
    SameItems (lastWritten start stop (.ofData first)) (lastWritten start stop (.ofData second)) := by
  have points : (latest MetricPoint.ts (Batch.ofData first).points).Perm
      (latest MetricPoint.ts (Batch.ofData second).points) :=
    latest_perm fun ts => by rw [lastBy_points, lastBy_points, same]
  have pings : (latest pingMark (Batch.ofData first).pings).Perm (latest pingMark (Batch.ofData second).pings) :=
    latest_perm fun k => by rw [lastBy_pings, lastBy_pings, same]
  have checks : (storedChecks (Batch.ofData first).proxyChecks).Perm
      (storedChecks (Batch.ofData second).proxyChecks) :=
    storedChecks_perm fun k => by rw [lastBy_proxyChecks, lastBy_proxyChecks, same]
  refine ⟨byTs_eq_of_perm ?_ (points.filter _), pings.filter _, checks.filter _⟩
  exact (nodup_latest MetricPoint.ts _).sublist (List.filter_sublist.map MetricPoint.ts)

theorem oneEach_lastWritten (start stop : Int) (data : Batch) : OneEach (lastWritten start stop data) := by
  refine ⟨?_, ?_, ?_⟩
  · exact ((List.perm_insertionSort _ _).map _).nodup_iff.mpr
      ((nodup_latest MetricPoint.ts _).sublist (List.filter_sublist.map MetricPoint.ts))
  · exact (nodup_latest pingMark _).sublist (List.filter_sublist.map pingMark)
  · exact (nodup_storedChecks _).sublist (List.filter_sublist.map checkMark)

namespace SameItems

variable {first second third : Batch}

theorem symm (same : SameItems first second) : SameItems second first :=
  ⟨same.points.symm, same.pings.symm, same.proxyChecks.symm⟩

theorem trans (one : SameItems first second) (two : SameItems second third) : SameItems first third :=
  ⟨one.points.trans two.points, one.pings.trans two.pings, one.proxyChecks.trans two.proxyChecks⟩

theorem capped (same : SameItems first second) (capped : Capped first) : Capped second :=
  ⟨same.points ▸ capped.points, same.pings.length_eq ▸ capped.pings, same.proxyChecks.length_eq ▸ capped.proxyChecks⟩

theorem oneEach (same : SameItems first second) (each : OneEach first) : OneEach second :=
  ⟨same.points ▸ each.points, (same.pings.map _).nodup_iff.mp each.pings,
    (same.proxyChecks.map _).nodup_iff.mp each.proxyChecks⟩

end SameItems

theorem points_subset {some_ data : List Datum} (subset : some_ ⊆ data) :
    (Batch.ofData some_).points ⊆ (Batch.ofData data).points :=
  List.filterMap_subset _ subset

section Reads

variable (collate : String → String → Bool) {agentId : AgentId} {log log' : AppendLog} (start stop : Int)
  (lossless : Lossless (Batch.ofData (written agentId log)).points)
  (capped : Capped (lastWritten start stop (.ofData (written agentId log))))

include lossless capped

/-- Logs with the same last writers are read alike. -/
theorem readBuffer_same (same : SameWrites (written agentId log') (written agentId log))
    (subset : written agentId log' ⊆ written agentId log) :
    SameItems (readBuffer collate start stop (some agentId) (appendAll collate log'))
      (readBuffer collate start stop (some agentId) (appendAll collate log)) := by
  have alike := lastWritten_same start stop same
  have there := readBuffer_appendAll collate (lossless.mono (points_subset subset)) start stop (alike.symm.capped capped)
  exact (there.trans alike).trans (readBuffer_appendAll collate lossless start stop capped).symm

end Reads

/-- A locale that orders all texts and tells any two of them apart. -/
structure TellsApart (collate : String → String → Bool) : Prop where
  total : ∀ first second, collate first second = true ∨ collate second first = true
  trans : ∀ first second third, collate first second = true → collate second third = true →
    collate first third = true
  antisymm : ∀ first second, collate first second = true → collate second first = true → first = second

section Order

variable {collate : String → String → Bool} (order : TellsApart collate) {α : Type} (targetId : α → String) (ts : α → Int)

include order

theorem TellsApart.pairwise_insertionSort (items : List α) :
    (items.insertionSort (tsThenTarget collate targetId ts)).Pairwise (tsThenTarget collate targetId ts) := by
  have : Std.Total (tsThenTarget collate targetId ts) := ⟨fun first second => by
    rcases lt_trichotomy (ts first) (ts second) with before | same | after
    · exact .inl (.inl before)
    · rcases order.total (targetId first) (targetId second) with below | above
      · exact .inl (.inr ⟨same, below⟩)
      · exact .inr (.inr ⟨same.symm, above⟩)
    · exact .inr (.inl after)⟩
  have : IsTrans α (tsThenTarget collate targetId ts) := ⟨fun a b c first second => by
    rcases first with one | ⟨one, below⟩ <;> rcases second with two | ⟨two, above⟩
    · exact .inl (lt_trans one two)
    · exact .inl (two ▸ one)
    · exact .inl (one ▸ two)
    · exact .inr ⟨one.trans two, order.trans _ _ _ below above⟩⟩
  exact List.pairwise_insertionSort _ items

/-- Items of distinct targets and times have one order. -/
theorem TellsApart.eq_of_perm {first second : List α} (perm : first.Perm second)
    (left : first.Pairwise (tsThenTarget collate targetId ts)) (right : second.Pairwise (tsThenTarget collate targetId ts))
    (distinct : (second.map fun item => (targetId item, ts item)).Nodup) : first = second := by
  refine perm.eq_of_pairwise (fun one two inside there ahead behind => ?_) left right
  have time : ts one = ts two := by
    rcases ahead with before | ⟨same, -⟩ <;> rcases behind with after | ⟨too, -⟩ <;> omega
  have target : targetId one = targetId two := by
    rcases ahead with before | ⟨-, below⟩
    · omega
    rcases behind with after | ⟨-, above⟩
    · omega
    exact order.antisymm _ _ below above
  exact List.inj_on_of_nodup_map distinct (perm.mem_iff.mp inside) there (Prod.ext target time)

end Order

theorem TellsApart.readBuffer_eq {collate : String → String → Bool} (order : TellsApart collate) {start stop : Int}
    {wanted : Option AgentId} {store other : ChunkStore}
    (same : SameItems (readBuffer collate start stop wanted store) (readBuffer collate start stop wanted other))
    (each : OneEach (readBuffer collate start stop wanted other)) :
    readBuffer collate start stop wanted store = readBuffer collate start stop wanted other := by
  have pings (store : ChunkStore) : (readBuffer collate start stop wanted store).pings.Pairwise
      (tsThenTarget collate Ping.targetId Ping.ts) := by
    dsimp only [readBuffer]
    exact (order.pairwise_insertionSort Ping.targetId Ping.ts _).sublist (List.drop_sublist _ _)
  have checks (store : ChunkStore) : (readBuffer collate start stop wanted store).proxyChecks.Pairwise
      (tsThenTarget collate ProxyCheck.targetId ProxyCheck.ts) := by
    dsimp only [readBuffer]
    exact (order.pairwise_insertionSort ProxyCheck.targetId ProxyCheck.ts _).sublist (List.drop_sublist _ _)
  have samePings := order.eq_of_perm _ _ same.pings (pings store) (pings other) each.pings
  have sameChecks := order.eq_of_perm _ _ same.proxyChecks (checks store) (checks other) each.proxyChecks
  have points := same.points
  generalize readBuffer collate start stop wanted store = first at points samePings sameChecks ⊢
  generalize readBuffer collate start stop wanted other = second at points samePings sameChecks ⊢
  cases first
  cases second
  cases points
  cases samePings
  cases sameChecks
  rfl

private def bufferAgent : AgentId := ⟨"buffer-host", by decide +kernel, by decide⟩

private def bufferOrder (first second : String) : Bool := first ≤ second

private def cpuPoint (cpu : ℚ) : MetricPoint := ⟨7210, [("cpu", cpu)], []⟩

private def namedCheck (name : String) (ts : Int) : ProxyCheck :=
  ⟨"edge", name, "http", ts, some 12, none, none, none, 1, "done", none⟩

private def renamedLog : AppendLog :=
  [(bufferAgent, { points := [cpuPoint 1], proxyChecks := [namedCheck "old" 7210] }),
    (bufferAgent, { points := [cpuPoint 2], proxyChecks := [namedCheck "new" 7220] })]

end NieSla.Telemetry
