import NieSla.Alerts.Delivery

/-! What becomes of an alert whose commit is stored, and of a delivery that was pending. A run owes
them to its channels; it pays by a send or by an entry of the queue, of which the newest are stored. -/
namespace NieSla.Alerts

/-- A send of this run, or an entry of the queue. -/
def Paid (delivered : List (Channel × String)) (queue : List PendingDelivery)
    (key : Channel × String) : Prop :=
  key ∈ delivered ∨ ∃ entry ∈ queue, entry.key = key

instance (delivered : List (Channel × String)) (queue : List PendingDelivery)
    (key : Channel × String) : Decidable (Paid delivered queue key) :=
  inferInstanceAs (Decidable (_ ∨ _))

/-- What the claim of an alert is: its message is in a batch whose text is owed to each channel. -/
def Announced (channels : List Channel) (messages : List Message)
    (delivered : List (Channel × String)) (queue : List PendingDelivery) (item : Message) : Prop :=
  ∃ batch ∈ buildAlertBatches messages, item ∈ batch.items ∧
    ∀ channel ∈ channels, Paid delivered queue (channel, batch.text)

instance (channels : List Channel) (messages : List Message) (delivered : List (Channel × String))
    (queue : List PendingDelivery) (item : Message) :
    Decidable (Announced channels messages delivered queue item) :=
  inferInstanceAs (Decidable (∃ batch ∈ buildAlertBatches messages, item ∈ batch.items ∧
    ∀ channel ∈ channels, Paid delivered queue (channel, batch.text)))

/-- Whatever was committed in the run or was pending before it is sent or stored. -/
def NothingLost (before : List PendingDelivery) (channels : List Channel) (messages : List Message)
    (outcome : Outcome) : Prop :=
  (∀ item ∈ outcome.committed,
    Announced channels messages outcome.delivered outcome.stored.pending item) ∧
  ∀ entry ∈ before, Paid outcome.delivered outcome.stored.pending entry.key

instance (before : List PendingDelivery) (channels : List Channel) (messages : List Message)
    (outcome : Outcome) : Decidable (NothingLost before channels messages outcome) :=
  inferInstanceAs (Decidable (_ ∧ _))

/-- An entry that the run gives up: its channel is not configured, or its last attempt is due. -/
def GivenUp (channels : List Channel) (now : Nat) (entry : PendingDelivery) : Prop :=
  entry.channel ∉ channels ∨
    entry.nextAt ≤ now ∧ channelRetryMaxAttempts ≤ entry.attempts + 1

instance (channels : List Channel) (now : Nat) (entry : PendingDelivery) :
    Decidable (GivenUp channels now entry) :=
  inferInstanceAs (Decidable (_ ∨ _))

/-- The queue is the newest part of everything that was queued, and everything owed is paid, if not
by a send then by something that was queued. -/
structure Settled (read : List PendingDelivery) (owed : List (Channel × String))
    (whole : List PendingDelivery) (progress : Progress) : Prop where
  newest : progress.pending = whole.rtake pendingDeliveriesMax
  paid : ∀ key ∈ owed, Paid progress.delivered whole key
  unchanged : progress.changed = false → progress.pending = read

section Queue

variable {read whole : List PendingDelivery} {owed : List (Channel × String)} {progress : Progress}

theorem rtake_rtake_concat {α : Type*} (n : Nat) (whole : List α) (last : α) :
    (whole.rtake n ++ [last]).rtake n = (whole ++ [last]).rtake n := by
  simp only [List.rtake_eq_reverse_take_reverse, List.reverse_append, List.reverse_singleton,
    List.reverse_reverse, List.singleton_append]
  cases n with
  | zero => rfl
  | succ n => simp [List.take_take]

theorem rtake_of_length_le {α : Type*} {n : Nat} {whole : List α} (fits : whole.length ≤ n) :
    whole.rtake n = whole := by
  rw [List.rtake, Nat.sub_eq_zero_of_le fits, List.drop_zero]

theorem mem_of_mem_rtake {α : Type*} {n : Nat} {whole : List α} {item : α}
    (member : item ∈ whole.rtake n) : item ∈ whole :=
  List.mem_of_mem_drop member

theorem eq_nil_of_rtake_eq_nil {α : Type*} {n : Nat} {whole : List α} (positive : 0 < n)
    (empty : whole.rtake n = []) : whole = [] := by
  have short : whole.length ≤ whole.length - n := List.drop_eq_nil_iff.mp empty
  have none_ : whole.length = 0 := by omega
  exact List.length_eq_zero_iff.mp none_

theorem length_rtake_le {α : Type*} (n : Nat) (whole : List α) : (whole.rtake n).length ≤ n := by
  rw [List.rtake, List.length_drop]
  omega

theorem Paid.mono {delivered more : List (Channel × String)} {queue longer : List PendingDelivery}
    {key : Channel × String} (paid : Paid delivered queue key) (sends : delivered ⊆ more)
    (entries : queue ⊆ longer) : Paid more longer key := by
  cases paid with
  | inl sent => exact .inl (sends sent)
  | inr queued =>
      obtain ⟨entry, member, same⟩ := queued
      exact .inr ⟨entry, entries member, same⟩

theorem Announced.mono {channels : List Channel} {messages : List Message}
    {delivered : List (Channel × String)} {queue longer : List PendingDelivery} {item : Message}
    (announced : Announced channels messages delivered queue item) (entries : queue ⊆ longer) :
    Announced channels messages delivered longer item := by
  obtain ⟨batch, listed, inside, paid⟩ := announced
  exact ⟨batch, listed, inside,
    fun channel enabled => (paid channel enabled).mono (List.Subset.refl _) entries⟩

/-- An entry that is queued pays for its key, also when the key is queued already. -/
theorem settled_enqueue (settled : Settled read owed whole progress) (entry : PendingDelivery) :
    ∃ longer, Settled read (entry.key :: owed) longer (progress.enqueue entry) := by
  by_cases queued : progress.pending.any fun item => item.key = entry.key
  · have same : progress.enqueue entry = progress := by
      simp [Progress.enqueue, enqueuePendingDelivery, queued]
    obtain ⟨item, member, equal⟩ := List.any_eq_true.mp queued
    rw [settled.newest] at member
    rw [same]
    refine ⟨whole, settled.newest, List.forall_mem_cons.mpr ⟨?_, settled.paid⟩, settled.unchanged⟩
    exact .inr ⟨item, mem_of_mem_rtake member, of_decide_eq_true equal⟩
  · have next : progress.enqueue entry =
        { progress with
          pending := (progress.pending ++ [entry]).rtake pendingDeliveriesMax, changed := true } := by
      simp [Progress.enqueue, enqueuePendingDelivery, queued]
    rw [next]
    refine ⟨whole ++ [entry], ?_, List.forall_mem_cons.mpr ⟨?_, ?_⟩, fun same => by cases same⟩
    · show (progress.pending ++ [entry]).rtake pendingDeliveriesMax = _
      rw [settled.newest, rtake_rtake_concat]
    · exact .inr ⟨entry, List.mem_append_right _ (List.mem_singleton_self _), rfl⟩
    · exact fun key member =>
        (settled.paid key member).mono (List.Subset.refl _) (List.subset_append_left _ _)

end Queue

section Run

variable {failures : Failures} {channels : List Channel} {now : Nat}
  {read whole : List PendingDelivery} {owed : List (Channel × String)} {progress next : Progress}

theorem Settled.weaken {fewer : List (Channel × String)} (settled : Settled read owed whole progress)
    (subset : fewer ⊆ owed) : Settled read fewer whole progress :=
  { settled with paid := fun key member => settled.paid key (subset member) }

/-- The queue is settled as long as it stays, and no send is forgotten. -/
theorem Settled.transport (settled : Settled read owed whole progress)
    (pending : next.pending = progress.pending) (delivered : progress.delivered ⊆ next.delivered)
    (changed : next.changed = false → progress.changed = false) : Settled read owed whole next where
  newest := pending.trans settled.newest
  paid := fun key member => (settled.paid key member).mono delivered (List.Subset.refl _)
  unchanged := fun same => pending.trans (settled.unchanged (changed same))

variable (failures now) in
/-- Each path of a batch at a channel pays what is owed to the channel. -/
theorem settled_deliverTo (settled : Settled read owed whole progress) (batch : Batch)
    (channel : Channel) :
    ∃ longer, Settled read ((channel, batch.text) :: owed) longer
      (deliverTo failures now batch progress channel).1 := by
  unfold deliverTo
  simp only
  split
  · exact settled_enqueue settled (pendingDeliveryEntry now channel batch _)
  · split
    · refine ⟨whole, settled.newest, List.forall_mem_cons.mpr ⟨?_, ?_⟩, ?_⟩
      · exact .inl (List.mem_append_right _ (List.mem_singleton_self _))
      · exact fun key member => (settled.paid key member).mono
          (List.subset_append_left _ _) (List.Subset.refl _)
      · exact fun same => settled.unchanged (Bool.or_eq_false_iff.mp same).1
    · have failed (backoff : OrderedMap Channel Backoff) : Settled read owed whole
          { progress with sends := progress.sends + 1, changed := true, backoff } :=
        settled.transport rfl (List.Subset.refl _) Bool.noConfusion
      exact settled_enqueue (failed _) (pendingDeliveryEntry now channel batch _)

variable (failures now) in
theorem settled_deliverBatch (settled : Settled read owed whole progress) (batch : Batch)
    (channels : List Channel) :
    ∃ longer, Settled read (channels.map (fun channel => (channel, batch.text)) ++ owed) longer
      (deliverBatch failures now batch channels progress).1 := by
  induction channels generalizing progress whole owed with
  | nil => exact ⟨whole, settled⟩
  | cons channel rest ih =>
      obtain ⟨longer, first⟩ := settled_deliverTo failures now settled batch channel
      obtain ⟨last, all⟩ := ih first
      refine ⟨last, all.weaken ?_⟩
      intro key member
      simp only [List.map_cons, List.cons_append, List.mem_cons, List.mem_append] at member ⊢
      tauto

theorem queued_deliverBatch (batch : Batch) (channels : List Channel) (progress : Progress) :
    (deliverBatch failures now batch channels progress).2.all
      (fun result => result.ok || result.queued) = true := by
  induction channels generalizing progress with
  | nil => rfl
  | cons channel rest ih =>
      simp only [deliverBatch, List.all_cons, ih, Bool.and_true]
      unfold deliverTo
      simp only
      split
      · rfl
      · split <;> rfl

theorem committed_deliverBatch (batch : Batch) (channels : List Channel) (progress : Progress) :
    (deliverBatch failures now batch channels progress).1.committed = progress.committed := by
  induction channels generalizing progress with
  | nil => rfl
  | cons channel rest ih =>
      simp only [deliverBatch, ih]
      unfold deliverTo
      simp only
      split
      · rfl
      · split <;> rfl

theorem commitItems_ok {items : List Message} (committed : commitItems failures items progress = .ok next) :
    next.pending = progress.pending ∧ next.delivered = progress.delivered ∧
      next.changed = progress.changed ∧ next.committed = progress.committed ++ items := by
  induction items generalizing progress with
  | nil =>
      cases committed
      exact ⟨rfl, rfl, rfl, (List.append_nil _).symm⟩
  | cons item rest ih =>
      unfold commitItems at committed
      split at committed
      case isTrue => cases committed
      obtain ⟨pending, delivered, changed, all⟩ := ih committed
      exact ⟨pending, delivered, changed, all.trans (List.append_assoc _ _ _)⟩

/-- Every message of a batch is committed, and its text is paid for at every channel. -/
theorem settled_runBatch {batch : Batch} (settled : Settled read owed whole progress)
    (ran : runBatch failures now channels batch progress = .ok next) :
    (∃ longer, Settled read (channels.map (fun channel => (channel, batch.text)) ++ owed) longer next) ∧
      next.committed = progress.committed ++ batch.items := by
  unfold runBatch at ran
  simp only [queued_deliverBatch, Bool.or_true, if_true] at ran
  obtain ⟨pending, delivered, changed, committed⟩ := commitItems_ok ran
  obtain ⟨longer, sent⟩ := settled_deliverBatch failures now settled batch channels
  refine ⟨⟨longer, sent.transport pending ?_ ?_⟩, ?_⟩
  · rw [delivered]
    exact List.Subset.refl _
  · exact fun same => changed ▸ same
  · rw [committed, committed_deliverBatch]

theorem settled_runBatches {batches : List Batch} (settled : Settled read owed whole progress)
    (ran : runBatches failures now channels batches progress = .ok next) :
    (∃ longer, Settled read
        (batches.flatMap (fun batch => channels.map fun channel => (channel, batch.text)) ++ owed)
        longer next) ∧
      next.committed = progress.committed ++ batches.flatMap Batch.items := by
  induction batches generalizing progress whole owed with
  | nil =>
      cases ran
      exact ⟨⟨whole, settled⟩, (List.append_nil _).symm⟩
  | cons batch rest ih =>
      unfold runBatches at ran
      cases first : runBatch failures now channels batch progress with
      | error stopped => rw [first] at ran; cases ran
      | ok after =>
          rw [first] at ran
          obtain ⟨⟨longer, sent⟩, committed⟩ := settled_runBatch settled first
          obtain ⟨⟨last, all⟩, items⟩ := ih sent ran
          refine ⟨⟨last, all.weaken ?_⟩, ?_⟩
          · intro key member
            simp only [List.flatMap_cons, List.mem_append] at member ⊢
            tauto
          · rw [items, committed, List.append_assoc, List.flatMap_cons]

/-- The part of the queue that the drain has gone through. -/
structure Drained (channels : List Channel) (now : Nat) (seen : List PendingDelivery)
    (progress : Progress) : Prop where
  shorter : progress.pending.length ≤ seen.length
  paid : ∀ entry ∈ seen,
    GivenUp channels now entry ∨ Paid progress.delivered progress.pending entry.key
  unchanged : progress.changed = false → progress.pending = seen
  uncommitted : progress.committed = []

variable (failures) in
theorem drained_drainEntry {seen : List PendingDelivery} (drained : Drained channels now seen progress)
    (entry : PendingDelivery) :
    Drained channels now (seen ++ [entry]) (drainEntry failures channels now progress entry) := by
  have shorter := drained.shorter
  unfold drainEntry
  split
  case isTrue gone =>
    refine ⟨?_, ?_, nofun, drained.uncommitted⟩
    · simp only [List.length_append]
      omega
    · exact List.forall_mem_append.mpr ⟨drained.paid, List.forall_mem_singleton.mpr (.inl (.inl gone))⟩
  split
  case isTrue later =>
    refine ⟨by simpa using shorter, ?_, ?_, drained.uncommitted⟩
    · refine List.forall_mem_append.mpr ⟨?_, List.forall_mem_singleton.mpr (.inr (.inr ?_))⟩
      · exact fun old member => (drained.paid old member).imp_right fun paid =>
          paid.mono (List.Subset.refl _) (List.subset_append_left _ _)
      · exact ⟨entry, List.mem_append_right _ (List.mem_singleton_self _), rfl⟩
    · intro same
      show progress.pending ++ [entry] = seen ++ [entry]
      rw [drained.unchanged same]
  case isFalse due =>
    split
    · refine ⟨?_, ?_, nofun, drained.uncommitted⟩
      · simp only [List.length_append]
        omega
      · refine List.forall_mem_append.mpr ⟨?_, List.forall_mem_singleton.mpr (.inr (.inl ?_))⟩
        · exact fun old member => (drained.paid old member).imp_right fun paid =>
            paid.mono (List.subset_append_left _ _) (List.Subset.refl _)
        · exact List.mem_append_right _ (List.mem_singleton_self _)
    · by_cases last : channelRetryMaxAttempts ≤ entry.attempts + 1
      · simp only [if_pos last]
        refine ⟨?_, ?_, nofun, drained.uncommitted⟩
        · simp only [List.length_append]
          omega
        · exact List.forall_mem_append.mpr ⟨drained.paid, List.forall_mem_singleton.mpr
            (.inl (.inr ⟨Nat.le_of_not_lt due, last⟩))⟩
      · simp only [if_neg last]
        refine ⟨by simpa using shorter, ?_, nofun, drained.uncommitted⟩
        refine List.forall_mem_append.mpr ⟨?_, List.forall_mem_singleton.mpr (.inr (.inr ?_))⟩
        · exact fun old member => (drained.paid old member).imp_right fun paid =>
            paid.mono (List.Subset.refl _) (List.subset_append_left _ _)
        · exact ⟨_, List.mem_append_right _ (List.mem_singleton_self _), rfl⟩

theorem drained_foldl {seen rest : List PendingDelivery} (drained : Drained channels now seen progress) :
    Drained channels now (seen ++ rest) (rest.foldl (drainEntry failures channels now) progress) := by
  induction rest generalizing seen progress with
  | nil => rwa [List.append_nil]
  | cons entry rest ih =>
      have next := ih (drained_drainEntry failures drained entry)
      rwa [List.append_assoc] at next

theorem drained_drainPendingDeliveries (uncommitted : progress.committed = []) :
    Drained channels now progress.pending (drainPendingDeliveries failures channels now progress) := by
  have start : Drained channels now [] { progress with pending := [] } :=
    ⟨Nat.le_refl 0, nofun, fun _ => rfl, uncommitted⟩
  exact drained_foldl start

end Run

section Outcomes

variable {failures : Failures} {stored : Stored} {channels : List Channel}
  {messages : List Message} {now : Nat} {progress : Progress}

/-- The end of a run whose batches have gone through, before its lists are stored. -/
theorem settled_run (ran : runBatches failures now channels (buildAlertBatches messages)
      (drainPendingDeliveries failures channels now (Progress.start failures stored)) = .ok progress) :
    ∃ whole, progress.pending = whole.rtake pendingDeliveriesMax ∧
      (∀ item ∈ progress.committed, Announced channels messages progress.delivered whole item) ∧
      (failures.readPending = false → ∀ entry ∈ stored.pending,
        GivenUp channels now entry ∨ Paid progress.delivered whole entry.key) ∧
      (progress.changed = false → progress.pending = (Progress.start failures stored).pending) := by
  have drained : Drained channels now (Progress.start failures stored).pending
      (drainPendingDeliveries failures channels now (Progress.start failures stored)) :=
    drained_drainPendingDeliveries rfl
  have fits : (Progress.start failures stored).pending.length ≤ pendingDeliveriesMax := by
    unfold Progress.start
    cases failures.readPending with
    | true => exact Nat.zero_le _
    | false => exact stored.fits
  let kept := (Progress.start failures stored).pending.filter fun entry => ¬ GivenUp channels now entry
  have settled : Settled (Progress.start failures stored).pending (kept.map PendingDelivery.key)
      (drainPendingDeliveries failures channels now (Progress.start failures stored)).pending
      (drainPendingDeliveries failures channels now (Progress.start failures stored)) := by
    refine ⟨(rtake_of_length_le (drained.shorter.trans fits)).symm, ?_, drained.unchanged⟩
    intro key member
    obtain ⟨entry, inside, rfl⟩ := List.mem_map.mp member
    obtain ⟨listed, remains⟩ := List.mem_filter.mp inside
    exact (drained.paid entry listed).resolve_left (of_decide_eq_true remains)
  obtain ⟨⟨whole, last⟩, committed⟩ := settled_runBatches settled ran
  rw [drained.uncommitted, List.nil_append, items_buildAlertBatches] at committed
  refine ⟨whole, last.newest, ?_, ?_, last.unchanged⟩
  · intro item member
    rw [committed, ← items_buildAlertBatches messages] at member
    obtain ⟨batch, listed, inside⟩ := List.mem_flatMap.mp member
    refine ⟨batch, listed, inside, fun channel enabled => last.paid _ ?_⟩
    exact List.mem_append_left _
      (List.mem_flatMap.mpr ⟨batch, listed, List.mem_map_of_mem enabled⟩)
  · intro readable entry member
    by_cases gone : GivenUp channels now entry
    · exact .inl gone
    · have listed : entry ∈ (Progress.start failures stored).pending := by
        simpa [Progress.start, readable] using member
      exact .inr (last.paid _ (List.mem_append_right _
        (List.mem_map_of_mem (List.mem_filter.mpr ⟨listed, decide_eq_true gone⟩))))

end Outcomes

section Examples

private def broken : Failures where
  send _ := .failed "HTTP 500"
  commit _ := false

private def outage (target : String) : Message :=
  ⟨target, "probe_down", "down", .markActive 1000 none⟩

private def waiting (text : String) (attempts nextAt : Nat) : PendingDelivery :=
  ⟨.webhook, text, "", "", "active", 1, attempts, nextAt, 0, none⟩

private def lost (failures : Failures) (stored : Stored) (channels : List Channel)
    (messages : List Message) : Prop :=
  ¬ NothingLost stored.pending channels messages
    (runAlertChecks failures stored channels (some messages) 1000)

private instance (failures : Failures) (stored : Stored) (channels : List Channel)
    (messages : List Message) : Decidable (lost failures stored channels messages) :=
  inferInstanceAs (Decidable (¬ _))

private def fullList : Stored where
  pending := (List.range 100).map fun index => waiting s!"{index}" 0 2000
  fits := by simp [pendingDeliveriesMax]

end Examples

end NieSla.Alerts
