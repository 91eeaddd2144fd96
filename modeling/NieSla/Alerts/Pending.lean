import NieSla.Alerts.Queued
import NieSla.Lib.Compact
import NieSla.Lib.Runs

/-! The queue of pending deliveries through any sequence of drains and additions. Beside the queue
stands what the code does not keep: a serial number for each entry, its attempts, and why it left. -/
namespace NieSla.Alerts
open Lib

section Turn

variable (failures : Failures) (channels : List Channel) (now : Nat)

/-- The body of the loop of `drainPendingDeliveries`, with what it writes back. -/
def drainTurn (progress : Progress) (entry : PendingDelivery) : Progress × Option PendingDelivery :=
  if entry.channel ∉ channels then ({ progress with changed := true }, none)
  else if now < entry.nextAt then (progress, some entry)
  else match failures.send progress.sends with
    | .ok =>
        ({ progress with
            sends := progress.sends + 1
            changed := true
            backoff := progress.backoff.erase entry.channel
            delivered := progress.delivered ++ [entry.key] }, none)
    | .failed error =>
        let attempts := entry.attempts + 1
        ({ progress with
            sends := progress.sends + 1
            changed := true
            backoff := recordChannelFailure progress.backoff entry.channel error now },
          if channelRetryMaxAttempts ≤ attempts then none
          else some
            { entry with
              attempts
              nextAt := now + channelRetryDelaySec attempts
              lastError := some (cut 200 error) })

/-- `drainPendingDeliveries` on the array that it rewrites while it goes through it. -/
def drainInPlace (progress : Progress) : Progress :=
  let (last, kept) := compact (drainTurn failures channels now) progress progress.pending
  { last with pending := kept }

variable {failures channels now}

theorem drainEntry_eq (progress : Progress) (pending : List PendingDelivery) (entry : PendingDelivery) :
    drainEntry failures channels now { progress with pending } entry =
      { (drainTurn failures channels now progress entry).1 with
        pending := pending ++ (drainTurn failures channels now progress entry).2.toList } := by
  unfold drainEntry drainTurn
  split
  · simp
  split
  · rfl
  cases failures.send progress.sends with
  | ok => simp
  | failed error =>
      simp only
      split <;> simp

theorem foldl_drainEntry (progress : Progress) (pending items : List PendingDelivery) :
    items.foldl (drainEntry failures channels now) { progress with pending } =
      { (keepFrom (drainTurn failures channels now) progress items).1 with
        pending := pending ++ (keepFrom (drainTurn failures channels now) progress items).2 } := by
  induction items generalizing progress pending with
  | nil => simp [keepFrom]
  | cons entry rest ih =>
      rw [List.foldl_cons, drainEntry_eq, ih, keepFrom, List.append_assoc]

/-- The rewriting in place loses no entry and doubles none. -/
theorem drainInPlace_eq (progress : Progress) :
    drainInPlace failures channels now progress =
      drainPendingDeliveries failures channels now progress := by
  rw [drainInPlace, compact_eq, drainPendingDeliveries, foldl_drainEntry, List.nil_append]

end Turn

/-- A send by the drain; `wait` is the time until the next one where there is to be one. -/
structure Attempt where
  serial : Nat
  sentAt : Nat
  dueAt : Nat
  delivered : Bool
  wait : Option Nat

inductive Fate where
  | delivered
  | unconfigured (channels : List Channel)
  | exhausted
  /-- With the entries that stayed. -/
  | evicted (kept : List Nat)

structure Departure where
  serial : Nat
  entry : PendingDelivery
  fate : Fate

/-- What has happened to the entries; `serials` were given out. -/
structure Trace where
  serials : Nat := 0
  attempts : List Attempt := []
  gone : List Departure := []

structure Watched where
  queue : List (Nat × PendingDelivery) := []
  trace : Trace := {}

/-- What a run of the checks does to the queue: the drain, with any state of the backoff, the entries
for its batches, and the write that the next run reads. -/
inductive QueueOp where
  | drain (failures : Failures) (channels : List Channel) (backoff : OrderedMap Channel Backoff)
      (now : Nat)
  | enqueue (batch : Batch) (channel : Channel) (now nextAt : Nat)
  | write

/-- The operation on the stored queue. -/
def QueueOp.apply (queue : List PendingDelivery) : QueueOp → List PendingDelivery
  | .drain failures channels backoff now =>
      (drainInPlace failures channels now { backoff, pending := queue, alertState := .empty }).pending
  | .enqueue batch channel now nextAt =>
      (enqueuePendingDelivery queue (pendingDeliveryEntry now channel batch nextAt)).1
  | .write => queue.take pendingDeliveriesMax

section Watch

variable (failures : Failures) (channels : List Channel) (now : Nat)

/-- A turn of the drain, and what is seen of it. -/
def watchTurn (state : Progress × Trace) (item : Nat × PendingDelivery) :
    (Progress × Trace) × Option (Nat × PendingDelivery) :=
  let (progress, trace) := state
  let (serial, entry) := item
  let (next, kept) := drainTurn failures channels now progress entry
  let sent := decide (next.sends ≠ progress.sends)
  let delivered := decide (next.delivered ≠ progress.delivered)
  let attempt : Attempt :=
    { serial, sentAt := now, dueAt := entry.nextAt, delivered, wait := kept.map fun entry => entry.nextAt - now }
  let fate := if !sent then .unconfigured channels else if delivered then .delivered else .exhausted
  ((next,
      { trace with
        attempts := if sent then trace.attempts ++ [attempt] else trace.attempts
        gone := if kept.isNone then trace.gone ++ [⟨serial, entry, fate⟩] else trace.gone }),
    kept.map fun entry => (serial, entry))

end Watch

def Watched.enqueue (watched : Watched) (entry : PendingDelivery) : Watched :=
  if watched.queue.any fun item => item.2.key = entry.key then watched
  else
    let whole := watched.queue ++ [(watched.trace.serials, entry)]
    let kept := whole.rtake pendingDeliveriesMax
    let dropped := whole.rdrop pendingDeliveriesMax
    { queue := kept
      trace :=
        { watched.trace with
          serials := watched.trace.serials + 1
          gone := watched.trace.gone ++
            dropped.map fun item => ⟨item.1, item.2, .evicted (kept.map Prod.fst)⟩ } }

/-- The operation, watched. -/
def Watched.step (watched : Watched) : QueueOp → Watched
  | .drain failures channels backoff now =>
      let progress : Progress := { backoff, pending := watched.queue.map Prod.snd, alertState := .empty }
      let (last, kept) := keepFrom (watchTurn failures channels now) (progress, watched.trace) watched.queue
      { queue := kept, trace := last.2 }
  | .enqueue batch channel now nextAt => watched.enqueue (pendingDeliveryEntry now channel batch nextAt)
  | .write => { watched with queue := watched.queue.take pendingDeliveriesMax }

/-- The attempts of one entry, in their order. -/
def Trace.log (trace : Trace) (serial : Nat) : List Attempt :=
  trace.attempts.filter fun attempt => attempt.serial = serial

/-- What the attempts of an entry owe: each is due, each comes after the wait that the one before it
has set, and the waits grow up to their bound. -/
structure Disciplined (log : List Attempt) : Prop where
  few : log.length ≤ channelRetryMaxAttempts
  due : ∀ attempt ∈ log, attempt.dueAt ≤ attempt.sentAt
  spaced : log.IsChain fun earlier later =>
    ∃ wait, earlier.wait = some wait ∧ later.dueAt = earlier.sentAt + wait
  steady : (log.filterMap Attempt.wait).Pairwise (· ≤ ·)
  bounded : ∀ wait ∈ log.filterMap Attempt.wait, wait ≤ channelRetryMaxSec

/-- The only reasons for which an entry leaves. -/
def Explained (log : List Attempt) (departure : Departure) : Prop :=
  match departure.fate with
  | .delivered => ∃ attempt ∈ log.getLast?, attempt.delivered = true
  | .unconfigured channels => departure.entry.channel ∉ channels
  | .exhausted => log.length = channelRetryMaxAttempts
  | .evicted kept => kept.length = pendingDeliveriesMax ∧ ∀ serial ∈ kept, departure.serial < serial

/-- An entry that is still in the queue, with its attempts so far. -/
structure Waiting (log : List Attempt) (entry : PendingDelivery) : Prop where
  count : log.length = entry.attempts
  room : entry.attempts < channelRetryMaxAttempts
  due : ∀ attempt ∈ log, attempt.dueAt ≤ attempt.sentAt
  waits : log.map Attempt.wait =
    (List.range entry.attempts).map fun index => some (channelRetryDelaySec (index + 1))
  spaced : log.IsChain fun earlier later =>
    ∃ wait, earlier.wait = some wait ∧ later.dueAt = earlier.sentAt + wait
  next : ∀ attempt ∈ log.getLast?, ∃ wait, attempt.wait = some wait ∧
    entry.nextAt = attempt.sentAt + wait

section Log

variable {log : List Attempt} {entry : PendingDelivery} {attempt : Attempt}

theorem channelRetryDelaySec_mono {first second : Nat} (le : first ≤ second) :
    channelRetryDelaySec first ≤ channelRetryDelaySec second := by
  have power : 2 ^ (max 1 first - 1) ≤ 2 ^ (max 1 second - 1) :=
    Nat.pow_le_pow_right (by decide) (by omega)
  exact min_le_min_left _ (Nat.mul_le_mul_left _ power)

theorem channelRetryDelaySec_le (failures : Nat) : channelRetryDelaySec failures ≤ channelRetryMaxSec :=
  min_le_left _ _

/-- The waits of an entry, in the order of its attempts. -/
theorem Waiting.filterMap_wait (waiting : Waiting log entry) :
    log.filterMap Attempt.wait =
      (List.range entry.attempts).map fun index => channelRetryDelaySec (index + 1) := by
  have same : log.filterMap Attempt.wait = (log.map Attempt.wait).filterMap id := by
    rw [List.filterMap_map]
    rfl
  rw [same, waiting.waits, List.filterMap_map]
  exact congrFun List.filterMap_eq_map _

theorem steady_delays (attempts : Nat) :
    ((List.range attempts).map fun index => channelRetryDelaySec (index + 1)).Pairwise (· ≤ ·) := by
  rw [List.pairwise_map]
  exact List.pairwise_lt_range.imp fun before => channelRetryDelaySec_mono (by omega)

theorem Waiting.disciplined (waiting : Waiting log entry) : Disciplined log where
  few := by
    rw [waiting.count]
    exact waiting.room.le
  due := waiting.due
  spaced := waiting.spaced
  steady := waiting.filterMap_wait ▸ steady_delays entry.attempts
  bounded := by
    rw [waiting.filterMap_wait]
    intro wait member
    obtain ⟨index, -, rfl⟩ := List.mem_map.mp member
    exact channelRetryDelaySec_le _

/-- The next attempt is made when it is due. -/
theorem Waiting.spaced_concat (waiting : Waiting log entry) (at_ : attempt.dueAt = entry.nextAt) :
    (log ++ [attempt]).IsChain fun earlier later =>
      ∃ wait, earlier.wait = some wait ∧ later.dueAt = earlier.sentAt + wait := by
  refine List.isChain_append.mpr ⟨waiting.spaced, List.isChain_singleton _, ?_⟩
  intro last member first is
  obtain ⟨wait, set_, next⟩ := waiting.next last member
  cases Option.mem_some.mp is
  exact ⟨wait, set_, at_.trans next⟩

/-- The last attempt of an entry sets no other. -/
theorem Waiting.disciplined_concat (waiting : Waiting log entry) (at_ : attempt.dueAt = entry.nextAt)
    (due : attempt.dueAt ≤ attempt.sentAt) (last : attempt.wait = none) :
    Disciplined (log ++ [attempt]) := by
  have before := waiting.disciplined
  have waits : (log ++ [attempt]).filterMap Attempt.wait = log.filterMap Attempt.wait := by
    simp [List.filterMap_append, last]
  refine ⟨?_, ?_, waiting.spaced_concat at_, waits ▸ before.steady, waits ▸ before.bounded⟩
  · have room := waiting.room
    rw [List.length_append, waiting.count, List.length_singleton]
    omega
  · exact List.forall_mem_append.mpr ⟨before.due, List.forall_mem_singleton.mpr due⟩

/-- An attempt that has failed sets the next. -/
theorem Waiting.retry (waiting : Waiting log entry) (at_ : attempt.dueAt = entry.nextAt)
    (due : attempt.dueAt ≤ attempt.sentAt)
    (wait : attempt.wait = some (channelRetryDelaySec (entry.attempts + 1)))
    (more : entry.attempts + 1 < channelRetryMaxAttempts) {retry : PendingDelivery}
    (attempts : retry.attempts = entry.attempts + 1)
    (nextAt : retry.nextAt = attempt.sentAt + channelRetryDelaySec (entry.attempts + 1)) :
    Waiting (log ++ [attempt]) retry where
  count := by rw [List.length_append, waiting.count, attempts, List.length_singleton]
  room := by rwa [attempts]
  due := List.forall_mem_append.mpr ⟨waiting.due, List.forall_mem_singleton.mpr due⟩
  waits := by
    rw [List.map_append, waiting.waits, attempts, List.range_succ, List.map_append, List.map_singleton,
      List.map_singleton, wait]
  spaced := waiting.spaced_concat at_
  next := by
    intro last is
    rw [List.getLast?_concat, Option.mem_some] at is
    subst is
    exact ⟨_, wait, nextAt⟩

end Log

/-- The invariant of the watched queue. -/
structure Sound (queue : List (Nat × PendingDelivery)) (trace : Trace) : Prop where
  fits : queue.length ≤ pendingDeliveriesMax
  distinct : (queue.map fun item => item.2.key).Nodup
  ordered : (queue.map Prod.fst).Pairwise (· < ·)
  fresh : ∀ item ∈ queue, item.1 < trace.serials
  attempted : ∀ attempt ∈ trace.attempts, attempt.serial < trace.serials
  waiting : ∀ item ∈ queue, Waiting (trace.log item.1) item.2
  left : ∀ departure ∈ trace.gone, departure.serial < trace.serials ∧
    departure.serial ∉ queue.map Prod.fst ∧ Disciplined (trace.log departure.serial) ∧
    Explained (trace.log departure.serial) departure
  accounted : ∀ serial < trace.serials, serial ∈ queue.map Prod.fst ∨
    ∃ departure ∈ trace.gone, departure.serial = serial

section Sound

variable {done rest queue : List (Nat × PendingDelivery)} {item : Nat × PendingDelivery} {trace : Trace}
  {attempt : Attempt} {entry : PendingDelivery}

theorem log_append_self {serial : Nat} {attempts : List Attempt}
    (own : ∀ attempt ∈ attempts, attempt.serial = serial) (trace : Trace) (gone : List Departure) :
    ({ trace with attempts := trace.attempts ++ attempts, gone } : Trace).log serial =
      trace.log serial ++ attempts := by
  have all : attempts.filter (fun attempt => attempt.serial = serial) = attempts :=
    List.filter_eq_self.mpr fun attempt member => decide_eq_true (own attempt member)
  simp only [Trace.log, List.filter_append, all]

theorem log_append_of_ne {serial other : Nat} {attempts : List Attempt}
    (own : ∀ attempt ∈ attempts, attempt.serial = serial) (ne : other ≠ serial) (trace : Trace)
    (gone : List Departure) :
    ({ trace with attempts := trace.attempts ++ attempts, gone } : Trace).log other =
      trace.log other := by
  have none_ : attempts.filter (fun attempt => attempt.serial = other) = [] := by
    refine List.filter_eq_nil_iff.mpr fun attempt member => ?_
    rw [own attempt member]
    simpa using ne.symm
  simp only [Trace.log, List.filter_append, none_, List.append_nil]

/-- Nothing has been sent under a serial that is not given out. -/
theorem Sound.log_fresh (sound : Sound queue trace) {serial : Nat} (fresh : trace.serials ≤ serial) :
    trace.log serial = [] :=
  List.filter_eq_nil_iff.mpr fun attempt member => by
    have before := sound.attempted attempt member
    simp only [decide_eq_true_eq]
    omega

theorem Sound.disciplined_log (sound : Sound queue trace) (serial : Nat) :
    Disciplined (trace.log serial) := by
  by_cases given : serial < trace.serials
  · rcases sound.accounted serial given with inside | ⟨departure, member, rfl⟩
    · obtain ⟨item, member, rfl⟩ := List.mem_map.mp inside
      exact (sound.waiting item member).disciplined
    · exact (sound.left departure member).2.2.1
  · rw [sound.log_fresh (Nat.le_of_not_lt given)]
    exact ⟨Nat.zero_le _, nofun, .nil, .nil, nofun⟩

theorem Sound.serials_ne (sound : Sound (done ++ item :: rest) trace) :
    ∀ other ∈ done ++ rest, other.1 ≠ item.1 := by
  have nodup : ((done ++ item :: rest).map Prod.fst).Nodup :=
    sound.ordered.imp fun before => before.ne
  rw [List.map_append, List.map_cons, List.nodup_middle, ← List.map_append, List.nodup_cons] at nodup
  exact fun other member same => nodup.1 (same ▸ List.mem_map_of_mem member)

theorem mem_middle {α : Type*} {x y : α} {done rest : List α} :
    x ∈ done ++ y :: rest ↔ x ∈ done ++ rest ∨ x = y := by
  simp only [List.mem_append, List.mem_cons]
  tauto

/-- An entry that stays where it is, after another attempt. -/
theorem Sound.stay (sound : Sound (done ++ item :: rest) trace) (serial : attempt.serial = item.1)
    (key : entry.key = item.2.key) (waiting : Waiting (trace.log item.1 ++ [attempt]) entry) :
    Sound (done ++ (item.1, entry) :: rest) { trace with attempts := trace.attempts ++ [attempt] } := by
  have own : ∀ other ∈ [attempt], other.serial = item.1 := List.forall_mem_singleton.mpr serial
  have serials : (done ++ (item.1, entry) :: rest).map Prod.fst = (done ++ item :: rest).map Prod.fst := by
    simp
  have here : item ∈ done ++ item :: rest := mem_middle.mpr (.inr rfl)
  constructor
  · simpa using sound.fits
  · simpa [key] using sound.distinct
  · exact serials ▸ sound.ordered
  · intro other member
    rcases mem_middle.mp member with old | rfl
    · exact sound.fresh other (mem_middle.mpr (.inl old))
    · exact sound.fresh item here
  · exact List.forall_mem_append.mpr
      ⟨sound.attempted, List.forall_mem_singleton.mpr (serial ▸ sound.fresh item here)⟩
  · intro other member
    rcases mem_middle.mp member with old | rfl
    · rw [log_append_of_ne own (sound.serials_ne other old)]
      exact sound.waiting other (mem_middle.mpr (.inl old))
    · rw [log_append_self own]
      exact waiting
  · intro departure member
    obtain ⟨given, absent, disciplined, explained⟩ := sound.left departure member
    have ne : departure.serial ≠ item.1 := fun same =>
      absent (same ▸ List.mem_map_of_mem here)
    rw [log_append_of_ne own ne, serials]
    exact ⟨given, absent, disciplined, explained⟩
  · intro number given
    rw [serials]
    exact sound.accounted number given

/-- An entry that leaves, with or without a last attempt. -/
theorem Sound.leave (sound : Sound (done ++ item :: rest) trace) (attempts : List Attempt) (fate : Fate)
    (own : ∀ attempt ∈ attempts, attempt.serial = item.1)
    (disciplined : Disciplined (trace.log item.1 ++ attempts))
    (explained : Explained (trace.log item.1 ++ attempts) ⟨item.1, item.2, fate⟩) :
    Sound (done ++ rest)
      { trace with
        attempts := trace.attempts ++ attempts
        gone := trace.gone ++ [⟨item.1, item.2, fate⟩] } := by
  have here : item ∈ done ++ item :: rest := mem_middle.mpr (.inr rfl)
  have sublist : (done ++ rest).Sublist (done ++ item :: rest) :=
    (List.Sublist.refl done).append (List.sublist_cons_self item rest)
  constructor
  · exact sublist.length_le.trans sound.fits
  · exact (sublist.map _).nodup sound.distinct
  · exact sound.ordered.sublist (sublist.map _)
  · exact fun other member => sound.fresh other (sublist.subset member)
  · refine List.forall_mem_append.mpr ⟨sound.attempted, fun attempt member => ?_⟩
    rw [own attempt member]
    exact sound.fresh item here
  · intro other member
    rw [log_append_of_ne own (sound.serials_ne other member)]
    exact sound.waiting other (sublist.subset member)
  · refine List.forall_mem_append.mpr ⟨fun departure member => ?_, List.forall_mem_singleton.mpr ?_⟩
    · obtain ⟨given, absent, old, reason⟩ := sound.left departure member
      have ne : departure.serial ≠ item.1 := fun same => absent (same ▸ List.mem_map_of_mem here)
      rw [log_append_of_ne own ne]
      exact ⟨given, fun inside => absent ((sublist.map _).subset inside), old, reason⟩
    · rw [log_append_self own]
      refine ⟨sound.fresh item here, fun inside => ?_, disciplined, explained⟩
      obtain ⟨other, member, same⟩ := List.mem_map.mp inside
      exact sound.serials_ne other member same
  · intro number given
    rcases sound.accounted number given with inside | ⟨departure, member, same⟩
    · obtain ⟨other, member, same⟩ := List.mem_map.mp inside
      rcases mem_middle.mp member with old | rfl
      · exact .inl (List.mem_map.mpr ⟨other, old, same⟩)
      · exact .inr ⟨_, List.mem_append_right _ (List.mem_singleton_self _), same⟩
    · exact .inr ⟨departure, List.mem_append_left _ member, same⟩

variable (failures : Failures) (channels : List Channel) (now : Nat)

/-- A turn of the drain keeps the entry, gives it another attempt, or lets it go for a reason. -/
theorem sound_watchTurn (state : Progress × Trace) (sound : Sound (done ++ item :: rest) state.2) :
    Sound (done ++ ((watchTurn failures channels now state item).2.toList ++ rest))
      (watchTurn failures channels now state item).1.2 := by
  obtain ⟨progress, trace⟩ := state
  obtain ⟨serial, entry⟩ := item
  have waiting : Waiting (trace.log serial) entry :=
    sound.waiting (serial, entry) (mem_middle.mpr (.inr rfl))
  simp only [watchTurn, drainTurn]
  by_cases gone : entry.channel ∉ channels
  · have leaves := sound.leave [] (.unconfigured channels) nofun (by simpa using waiting.disciplined) gone
    simpa [gone] using leaves
  by_cases later : now < entry.nextAt
  · simpa [gone, later] using sound
  have due : entry.nextAt ≤ now := Nat.le_of_not_lt later
  rw [if_neg gone, if_neg later]
  cases failures.send progress.sends with
  | ok =>
      have disciplined :
          Disciplined (trace.log serial ++ [⟨serial, now, entry.nextAt, true, none⟩]) :=
        waiting.disciplined_concat rfl due rfl
      have explained : Explained (trace.log serial ++ [⟨serial, now, entry.nextAt, true, none⟩])
          ⟨serial, entry, .delivered⟩ := by
        simp [Explained]
      have leaves := sound.leave [⟨serial, now, entry.nextAt, true, none⟩] .delivered
        (List.forall_mem_singleton.mpr rfl) disciplined explained
      simpa using leaves
  | failed error =>
      by_cases last : channelRetryMaxAttempts ≤ entry.attempts + 1
      · have disciplined :
            Disciplined (trace.log serial ++ [⟨serial, now, entry.nextAt, false, none⟩]) :=
          waiting.disciplined_concat rfl due rfl
        have full : (trace.log serial).length + 1 = channelRetryMaxAttempts := by
          have room := waiting.room
          rw [waiting.count]
          omega
        have leaves := sound.leave [⟨serial, now, entry.nextAt, false, none⟩] .exhausted
          (List.forall_mem_singleton.mpr rfl) disciplined (List.length_append.trans full)
        simpa [last] using leaves
      · let retry : PendingDelivery :=
          { entry with
            attempts := entry.attempts + 1
            nextAt := now + channelRetryDelaySec (entry.attempts + 1)
            lastError := some (cut 200 error) }
        have again : Waiting (trace.log serial ++ [⟨serial, now, entry.nextAt, false,
            some (channelRetryDelaySec (entry.attempts + 1))⟩]) retry :=
          waiting.retry rfl due rfl (Nat.lt_of_not_le last) rfl rfl
        have stays : Sound (done ++ (serial, retry) :: rest)
            { trace with
              attempts := trace.attempts ++ [⟨serial, now, entry.nextAt, false,
                some (channelRetryDelaySec (entry.attempts + 1))⟩] } :=
          sound.stay rfl rfl again
        simpa [last, retry] using stays

end Sound

section Steps

variable {watched : Watched}

/-- What is watched of a turn is the turn. -/
theorem watchTurn_drainTurn (failures : Failures) (channels : List Channel) (now : Nat)
    (state : Progress × Trace) (item : Nat × PendingDelivery) :
    drainTurn failures channels now state.1 item.2 =
      ((watchTurn failures channels now state item).1.1,
        (watchTurn failures channels now state item).2.map Prod.snd) := by
  simp [watchTurn]

theorem apply_drain (failures : Failures) (channels : List Channel)
    (backoff : OrderedMap Channel Backoff) (now : Nat) :
    (QueueOp.drain failures channels backoff now).apply (watched.queue.map Prod.snd) =
      (watched.step (.drain failures channels backoff now)).queue.map Prod.snd := by
  let progress : Progress := { backoff, pending := watched.queue.map Prod.snd, alertState := .empty }
  have viewed := keepFrom_map Prod.fst Prod.snd (watchTurn_drainTurn failures channels now)
    (progress, watched.trace) watched.queue
  simp only [QueueOp.apply, drainInPlace, Watched.step, compact_eq]
  exact congrArg Prod.snd viewed

theorem apply_enqueue (entry : PendingDelivery) :
    (enqueuePendingDelivery (watched.queue.map Prod.snd) entry).1 =
      (watched.enqueue entry).queue.map Prod.snd := by
  have same : ((watched.queue.map Prod.snd).any fun item => item.key = entry.key) =
      watched.queue.any fun item => item.2.key = entry.key := by
    rw [List.any_map]
    rfl
  rw [enqueuePendingDelivery, Watched.enqueue, same]
  split
  · rfl
  · simp [List.rtake_eq_reverse_take_reverse, List.map_take]

/-- The watched queue is the queue. -/
theorem apply_eq (op : QueueOp) :
    op.apply (watched.queue.map Prod.snd) = (watched.step op).queue.map Prod.snd := by
  cases op with
  | drain failures channels backoff now => exact apply_drain failures channels backoff now
  | enqueue batch channel now nextAt => exact apply_enqueue _
  | write => exact List.map_take.symm

theorem run_eq (ops : List QueueOp) (watched : Watched) :
    Runs.run QueueOp.apply (watched.queue.map Prod.snd) ops =
      (Runs.run Watched.step watched ops).queue.map Prod.snd := by
  induction ops generalizing watched with
  | nil => rfl
  | cons op rest ih =>
      rw [Runs.run_cons, Runs.run_cons, apply_eq, ih]

theorem sound_drain (sound : Sound watched.queue watched.trace) (failures : Failures)
    (channels : List Channel) (backoff : OrderedMap Channel Backoff) (now : Nat) :
    Sound (watched.step (.drain failures channels backoff now)).queue
      (watched.step (.drain failures channels backoff now)).trace :=
  keepFrom_invariant (fun (state : Progress × Trace) items => Sound items state.2)
    (fun state _ _ _ => sound_watchTurn failures channels now state) sound

/-- A fresh entry behind the others, before the oldest are dropped. -/
theorem fresh_waiting (sound : Sound watched.queue watched.trace) {entry : PendingDelivery}
    (attempts : entry.attempts = 0) : Waiting (watched.trace.log watched.trace.serials) entry := by
  rw [sound.log_fresh le_rfl]
  exact ⟨attempts.symm, by rw [attempts]; decide, nofun, by rw [attempts]; rfl, .nil, nofun⟩

theorem rdrop_append_rtake {α : Type*} (items : List α) (count : Nat) :
    items.rdrop count ++ items.rtake count = items := by
  rw [List.rdrop, List.rtake, List.take_append_drop]

/-- What is dropped is older than what stays, and what stays is the most that there may be. -/
theorem sound_enqueue (sound : Sound watched.queue watched.trace) {entry : PendingDelivery}
    (attempts : entry.attempts = 0) :
    Sound (watched.enqueue entry).queue (watched.enqueue entry).trace := by
  unfold Watched.enqueue
  split
  · exact sound
  rename_i absent
  set whole := watched.queue ++ [(watched.trace.serials, entry)] with wholeEq
  have parts : whole.rdrop pendingDeliveriesMax ++ whole.rtake pendingDeliveriesMax = whole :=
    rdrop_append_rtake whole _
  have new : entry.key ∉ watched.queue.map fun item => item.2.key := by
    simpa using absent
  have keys : (whole.map fun item => item.2.key).Nodup := by
    rw [wholeEq, List.map_append]
    exact sound.distinct.append (List.nodup_singleton _) (List.disjoint_singleton.mpr new)
  have given : ∀ item ∈ whole, item.1 < watched.trace.serials + 1 :=
    List.forall_mem_append.mpr
      ⟨fun item member => (sound.fresh item member).trans (Nat.lt_succ_self _),
        List.forall_mem_singleton.mpr (Nat.lt_succ_self _)⟩
  have order : whole.Pairwise fun older newer => older.1 < newer.1 := by
    refine List.pairwise_append.mpr ⟨List.pairwise_map.mp sound.ordered, List.pairwise_singleton _ _, ?_⟩
    exact fun older member => List.forall_mem_singleton.mpr (sound.fresh older member)
  have waits : ∀ item ∈ whole, Waiting (watched.trace.log item.1) item.2 :=
    List.forall_mem_append.mpr
      ⟨sound.waiting, List.forall_mem_singleton.mpr (fresh_waiting sound attempts)⟩
  have sublist : (whole.rtake pendingDeliveriesMax).Sublist whole := List.drop_sublist _ _
  constructor
  · simp only [List.rtake, List.length_drop]
    omega
  · exact (sublist.map _).nodup keys
  · exact List.pairwise_map.mpr (order.sublist sublist)
  · exact fun item member => given item (sublist.subset member)
  · exact fun attempt member => (sound.attempted attempt member).trans (Nat.lt_succ_self _)
  · exact fun item member => waits item (sublist.subset member)
  · refine List.forall_mem_append.mpr ⟨fun departure member => ?_, fun departure member => ?_⟩
    · obtain ⟨before, out, rest⟩ := sound.left departure member
      refine ⟨before.trans (Nat.lt_succ_self _), fun inside => ?_, rest⟩
      rcases List.mem_append.mp (List.map_append ▸ (sublist.map _).subset inside) with old | same
      · exact out old
      · exact before.ne (List.mem_singleton.mp same)
    · obtain ⟨item, dropped, rfl⟩ := List.mem_map.mp member
      have inside : item ∈ whole := parts ▸ List.mem_append_left _ dropped
      have older : ∀ serial ∈ (whole.rtake pendingDeliveriesMax).map Prod.fst, item.1 < serial := by
        rw [← parts] at order
        exact List.forall_mem_map.mpr ((List.pairwise_append.mp order).2.2 item dropped)
      have full : ((whole.rtake pendingDeliveriesMax).map Prod.fst).length = pendingDeliveriesMax := by
        have some_ : 0 < (whole.rdrop pendingDeliveriesMax).length := List.length_pos_of_mem dropped
        simp only [List.rdrop, List.length_take] at some_
        simp only [List.rtake, List.length_map, List.length_drop]
        omega
      exact ⟨given item inside, fun kept => (older _ kept).false, (waits item inside).disciplined,
        full, older⟩
  · intro serial before
    have placed : serial ∈ whole.map Prod.fst ∨ ∃ departure ∈ watched.trace.gone,
        departure.serial = serial := by
      rw [wholeEq, List.map_append, List.mem_append]
      rcases Nat.lt_succ_iff_lt_or_eq.mp before with old | rfl
      · exact (sound.accounted serial old).imp_left .inl
      · exact .inl (.inr (List.mem_singleton_self _))
    rcases placed with inside | ⟨departure, member, same⟩
    · rw [← parts, List.map_append] at inside
      rcases List.mem_append.mp inside with dropped | kept
      · obtain ⟨item, member, same⟩ := List.mem_map.mp dropped
        exact .inr ⟨_, List.mem_append_right _ (List.mem_map_of_mem member), same⟩
      · exact .inl kept
    · exact .inr ⟨departure, List.mem_append_left _ member, same⟩

/-- The tail that the write cuts is empty. -/
theorem sound_step (op : QueueOp) (sound : Sound watched.queue watched.trace) :
    Sound (watched.step op).queue (watched.step op).trace := by
  cases op with
  | drain failures channels backoff now => exact sound_drain sound failures channels backoff now
  | enqueue batch channel now nextAt => exact sound_enqueue sound rfl
  | write =>
      rw [Watched.step, List.take_of_length_le sound.fits]
      exact sound

theorem sound_initial : Sound ([] : List (Nat × PendingDelivery)) {} :=
  ⟨Nat.zero_le _, .nil, .nil, nofun, nofun, nofun, nofun, nofun⟩

end Steps

/-- Whatever runs of the checks do to an empty queue: no channel and text stands in it twice, its
entries stay in the order in which they came, each is sent only when it is due, few enough times and
after waits that grow up to their bound, and none leaves without a reason. -/
theorem pending_deliveries_disciplined (ops : List QueueOp) :
    let watched := Runs.run Watched.step {} ops
    Runs.run QueueOp.apply [] ops = watched.queue.map Prod.snd ∧
      ((Runs.run QueueOp.apply [] ops).map PendingDelivery.key).Nodup ∧
      (watched.queue.map Prod.fst).Pairwise (· < ·) ∧
      (∀ serial, Disciplined (watched.trace.log serial)) ∧
      ∀ serial < watched.trace.serials, serial ∈ watched.queue.map Prod.fst ∨
        ∃ departure ∈ watched.trace.gone, departure.serial = serial ∧
          Explained (watched.trace.log serial) departure := by
  intro watched
  have keep : ∀ (watched : Watched) (op : QueueOp), Sound watched.queue watched.trace →
      Sound (watched.step op).queue (watched.step op).trace := fun _ op sound => sound_step op sound
  have sound : Sound watched.queue watched.trace :=
    Runs.run_invariant_of_step keep ops sound_initial
  have same : Runs.run QueueOp.apply [] ops = watched.queue.map Prod.snd := run_eq ops {}
  refine ⟨same, ?_, sound.ordered, fun serial => ?_, fun serial given => ?_⟩
  · rw [same, List.map_map]
    exact sound.distinct
  · exact sound.disciplined_log serial
  · rcases sound.accounted serial given with inside | ⟨departure, member, rfl⟩
    · exact .inl inside
    · exact .inr ⟨departure, member, rfl, (sound.left departure member).2.2.2⟩

end NieSla.Alerts
