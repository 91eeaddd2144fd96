import NieSla.Lib.WriteBehind

/-! The file of the sample queue: the loop's samples, the writer that follows them over a channel, and what the agent
loads when it starts again. -/
namespace NieSla.Agent.QueueFile

open WriteBehind (Replica Outcome)

variable {Values : Type*}

structure SamplePoint (Values : Type*) where
  ts : Int
  values : Values
deriving DecidableEq

inductive QueueCommand (Values : Type*) where
  | append (sample : SamplePoint Values)
  | acknowledgeCount (count : Nat)
  | flush

def maxQueueLoadBytes : Nat := 64 * 1024 * 1024

section Model

variable (fileSize : List (SamplePoint Values) → Nat) (maxSamples : Nat)

/-- `sample_from_json` takes no sample without a positive time. -/
def sampleFromJson (sample : SamplePoint Values) : Option (SamplePoint Values) :=
  if sample.ts ≤ 0 then none else some sample

/-- `none` where the file is parked. -/
def loadSampleQueue (content : List (SamplePoint Values)) : Option (List (SamplePoint Values)) :=
  if maxQueueLoadBytes < fileSize content then none else some (content.filterMap sampleFromJson)

/-- `samples.drain(0..samples.len() - cfg.queue_max_samples)` -/
def keepNewest (samples : List (SamplePoint Values)) : List (SamplePoint Values) :=
  samples.drop (samples.length - maxSamples)

def runCommand (samples : List (SamplePoint Values)) : QueueCommand Values → List (SamplePoint Values)
  | .append sample =>
      if maxSamples < (samples ++ [sample]).length then (samples ++ [sample]).drop 1 else samples ++ [sample]
  | .acknowledgeCount count => samples.drop (min count samples.length)
  | .flush => samples

/-- What `run` makes of a file that it can load. -/
def reload (content : List (SamplePoint Values)) : List (SamplePoint Values) :=
  keepNewest maxSamples (content.filterMap sampleFromJson)

/-- `answers` are the replies to the flushes since the start: how many commands the writer had run, and whether the
reply was `Ok`. -/
structure State (Values : Type*) where
  queue : Replica (List (SamplePoint Values)) (QueueCommand Values)
  answers : List (Nat × Bool)

def start (content : List (SamplePoint Values)) : State Values where
  queue := match loadSampleQueue fileSize content with
    | some _ => Replica.start (reload maxSamples) content
    | none => Replica.start (reload maxSamples) []
  answers := []

inductive Event (Values : Type*) where
  /-- The loop takes a sample, drops what was uploaded, or asks for a flush. -/
  | send (command : QueueCommand Values)
  /-- The writer takes a command; each write to the file may fail, and the second one is made when `QUEUE_FLUSH_SEC`
  have passed since the last. -/
  | receive (elapsed : Bool) (first second : Outcome)
  | timeout (elapsed : Bool) (outcome : Outcome)
  | crash

/-- `if dirty && last_flush.elapsed() >= …` -/
def persistDirty (elapsed : Bool) (outcome : Outcome)
    (queue : Replica (List (SamplePoint Values)) (QueueCommand Values)) :
    Replica (List (SamplePoint Values)) (QueueCommand Values) :=
  if queue.dirty && elapsed then queue.save outcome else queue

def runQueueWriter (elapsed : Bool) (first second : Outcome) (state : State Values) : State Values :=
  let queue := state.queue.receive (runCommand maxSamples)
  match state.queue.pending with
  | [] => state
  | .append _ :: _ => { state with queue := persistDirty elapsed second queue }
  | .acknowledgeCount _ :: _ => { state with queue := persistDirty elapsed second (queue.save first) }
  | .flush :: _ =>
      { queue := persistDirty elapsed second (queue.save first)
        answers := state.answers ++ [(queue.received, decide (first = .stored))] }

def step (state : State Values) : Event Values → State Values
  | .send command => { state with queue := state.queue.issue (runCommand maxSamples) command }
  | .receive elapsed first second => runQueueWriter maxSamples elapsed first second state
  | .timeout elapsed outcome => { state with queue := persistDirty elapsed outcome state.queue }
  | .crash => start fileSize maxSamples state.queue.disk

end Model

/-- Samples are taken after 1970. -/
def Taken : QueueCommand Values → Prop
  | .append sample => 0 < sample.ts
  | _ => True

section Reload

variable {maxSamples : Nat} {samples : List (SamplePoint Values)}

theorem filterMap_eq_self (taken : ∀ sample ∈ samples, 0 < sample.ts) : samples.filterMap sampleFromJson = samples := by
  induction samples with
  | nil => rfl
  | cons sample rest ih =>
      obtain ⟨first, others⟩ := List.forall_mem_cons.mp taken
      rw [List.filterMap_cons, sampleFromJson, if_neg (Int.not_le.mpr first), ih others]

theorem reload_eq_self_iff : reload maxSamples samples = samples ↔
    samples.length ≤ maxSamples ∧ ∀ sample ∈ samples, 0 < sample.ts := by
  have loads : ∀ sample ∈ samples.filterMap sampleFromJson, 0 < sample.ts := by
    intro sample member
    obtain ⟨before, -, read⟩ := List.mem_filterMap.mp member
    unfold sampleFromJson at read
    split at read
    next => cases read
    next late =>
      rw [← Option.some.inj read]
      exact Int.not_le.mp late
  constructor
  · intro same
    unfold reload keepNewest at same
    constructor
    · rw [← same, List.length_drop]
      omega
    · rw [← same]
      exact fun sample member => loads sample (List.mem_of_mem_drop member)
  · rintro ⟨short, taken⟩
    unfold reload keepNewest
    rw [filterMap_eq_self taken, Nat.sub_eq_zero_of_le short, List.drop_zero]

theorem reload_reload (samples : List (SamplePoint Values)) :
    reload maxSamples (reload maxSamples samples) = reload maxSamples samples := by
  refine reload_eq_self_iff.mpr ⟨?_, fun sample member => ?_⟩
  · unfold reload keepNewest
    rw [List.length_drop]
    omega
  · obtain ⟨before, -, read⟩ := List.mem_filterMap.mp (List.mem_of_mem_drop member)
    unfold sampleFromJson at read
    split at read
    next => cases read
    next late =>
      rw [← Option.some.inj read]
      exact Int.not_le.mp late

theorem reload_runCommand (samples : List (SamplePoint Values)) (command : QueueCommand Values) (taken : Taken command)
    (same : reload maxSamples samples = samples) :
    reload maxSamples (runCommand maxSamples samples command) = runCommand maxSamples samples command := by
  obtain ⟨short, all⟩ := reload_eq_self_iff.mp same
  refine reload_eq_self_iff.mpr ?_
  cases command with
  | append sample =>
      have every : ∀ other ∈ samples ++ [sample], 0 < other.ts := by
        intro other member
        rcases List.mem_append.mp member with before | last
        · exact all other before
        · rw [List.mem_singleton.mp last]
          exact taken
      rw [runCommand]
      split_ifs with full
      · refine ⟨?_, fun other member => every other (List.mem_of_mem_drop member)⟩
        rw [List.length_drop, List.length_append, List.length_singleton]
        omega
      · exact ⟨Nat.not_lt.mp full, every⟩
  | acknowledgeCount count =>
      refine ⟨?_, fun other member => all other (List.mem_of_mem_drop member)⟩
      rw [runCommand, List.length_drop]
      omega
  | flush => exact ⟨short, all⟩

end Reload

/-! Runs. -/

section Runs

variable {fileSize : List (SamplePoint Values) → Nat} {maxSamples : Nat} {state : State Values}

/-- What is answered with `Ok` is on the disk. -/
structure Sound (maxSamples : Nat) (state : State Values) : Prop where
  queue : state.queue.Sound (runCommand maxSamples) (reload maxSamples) Taken
  answered : ∀ count, (count, true) ∈ state.answers → count ≤ state.queue.confirmed

theorem sound_start (content : List (SamplePoint Values)) : Sound maxSamples (start fileSize maxSamples content) where
  queue := by
    unfold start
    split
    · exact Replica.sound_start reload_reload content
    · exact Replica.sound_start reload_reload []
  answered := fun _ member => absurd member List.not_mem_nil

theorem confirmed_receive (queue : Replica (List (SamplePoint Values)) (QueueCommand Values)) :
    (queue.receive (runCommand maxSamples)).confirmed = queue.confirmed := by
  unfold Replica.receive
  split
  · rfl
  · rfl

theorem confirmed_le_save {queue : Replica (List (SamplePoint Values)) (QueueCommand Values)}
    (sound : queue.Sound (runCommand maxSamples) (reload maxSamples) Taken) (outcome : Outcome) :
    queue.confirmed ≤ (queue.save outcome).confirmed := by
  cases outcome with
  | stored => exact sound.confirmed.trans sound.stored
  | unconfirmed => exact Nat.le_refl _
  | failed => exact Nat.le_refl _

theorem sound_persistDirty {queue : Replica (List (SamplePoint Values)) (QueueCommand Values)}
    (sound : queue.Sound (runCommand maxSamples) (reload maxSamples) Taken) (elapsed : Bool) (outcome : Outcome) :
    (persistDirty elapsed outcome queue).Sound (runCommand maxSamples) (reload maxSamples) Taken ∧
      queue.confirmed ≤ (persistDirty elapsed outcome queue).confirmed := by
  unfold persistDirty
  split
  · exact ⟨sound.save reload_runCommand outcome, confirmed_le_save sound outcome⟩
  · exact ⟨sound, Nat.le_refl _⟩

theorem Sound.writer (sound : Sound maxSamples state) (elapsed : Bool) (first second : Outcome) :
    Sound maxSamples (runQueueWriter maxSamples elapsed first second state) := by
  have received := sound.queue.receive
  have saved := received.save reload_runCommand first
  obtain ⟨appended, grown⟩ := sound_persistDirty received elapsed second
  obtain ⟨again, more⟩ := sound_persistDirty saved elapsed second
  have kept : (state.queue.receive (runCommand maxSamples)).confirmed = state.queue.confirmed :=
    confirmed_receive state.queue
  have later := (confirmed_le_save received first).trans more
  unfold runQueueWriter
  dsimp only
  split
  · exact sound
  · exact ⟨appended, fun count member => (sound.answered count member).trans (kept.symm.le.trans grown)⟩
  · exact ⟨again, fun count member => (sound.answered count member).trans (kept.symm.le.trans later)⟩
  · refine ⟨again, fun count member => ?_⟩
    rcases List.mem_append.mp member with before | now
    · exact (sound.answered count before).trans (kept.symm.le.trans later)
    · obtain ⟨rfl, answer⟩ := Prod.mk.inj (List.mem_singleton.mp now)
      have written : first = .stored := by simpa using answer.symm
      rw [written] at more ⊢
      exact more

/-- An event of the loop sends a sample of today. -/
def Allowed (_ : State Values) : Event Values → Prop
  | .send command => Taken command
  | _ => True

theorem Sound.step (sound : Sound maxSamples state) {event : Event Values} (allowed : Allowed state event) :
    Sound maxSamples (step fileSize maxSamples state event) := by
  cases event with
  | send command => exact ⟨sound.queue.issue allowed, sound.answered⟩
  | receive elapsed first second => exact sound.writer elapsed first second
  | timeout elapsed outcome =>
      obtain ⟨queue, grown⟩ := sound_persistDirty sound.queue elapsed outcome
      exact ⟨queue, fun count member => (sound.answered count member).trans grown⟩
  | crash => exact sound_start _

end Runs

/-- Two samples, the first one flushed, and a crash of a writer that has lost the second. -/
def lossyRun : List (Event Unit) :=
  [.send (.append ⟨10, ()⟩), .send .flush, .receive false .stored .stored, .receive false .stored .stored,
    .send (.append ⟨40, ()⟩), .receive true .stored .failed, .crash]

end NieSla.Agent.QueueFile
