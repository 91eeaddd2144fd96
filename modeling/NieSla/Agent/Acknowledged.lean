import NieSla.Agent.Upload
import NieSla.Lib.Runs

/-! What an acknowledgement removes was uploaded, as long as nothing has been evicted since the
upload copied it. -/
namespace NieSla.Agent
open Lib

theorem accounted_popFront {α : Type} {queue : Fifo α} (accounted : queue.Accounted)
    (cap : Nat) : (popFront cap queue).Accounted := by
  unfold popFront
  split
  · exact accounted.evict 1
  · exact accounted

theorem accounted_keepLast {α : Type} {queue : Fifo α} (accounted : queue.Accounted)
    (cap : Nat) : (keepLast cap queue).Accounted := by
  unfold keepLast
  split
  · exact accounted.evict _
  · exact accounted

theorem copies_popFront {α : Type} {queue : Fifo α} {batch : Copied α}
    (copies : queue.Copies batch) (cap : Nat) : (popFront cap queue).Copies batch := by
  unfold popFront
  split
  · exact copies.leave _ _
  · exact copies

theorem copies_keepLast {α : Type} {queue : Fifo α} {batch : Copied α}
    (copies : queue.Copies batch) (cap : Nat) : (keepLast cap queue).Copies batch := by
  unfold keepLast
  split
  · exact copies.leave _ _
  · exact copies

section Sound

variable {Sample Ping ProxyCheck : Type} {cfg : Config}
  {state : Telemetry Sample Ping ProxyCheck} {upload : Upload Sample Ping ProxyCheck}

namespace Telemetry

/-- The loop takes the result of this upload for the current one. -/
def Accepts (cfg : Config) (state : Telemetry Sample Ping ProxyCheck)
    (upload : Upload Sample Ping ProxyCheck) : Prop :=
  state.stopped = false ∧ (cfg.once = true ∨ upload.generation = state.uploadGeneration)

instance (cfg : Config) (state : Telemetry Sample Ping ProxyCheck)
    (upload : Upload Sample Ping ProxyCheck) : Decidable (Accepts cfg state upload) :=
  inferInstanceAs (Decidable (_ ∧ _))

/-- No queue has lost an entry since the upload took its batches. -/
def Unmoved (state : Telemetry Sample Ping ProxyCheck)
    (upload : Upload Sample Ping ProxyCheck) : Prop :=
  state.samples.Unmoved upload.samples ∧ state.pings.Unmoved upload.pings ∧
    state.proxyChecks.Unmoved upload.proxyChecks

instance (state : Telemetry Sample Ping ProxyCheck) (upload : Upload Sample Ping ProxyCheck) :
    Decidable (state.Unmoved upload) :=
  inferInstanceAs (Decidable (_ ∧ _ ∧ _))

/-- A successful result that is accepted finds the queues as its upload has left them. -/
def Undisturbed (cfg : Config) (state : Telemetry Sample Ping ProxyCheck) :
    Event Sample Ping ProxyCheck → Prop
  | .result index (some _) =>
      ∀ upload ∈ state.uploads[index]?, Accepts cfg state upload → state.Unmoved upload
  | _ => True

instance (cfg : Config) (state : Telemetry Sample Ping ProxyCheck) :
    ∀ event, Decidable (Undisturbed cfg state event)
  | .result index (some _) =>
      inferInstanceAs (Decidable (∀ upload ∈ state.uploads[index]?, _))
  | .result _ none | .sample _ | .probes _ | .stall | .report _ _ | .write => .isTrue trivial

/-- Every entry that has left one of the queues was evicted, or was in the acknowledged upload. -/
structure Intact (state : Telemetry Sample Ping ProxyCheck) : Prop where
  samples : state.samples.Accounted
  pings : state.pings.Accounted
  proxyChecks : state.proxyChecks.Accounted
  writer : state.writer.Accounted

/-- The queues hold what the upload has copied. -/
structure Copies (state : Telemetry Sample Ping ProxyCheck)
    (upload : Upload Sample Ping ProxyCheck) : Prop where
  samples : state.samples.Copies upload.samples
  pings : state.pings.Copies upload.pings
  proxyChecks : state.proxyChecks.Copies upload.proxyChecks

/-- The samples of the writer after some of its commands. -/
def written (cfg : Config) (state : Telemetry Sample Ping ProxyCheck)
    (commands : List (QueueCommand Sample)) : Fifo Sample :=
  commands.foldl (runQueueWriter cfg) state.writer

structure Sound (cfg : Config) (state : Telemetry Sample Ping ProxyCheck) : Prop where
  samples : state.samples.Accounted
  pings : state.pings.Accounted
  proxyChecks : state.proxyChecks.Accounted
  writer : ∀ commands, commands <+: state.commands → (written cfg state commands).Accounted
  uploads : ∀ upload ∈ state.uploads, state.Copies upload
  /-- The writer follows the loop, until `--once` ends without dropping its samples. -/
  mirror : state.stopped = false → written cfg state state.commands = state.samples

theorem written_concat (commands : List (QueueCommand Sample)) (command : QueueCommand Sample) :
    written cfg state (commands ++ [command]) =
      runQueueWriter cfg (written cfg state commands) command := by
  simp [written]

/-- A command that the loop's own samples stand leaves the writer's samples accounted for. -/
theorem Sound.send (sound : Sound cfg state) (live : state.stopped = false)
    (command : QueueCommand Sample) (kept : (runQueueWriter cfg state.samples command).Accounted) :
    ∀ commands, commands <+: state.commands ++ [command] →
      (written cfg state commands).Accounted := by
  intro commands leads
  cases List.prefix_concat_iff.mp leads with
  | inl whole =>
      rw [whole, written_concat, sound.mirror live]
      exact kept
  | inr before => exact sound.writer commands before

theorem Copies.of_mem (sound : Sound cfg state) {index : Nat}
    (found : state.uploads[index]? = some upload) : state.Copies upload :=
  sound.uploads upload (List.mem_of_getElem? found)

theorem sound_start (cfg : Config) (loaded : List Sample) :
    Sound cfg (start cfg loaded : Telemetry Sample Ping ProxyCheck) where
  samples := Fifo.accounted_holding _
  pings := Fifo.accounted_holding _
  proxyChecks := Fifo.accounted_holding _
  writer := by
    intro commands leads
    rw [List.prefix_nil.mp leads]
    exact Fifo.accounted_holding _
  uploads := by
    intro upload member
    cases member
  mirror _ := rfl

theorem sound_takeSample (sound : Sound cfg state) (live : state.stopped = false)
    (sample : Sample) : Sound cfg (takeSample cfg sample state) where
  samples := accounted_popFront (sound.samples.push sample) _
  pings := sound.pings
  proxyChecks := sound.proxyChecks
  writer := sound.send live (.append sample)
    (accounted_popFront (sound.samples.push sample) _)
  uploads upload member :=
    { samples := copies_popFront ((sound.uploads upload member).samples.push sample) _
      pings := (sound.uploads upload member).pings
      proxyChecks := (sound.uploads upload member).proxyChecks }
  mirror _ := by
    change written cfg state (state.commands ++ [.append sample]) = _
    rw [written_concat, sound.mirror live]
    rfl

theorem sound_forget (sound : Sound cfg state) (index : Nat) :
    Sound cfg { state with uploads := state.uploads.eraseIdx index } where
  samples := sound.samples
  pings := sound.pings
  proxyChecks := sound.proxyChecks
  writer := sound.writer
  uploads upload member :=
    have copies := sound.uploads upload (List.mem_of_mem_eraseIdx member)
    ⟨copies.samples, copies.pings, copies.proxyChecks⟩
  mirror := sound.mirror

theorem sound_acknowledge (sound : Sound cfg state) (live : state.stopped = false)
    (copies : state.Copies upload) (unmoved : state.Unmoved upload) (interval : Option Nat) :
    Sound cfg (acknowledge upload interval state) where
  samples := sound.samples.acknowledge copies.samples unmoved.1
  pings := sound.pings.acknowledge copies.pings unmoved.2.1
  proxyChecks := sound.proxyChecks.acknowledge copies.proxyChecks unmoved.2.2
  writer := sound.send live (.acknowledgeCount upload.samples)
    (sound.samples.acknowledge copies.samples unmoved.1)
  uploads other member :=
    have before := sound.uploads other member
    ⟨before.samples.leave _ _, before.pings.leave _ _, before.proxyChecks.leave _ _⟩
  mirror _ := by
    change written cfg state (state.commands ++ [.acknowledgeCount upload.samples]) = _
    rw [written_concat, sound.mirror live]
    rfl

theorem sound_acknowledgeOnce (sound : Sound cfg state) (live : state.stopped = false)
    (copies : state.Copies upload) (unmoved : state.Unmoved upload) :
    Sound cfg (acknowledgeOnce upload state) where
  samples := sound.samples
  pings := sound.pings.acknowledge copies.pings unmoved.2.1
  proxyChecks := sound.proxyChecks.acknowledge copies.proxyChecks unmoved.2.2
  writer := sound.send live (.acknowledgeCount upload.samples)
    (sound.samples.acknowledge copies.samples unmoved.1)
  uploads other member :=
    have before := sound.uploads other member
    ⟨before.samples, before.pings.leave _ _, before.proxyChecks.leave _ _⟩
  mirror stopped := by cases stopped

/-- Soundness is about the queues, the uploads and the writer only. -/
theorem sound_marks (sound : Sound cfg state) (uploading failed : Bool) {stopped : Bool}
    (live : stopped = false → state.stopped = false) :
    Sound cfg { state with
      uploading := uploading, lastUploadFailed := failed, stopped := stopped } where
  samples := sound.samples
  pings := sound.pings
  proxyChecks := sound.proxyChecks
  writer := sound.writer
  uploads upload member :=
    have copies := sound.uploads upload member
    ⟨copies.samples, copies.pings, copies.proxyChecks⟩
  mirror running := sound.mirror (live running)

theorem sound_receive (sound : Sound cfg state) (live : state.stopped = false)
    (copies : state.Copies upload) (reply : Option (Option Nat))
    (unmoved : ∀ interval, reply = some interval → Accepts cfg state upload →
      state.Unmoved upload) : Sound cfg (receive cfg upload reply state) := by
  unfold receive
  split
  · rename_i once
    cases reply with
    | none => exact sound_marks sound _ _ fun running => by cases running
    | some interval =>
        exact sound_acknowledgeOnce sound live copies (unmoved interval rfl ⟨live, Or.inl once⟩)
  · split
    · exact sound
    · rename_i current
      cases reply with
      | none => exact sound_marks sound _ _ id
      | some interval =>
          exact sound_acknowledge sound live copies
            (unmoved interval rfl ⟨live, Or.inr (not_not.mp current)⟩) interval

theorem accounted_pushes {α : Type} {queue : Fifo α} (accounted : queue.Accounted)
    (items : List α) : (items.foldl (fun queue item => queue.push item) queue).Accounted := by
  induction items generalizing queue with
  | nil => exact accounted
  | cons item rest ih => exact ih (accounted.push item)

theorem copies_pushes {α : Type} {queue : Fifo α} {batch : Copied α} (copies : queue.Copies batch)
    (items : List α) : (items.foldl (fun queue item => queue.push item) queue).Copies batch := by
  induction items generalizing queue with
  | nil => exact copies
  | cons item rest ih => exact ih (copies.push item)

theorem sound_receivePings (sound : Sound cfg state) (batch : PingBatch Ping ProxyCheck) :
    Sound cfg (receivePings batch state) where
  samples := sound.samples
  pings := accounted_pushes sound.pings _
  proxyChecks := accounted_pushes sound.proxyChecks _
  writer := sound.writer
  uploads upload member :=
    have copies := sound.uploads upload member
    ⟨copies.samples, copies_pushes copies.pings _, copies_pushes copies.proxyChecks _⟩
  mirror := sound.mirror

theorem sound_capProbes (sound : Sound cfg state) : Sound cfg (capProbes state) where
  samples := sound.samples
  pings := accounted_keepLast sound.pings _
  proxyChecks := accounted_keepLast sound.proxyChecks _
  writer := sound.writer
  uploads upload member :=
    have copies := sound.uploads upload member
    ⟨copies.samples, copies_keepLast copies.pings _,
      copies_keepLast copies.proxyChecks _⟩
  mirror := sound.mirror

theorem sound_startUpload (sound : Sound cfg state) : Sound cfg (startUpload state) where
  samples := sound.samples
  pings := sound.pings
  proxyChecks := sound.proxyChecks
  writer := sound.writer
  uploads upload member := by
    cases List.mem_append.mp member with
    | inl running =>
        have copies := sound.uploads upload running
        exact ⟨copies.samples, copies.pings, copies.proxyChecks⟩
    | inr new =>
        rw [List.mem_singleton.mp new]
        exact ⟨Fifo.copies_copy _ _, Fifo.copies_copy _ _, Fifo.copies_copy _ _⟩
  mirror := sound.mirror

theorem sound_write (sound : Sound cfg state) : Sound cfg (step cfg state .write) := by
  simp only [step]
  split
  · exact sound
  · rename_i command rest queued
    constructor
    · exact sound.samples
    · exact sound.pings
    · exact sound.proxyChecks
    · intro commands leads
      apply sound.writer (command :: commands)
      rw [queued]
      exact List.cons_prefix_cons.mpr ⟨rfl, leads⟩
    · intro upload member
      have copies := sound.uploads upload member
      exact ⟨copies.samples, copies.pings, copies.proxyChecks⟩
    · intro running
      have mirror := sound.mirror running
      rw [queued] at mirror
      exact mirror

/-- One step keeps the queues accounted for, when a result that is accepted finds them unmoved. -/
theorem sound_step (event : Event Sample Ping ProxyCheck) (sound : Sound cfg state)
    (undisturbed : Undisturbed cfg state event) : Sound cfg (step cfg state event) := by
  cases event with
  | write => exact sound_write sound
  | result index reply =>
      simp only [step]
      split
      · rename_i upload found
        split
        · exact sound
        · rename_i running
          apply sound_receive (sound_forget sound index) (Bool.eq_false_iff.mpr running)
          · have copies := Copies.of_mem sound found
            exact ⟨copies.samples, copies.pings, copies.proxyChecks⟩
          · rintro interval rfl accepts
            exact undisturbed upload found accepts
      · exact sound
  | sample sample =>
      simp only [step]
      split
      · exact sound
      · rename_i free
        simp only [Bool.or_eq_true, not_or] at free
        exact sound_takeSample sound (Bool.eq_false_iff.mpr free.1) sample
  | probes batches =>
      simp only [step]
      split
      · exact sound
      · rename_i free
        apply sound_capProbes
        clear undisturbed free
        induction batches generalizing state with
        | nil => exact sound
        | cons batch rest ih => exact ih (sound_receivePings sound batch)
  | stall =>
      simp only [step]
      split
      · exact sound
      · exact sound_marks sound _ _ id
  | report periodElapsed retryElapsed =>
      simp only [step]
      split
      · exact sound
      · split
        · exact sound_startUpload sound
        · exact sound

theorem Sound.intact (sound : Sound cfg state) : state.Intact where
  samples := sound.samples
  pings := sound.pings
  proxyChecks := sound.proxyChecks
  writer := sound.writer [] (List.nil_prefix)

/-- In a run whose accepted results find the queues as their uploads have left them, an entry
leaves a queue by eviction or with an acknowledged upload that contained it. -/
theorem acknowledged_entries_uploaded (cfg : Config) (loaded : List Sample)
    (events : List (Event Sample Ping ProxyCheck))
    (undisturbed : Runs.Along (step cfg) (Undisturbed cfg) (start cfg loaded) events) :
    (Runs.run (step cfg) (start cfg loaded) events).Intact := by
  have sound := Runs.run_invariant (fun _ event sound allowed => sound_step event sound allowed)
    (sound_start cfg loaded) undisturbed
  exact sound.intact

end Telemetry

end Sound

namespace Telemetry

private def atLimit : Config := ⟨false, 900, 300⟩

theorem acknowledged_entries_uploaded_oneUpload :
    let state := Runs.run (step atLimit) (start atLimit [1, 2] : Telemetry Nat Nat Nat)
      [.sample 3, .probes [⟨[10, 11], [20], 20⟩], .report false false, .sample 4,
        .result 0 (some (some 600)), .write, .write, .write]
    state.Intact ∧ state.samples.entries = [4] ∧ state.writer.entries = [4] :=
  ⟨acknowledged_entries_uploaded atLimit [1, 2] _ (by decide), by decide, by decide⟩

/-- A full queue loses its first sample while the upload is on its way; the acknowledgement then
removes a sample that came after the upload had started. -/
theorem unsent_sample_acknowledged :
    ¬ (Runs.run (step atLimit) (start atLimit (List.range 900) : Telemetry Nat Nat Nat)
      [.sample 900, .report true true, .sample 901, .result 0 (some none)]).Intact := by
  intro intact
  have held := intact.samples 901 ⟨1, List.range' 1 900⟩ 901 (by decide +kernel)
    (by decide +kernel)
  exact absurd held.2 (by decide +kernel)

end Telemetry

end NieSla.Agent
