import NieSla.Lib.Runs

/-! A state that is changed by commands, a copy that takes the same commands later from a queue, and a disk to which
the copy is written from time to time. A crash leaves the disk alone. -/
namespace WriteBehind

variable {σ κ : Type*}

/-- What becomes of a write that replaces the file at once. -/
inductive Outcome where
  | stored
  /-- The file is new, but an error was reported after that. -/
  | unconfirmed
  | failed
deriving DecidableEq

/-- `base` is what the last start has loaded, `log` the commands since; `stored` of these are on the disk, and at
the last write without an error it was `confirmed`. -/
structure Replica (σ κ : Type*) where
  primary : σ
  pending : List κ
  copy : σ
  dirty : Bool
  disk : σ
  base : σ
  log : List κ
  stored : Nat
  confirmed : Nat

namespace Replica

variable (apply : σ → κ → σ) (reload : σ → σ)

/-- The number of commands that the copy has taken. -/
def received (state : Replica σ κ) : Nat := state.log.length - state.pending.length

def start (disk : σ) : Replica σ κ where
  primary := reload disk
  pending := []
  copy := reload disk
  dirty := false
  disk := disk
  base := reload disk
  log := []
  stored := 0
  confirmed := 0

def issue (command : κ) (state : Replica σ κ) : Replica σ κ :=
  { state with
    primary := apply state.primary command
    pending := state.pending ++ [command]
    log := state.log ++ [command] }

/-- The copy takes the first command that waits. -/
def receive (state : Replica σ κ) : Replica σ κ :=
  match state.pending with
  | [] => state
  | command :: rest => { state with pending := rest, copy := apply state.copy command, dirty := true }

def save (outcome : Outcome) (state : Replica σ κ) : Replica σ κ :=
  match outcome with
  | .stored =>
      { state with dirty := false, disk := state.copy, stored := state.received, confirmed := state.received }
  | .unconfirmed => { state with dirty := true, disk := state.copy, stored := state.received }
  | .failed => { state with dirty := true }

def restart (state : Replica σ κ) : Replica σ κ := start reload state.disk

/-- The state after the first commands of the log. -/
def after (count : Nat) (state : Replica σ κ) : σ := (state.log.take count).foldl apply state.base

/-- The copy follows the primary, and a start would load what the primary was after the first commands, not fewer
than at the last confirmed write. -/
structure Sound (good : κ → Prop) (state : Replica σ κ) : Prop where
  mirror : state.pending.foldl apply state.copy = state.primary
  waiting : state.pending = state.log.drop state.received
  within : state.pending.length ≤ state.log.length
  copied : state.copy = state.after apply state.received
  kept : reload state.disk = state.after apply state.stored
  confirmed : state.confirmed ≤ state.stored
  stored : state.stored ≤ state.received
  clean : state.dirty = false → reload state.disk = state.copy
  fixed : reload state.base = state.base
  good : ∀ command ∈ state.log, good command

section Rules

variable {apply} {reload} {good : κ → Prop} {state : Replica σ κ}

theorem sound_start (idem : ∀ disk, reload (reload disk) = reload disk) (disk : σ) :
    Sound apply reload good (start reload disk : Replica σ κ) where
  mirror := rfl
  waiting := rfl
  within := Nat.le_refl _
  copied := rfl
  kept := rfl
  confirmed := Nat.le_refl _
  stored := Nat.le_refl _
  clean _ := rfl
  fixed := idem disk
  good := fun _ member => absurd member List.not_mem_nil

theorem Sound.restart (idem : ∀ disk, reload (reload disk) = reload disk) :
    Sound apply reload good (restart reload state) :=
  sound_start idem state.disk

theorem received_issue (within : state.pending.length ≤ state.log.length) (command : κ) :
    (issue apply command state).received = state.received := by
  simp only [received, issue, List.length_append, List.length_singleton]
  omega

theorem after_issue {count : Nat} (low : count ≤ state.log.length) (command : κ) :
    (issue apply command state).after apply count = state.after apply count := by
  unfold after issue
  dsimp only
  rw [List.take_append_of_le_length low]

theorem received_le (state : Replica σ κ) : state.received ≤ state.log.length := Nat.sub_le _ _

theorem Sound.issue (sound : Sound apply reload good state) {command : κ} (allowed : good command) :
    Sound apply reload good (issue apply command state) where
  mirror := by
    change (state.pending ++ [command]).foldl apply state.copy = apply state.primary command
    rw [List.foldl_append, sound.mirror]
    rfl
  waiting := by
    rw [received_issue sound.within]
    change state.pending ++ [command] = (state.log ++ [command]).drop state.received
    rw [List.drop_append_of_le_length (received_le state), ← sound.waiting]
  within := by
    simp only [Replica.issue, List.length_append, List.length_singleton]
    exact Nat.add_le_add_right sound.within 1
  copied := by
    rw [received_issue sound.within, after_issue (received_le state)]
    exact sound.copied
  kept := by
    have low := sound.stored.trans (received_le state)
    have same : (Replica.issue apply command state).after apply state.stored = state.after apply state.stored :=
      after_issue low command
    exact sound.kept.trans same.symm
  confirmed := sound.confirmed
  stored := by
    rw [received_issue sound.within]
    exact sound.stored
  clean := sound.clean
  fixed := sound.fixed
  good := by
    intro other member
    rcases List.mem_append.mp member with before | same
    · exact sound.good other before
    · rw [List.mem_singleton.mp same]
      exact allowed

theorem Sound.receive (sound : Sound apply reload good state) : Sound apply reload good (receive apply state) := by
  unfold Replica.receive
  cases waits : state.pending with
  | nil => exact sound
  | cons command rest =>
      have length : state.pending.length = rest.length + 1 := by rw [waits, List.length_cons]
      have within := sound.within
      have next : state.log.length - rest.length = state.received + 1 := by
        unfold received
        omega
      have split_ : state.log.drop state.received = command :: rest := sound.waiting.symm.trans waits
      have taken : state.log.take (state.received + 1) = state.log.take state.received ++ [command] := by
        have found : state.log[state.received]? = some command := by
          rw [← List.head?_drop, split_, List.head?_cons]
        rw [List.take_add_one, found]
        rfl
      refine ⟨?_, ?_, by dsimp only; omega, ?_, sound.kept, sound.confirmed, ?_, nofun, sound.fixed, sound.good⟩
      · have mirror := sound.mirror
        rw [waits] at mirror
        exact mirror
      · change rest = state.log.drop (state.log.length - rest.length)
        rw [next, ← List.drop_drop, split_]
        rfl
      · change apply state.copy command = (state.log.take (state.log.length - rest.length)).foldl apply state.base
        rw [next, taken, List.foldl_append, sound.copied]
        rfl
      · change state.stored ≤ state.log.length - rest.length
        rw [next]
        exact sound.stored.trans (Nat.le_succ _)

/-- What a start loads stays as it is under good commands. -/
theorem Sound.reload_copy (sound : Sound apply reload good state)
    (steady : ∀ value command, good command → reload value = value → reload (apply value command) = apply value command) :
    reload state.copy = state.copy := by
  rw [sound.copied, after]
  have allowed : ∀ command ∈ state.log.take state.received, good command :=
    fun command member => sound.good command (List.mem_of_mem_take member)
  have fixed := sound.fixed
  generalize state.log.take state.received = commands at allowed
  generalize state.base = value at fixed
  induction commands generalizing value with
  | nil => exact fixed
  | cons command rest ih =>
      obtain ⟨first, others⟩ := List.forall_mem_cons.mp allowed
      exact ih others _ (steady value command first fixed)

theorem Sound.save (sound : Sound apply reload good state)
    (steady : ∀ value command, good command → reload value = value → reload (apply value command) = apply value command)
    (outcome : Outcome) : Sound apply reload good (save outcome state) := by
  have written : reload state.copy = state.after apply state.received :=
    (sound.reload_copy steady).trans sound.copied
  cases outcome with
  | stored =>
      exact ⟨sound.mirror, sound.waiting, sound.within, sound.copied, written, Nat.le_refl _, Nat.le_refl _,
        fun _ => sound.reload_copy steady, sound.fixed, sound.good⟩
  | unconfirmed =>
      exact ⟨sound.mirror, sound.waiting, sound.within, sound.copied, written,
        sound.confirmed.trans sound.stored, Nat.le_refl _, nofun, sound.fixed, sound.good⟩
  | failed =>
      exact ⟨sound.mirror, sound.waiting, sound.within, sound.copied, sound.kept, sound.confirmed, sound.stored,
        nofun, sound.fixed, sound.good⟩

end Rules

end Replica

end WriteBehind
