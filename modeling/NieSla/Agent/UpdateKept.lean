import NieSla.Agent.SelfUpdate

/-! What the self-update keeps: a binary to run, the binary that an unconfirmed update replaced,
and nothing to restore after a confirmation. -/
namespace NieSla.Agent

theorem fileStem_eq_of_withExtension {name : String} (named : withExtension name "bak" = backupFileName) :
    fileStem name = "nie-sla-agent" := by
  have chars : (fileStem name).toList ++ ".bak".toList = "nie-sla-agent".toList ++ ".bak".toList := by
    have same := congrArg String.toList named
    simpa [withExtension, backupFileName, List.append_assoc] using same
  exact String.toList_injective (List.append_cancel_right chars)

theorem tempName_eq {exe : String} (named : withExtension exe "bak" = backupFileName) (pid : Nat) :
    tempName exe pid = "nie-sla-agent.update-" ++ toString pid := by
  rw [tempName, withExtension, fileStem_eq_of_withExtension named]
  apply String.toList_injective
  simp

theorem tempName_ne_backup {exe : String} (named : withExtension exe "bak" = backupFileName) (pid : Nat) :
    tempName exe pid ≠ backupFileName := by
  rw [tempName_eq named]
  intro same
  have chars := congrArg (fun name => name.toList[14]?) same
  simp [backupFileName] at chars

theorem tempName_ne_failed {exe : String} (named : withExtension exe "bak" = backupFileName) (pid : Nat) :
    tempName exe pid ≠ failedFileName := by
  rw [tempName_eq named]
  intro same
  have chars := congrArg (fun name => name.toList[14]?) same
  simp [failedFileName] at chars

/-- The executable has the stem of the backup, and is none of the files that the updater removes. -/
structure AgentName (exe : String) : Prop where
  backup : withExtension exe "bak" = backupFileName
  ne_backup : exe ≠ backupFileName
  ne_failed : exe ≠ failedFileName

namespace Host

variable {Binary : Type}

def Runnable (exe : String) (host : Host Binary) : Prop :=
  ∃ binary ∈ host.complete, host.dir exe = some (.file binary)

/-- Between the two renames of an install or of a rollback. -/
def Between : UpdatePhase Binary → Prop
  | .restore | .swap _ _ => True
  | _ => False

/-- The marker stands beside a backup that is not the one of a pending installed update. -/
def Foreign (host : Host Binary) : Prop :=
  host.marker ≠ none ∧ ∃ binary, host.dir backupFileName = some (.file binary) ∧
    ∀ update, host.update = some update → ¬ (update.installed = true ∧ update.old = binary)

structure Kept (exe : String) (host : Host Binary) : Prop where
  runnable : ¬ Between host.phase → host.Runnable exe
  restored : ∀ entry ∈ host.restored, ∃ update, entry.2 = some update ∧ update.installed = true ∧
    entry.1 = .file update.old
  passed : ∀ entry ∈ host.passed, ∀ update, entry.1 = some update → update.installed = true →
    entry.2 ≤ update.recorded + updatePendingConfirmWindowSec

/-- A kill meets none of the states that the updater cannot recover from. -/
def Spared (host : Host Binary) : UpdateEvent Binary → Prop
  | .kill => ¬ Between host.phase ∧ ¬ host.Foreign
  | _ => True

instance : (phase : UpdatePhase Binary) → Decidable (Between phase)
  | .restore | .swap _ _ => .isTrue trivial
  | .down | .checking | .retain | .undoRestore | .unmark | .running | .mark _ _ | .clear _ _ | .backUp _ _
  | .undoInstall | .undoMark | .confirm => .isFalse id

instance [DecidableEq Binary] (host : Host Binary) : Decidable host.Foreign :=
  match found : host.dir backupFileName with
  | some (.file binary) =>
      decidable_of_iff (host.marker ≠ none ∧
        ∀ update ∈ host.update, ¬ (update.installed = true ∧ update.old = binary)) (by simp [Foreign, found])
  | some (.symlink _) | none => .isFalse (by simp [Foreign, found])

instance [DecidableEq Binary] (host : Host Binary) :
    (event : UpdateEvent Binary) → Decidable (host.Spared event)
  | .kill => inferInstanceAs (Decidable (_ ∧ _))
  | .start | .wait _ | .next | .install _ _ | .confirm => .isTrue trivial

/-- What an installed update can be rolled back to is there. -/
def Ready (host : Host Binary) : Prop :=
  ∀ update, host.update = some update → update.installed = true →
    host.marker = some (.text (some update.recorded)) ∧
      host.dir backupFileName = some (.file update.old) ∧ update.old ∈ host.complete

/-- The process runs what its path holds. -/
def Loaded (exe : String) (host : Host Binary) : Prop :=
  host.loaded ∈ host.complete ∧ host.dir exe = some (.file host.loaded)

/-- The downloaded binary is complete in a file of its own. -/
def Downloaded (exe : String) (host : Host Binary) (temp : String) (binary : Binary) : Prop :=
  binary ∈ host.complete ∧ host.dir temp = some (.file binary) ∧ temp ≠ exe ∧ temp ≠ backupFileName

def Marked (host : Host Binary) : Prop :=
  ∃ recorded, host.marker = some (.text (some recorded)) ∧
    host.update = some ⟨host.loaded, recorded, false⟩

def Revertible (host : Host Binary) : Prop :=
  ∃ update, host.update = some update ∧ update.installed = true

/-- What holds at each place in the procedures. -/
def PhaseSound (exe : String) (host : Host Binary) : UpdatePhase Binary → Prop
  | .down => host.Runnable exe ∧ ¬ host.Foreign
  | .checking => host.Loaded exe ∧ ¬ host.Foreign
  | .retain => host.Loaded exe ∧ host.Revertible
  | .restore => host.Revertible
  | .unmark => host.Runnable exe ∧ host.update = none
  | .running => host.Loaded exe
  | .mark temp binary => host.Loaded exe ∧ host.Downloaded exe temp binary
  | .clear temp binary | .backUp temp binary =>
      host.Loaded exe ∧ host.Downloaded exe temp binary ∧ host.Marked
  | .swap temp binary =>
      host.loaded ∈ host.complete ∧ host.dir backupFileName = some (.file host.loaded) ∧
        host.Downloaded exe temp binary ∧ host.Marked
  | .confirm => host.Loaded exe ∧ host.update = none
  | .undoRestore | .undoInstall | .undoMark => False

structure Sound (exe : String) (host : Host Binary) : Prop where
  phase : host.PhaseSound exe host.phase
  ready : host.Ready
  restored : ∀ entry ∈ host.restored, ∃ update, entry.2 = some update ∧ update.installed = true ∧
    entry.1 = .file update.old
  passed : ∀ entry ∈ host.passed, ∀ update, entry.1 = some update → update.installed = true →
    entry.2 ≤ update.recorded + updatePendingConfirmWindowSec

section Steps

variable {exe : String} {host : Host Binary}

theorem Loaded.runnable (loaded : host.Loaded exe) : host.Runnable exe :=
  ⟨host.loaded, loaded.1, loaded.2⟩

theorem Sound.runnable (sound : Sound exe host) (apart : ¬ Between host.phase) : host.Runnable exe := by
  have here := sound.phase
  revert here apart
  cases host.phase with
  | down => exact fun _ here => here.1
  | checking => exact fun _ here => here.1.runnable
  | retain => exact fun _ here => here.1.runnable
  | restore => exact fun apart => absurd trivial apart
  | unmark => exact fun _ here => here.1
  | running => exact fun _ here => here.runnable
  | mark temp binary => exact fun _ here => here.1.runnable
  | clear temp binary => exact fun _ here => here.1.runnable
  | backUp temp binary => exact fun _ here => here.1.runnable
  | swap temp binary => exact fun apart => absurd trivial apart
  | confirm => exact fun _ here => here.1.runnable
  | undoRestore | undoInstall | undoMark => exact fun _ => False.elim

theorem Sound.kept (sound : Sound exe host) : host.Kept exe where
  runnable := sound.runnable
  restored := sound.restored
  passed := sound.passed

/-- A new directory that agrees on the executable and, while an update is pending, on the backup. -/
theorem Ready.withDir (ready : host.Ready) {dir : Directory Binary}
    (same : dir backupFileName = host.dir backupFileName) : Ready { host with dir } := by
  intro update pending installed
  obtain ⟨marker, backup, complete⟩ := ready update pending installed
  exact ⟨marker, same.trans backup, complete⟩

theorem ready_of_none (nothing : host.update = none) : host.Ready := by
  intro update pending
  rw [nothing] at pending
  cases pending

theorem exists_of_regular {node : Option (Node Binary)} (regular : node.any Node.regular = true) :
    ∃ binary, node = some (.file binary) := by
  rcases node with _ | ⟨binary⟩ | _
  · cases regular
  · exact ⟨binary, rfl⟩
  · cases regular

theorem not_foreign_of_unmarked (unmarked : host.marker = none) : ¬ host.Foreign :=
  fun foreign => foreign.1 unmarked

theorem not_foreign_of_backup {update : PendingUpdate Binary} (pending : host.update = some update)
    (installed : update.installed = true) (backup : host.dir backupFileName = some (.file update.old)) :
    ¬ host.Foreign := by
  rintro ⟨-, binary, found, other⟩
  cases backup.symm.trans found
  exact other update pending ⟨installed, rfl⟩

theorem Marked.ready (marked : host.Marked) : host.Ready := by
  obtain ⟨recorded, -, same⟩ := marked
  intro update pending installed
  cases same.symm.trans pending
  cases installed

theorem Sound.goOn (sound : Sound exe host) (loaded : host.Loaded exe)
    (fresh : ∀ update, host.update = some update → update.installed = true →
      host.clock ≤ update.recorded + updatePendingConfirmWindowSec) : Sound exe host.goOn := by
  refine ⟨loaded, sound.ready, sound.restored, fun entry there => ?_⟩
  rcases List.mem_append.mp there with before | now
  · exact sound.passed entry before
  · rw [List.mem_singleton.mp now]
    exact fresh

/-- The check of a start restores what an overdue update replaced, and lets no other update pass. -/
theorem sound_check (name : AgentName exe) (sound : Sound exe host) (loaded : host.Loaded exe)
    (own : ¬ host.Foreign) : Sound exe (host.check exe) := by
  unfold check
  split
  next unmarked =>
    refine sound.goOn loaded fun update pending installed => ?_
    cases unmarked.symm.trans (sound.ready update pending installed).1
  next marker found =>
    split
    next fresh =>
      refine sound.goOn loaded fun update pending installed => ?_
      cases found.symm.trans (sound.ready update pending installed).1
      exact Nat.sub_le_iff_le_add'.mp fresh.2
    split
    next stale usable =>
      obtain ⟨binary, backup⟩ := exists_of_regular usable.1
      obtain ⟨update, pending, installed, rfl⟩ :
          ∃ update, host.update = some update ∧ update.installed = true ∧ update.old = binary := by
        by_contra none
        refine own ⟨by simp [found], binary, backup, fun update pending both => none ?_⟩
        exact ⟨update, pending, both⟩
      cases found.symm.trans (sound.ready update pending installed).1
      rw [if_neg (by simp : Marker.text (some update.recorded) ≠ .oversized)]
      have apart : backupFileName ≠ failedFileName := by decide
      have there : host.dir.remove failedFileName exe = host.dir exe :=
        Directory.remove_of_ne name.ne_failed
      exact ⟨⟨⟨loaded.1, there.trans loaded.2⟩, update, pending, installed⟩,
        sound.ready.withDir (Directory.remove_of_ne apart), sound.restored, sound.passed⟩
    next stale unusable =>
      have never : ∀ update, host.update = some update → update.installed ≠ true := by
        intro update pending installed
        refine unusable ⟨?_, ?_⟩
        · rw [(sound.ready update pending installed).2.1]
          rfl
        · rw [loaded.2]
          rfl
      have passes := sound.goOn loaded fun update pending installed => absurd installed (never update pending)
      exact ⟨loaded, fun update pending installed => absurd installed (never update pending),
        passes.restored, passes.passed⟩

theorem sound_retain (name : AgentName exe) (sound : Sound exe host) (loaded : host.Loaded exe)
    (revertible : host.Revertible) : Sound exe (host.retain exe) := by
  have apart : backupFileName ≠ failedFileName := by decide
  rw [retain, Directory.rename_eq loaded.2]
  refine ⟨revertible, sound.ready.withDir ?_, sound.restored, sound.passed⟩
  rw [Function.update_of_ne apart, Directory.remove_of_ne name.ne_backup.symm]

theorem sound_restore (sound : Sound exe host) (revertible : host.Revertible) :
    Sound exe (host.restore exe) := by
  obtain ⟨update, pending, installed⟩ := revertible
  obtain ⟨-, backup, complete⟩ := sound.ready update pending installed
  rw [restore, Directory.rename_eq backup, backup]
  refine ⟨⟨⟨update.old, complete, Function.update_self _ _ _⟩, rfl⟩, ready_of_none rfl, fun entry there => ?_,
    sound.passed⟩
  rcases List.mem_append.mp there with before | now
  · exact sound.restored entry before
  · rw [List.mem_singleton.mp now]
    exact ⟨update, pending, installed, rfl⟩

theorem sound_beginInstall (name : AgentName exe) (sound : Sound exe host) (place : host.phase = .running)
    (pid : Nat) (binary : Binary) : Sound exe (host.beginInstall exe pid binary) := by
  have loaded : host.Loaded exe := by
    have here := sound.phase
    rwa [place] at here
  have apart := tempName_ne_backup name.backup pid
  simp only [beginInstall]
  split
  · exact sound
  next other =>
    refine ⟨⟨⟨List.mem_append_left _ loaded.1, ?_⟩, List.mem_append_right _ (List.mem_singleton_self _),
      Function.update_self _ _ _, other, apart⟩, fun update pending installed => ?_, sound.restored, sound.passed⟩
    · exact (Function.update_of_ne (Ne.symm other) _ _).trans loaded.2
    · obtain ⟨marker, backup, complete⟩ := sound.ready update pending installed
      exact ⟨marker, (Function.update_of_ne apart.symm _ _).trans backup, List.mem_append_left _ complete⟩

theorem sound_clearBackup {temp : String} {binary : Binary} (name : AgentName exe) (sound : Sound exe host)
    (loaded : host.Loaded exe) (downloaded : host.Downloaded exe temp binary) (marked : host.Marked) :
    Sound exe (host.clearBackup exe temp binary) := by
  have stays : ∀ other, other ≠ backupFileName →
      (if (host.dir backupFileName).any Node.present then host.dir.remove backupFileName else host.dir) other =
        host.dir other := by
    intro other apart
    split
    · exact Directory.remove_of_ne apart
    · rfl
  simp only [clearBackup, name.backup]
  exact ⟨⟨⟨loaded.1, (stays exe name.ne_backup).trans loaded.2⟩,
    ⟨downloaded.1, (stays temp downloaded.2.2.2).trans downloaded.2.1, downloaded.2.2⟩, marked⟩,
    Marked.ready marked, sound.restored, sound.passed⟩

theorem sound_backUp {temp : String} {binary : Binary} (name : AgentName exe) (sound : Sound exe host)
    (loaded : host.Loaded exe) (downloaded : host.Downloaded exe temp binary) (marked : host.Marked) :
    Sound exe (host.backUp exe temp binary) := by
  obtain ⟨complete, found, ne_exe, ne_backup⟩ := downloaded
  have backup : Function.update (host.dir.remove exe) backupFileName (some (.file host.loaded)) backupFileName =
      some (.file host.loaded) := Function.update_self _ _ _
  have there : Function.update (host.dir.remove exe) backupFileName (some (.file host.loaded)) temp =
      some (.file binary) := by
    rw [Function.update_of_ne ne_backup, Directory.remove_of_ne ne_exe, found]
  simp only [backUp, name.backup, Directory.rename_eq loaded.2]
  exact ⟨⟨loaded.1, backup, ⟨complete, there, ne_exe, ne_backup⟩, marked⟩, Marked.ready marked,
    sound.restored, sound.passed⟩

theorem sound_swap {temp : String} {binary : Binary} (name : AgentName exe) (sound : Sound exe host)
    (loaded : host.loaded ∈ host.complete) (backup : host.dir backupFileName = some (.file host.loaded))
    (downloaded : host.Downloaded exe temp binary) (marked : host.Marked) : Sound exe (host.swap exe temp) := by
  obtain ⟨complete, found, ne_exe, ne_backup⟩ := downloaded
  obtain ⟨recorded, marker, pending⟩ := marked
  have stays : Function.update (host.dir.remove temp) exe (some (.file binary)) backupFileName =
      some (.file host.loaded) := by
    rw [Function.update_of_ne name.ne_backup.symm, Directory.remove_of_ne ne_backup.symm, backup]
  rw [swap, Directory.rename_eq found, pending]
  refine ⟨⟨⟨binary, complete, Function.update_self _ _ _⟩, ?_⟩, ?_, sound.restored, sound.passed⟩
  · exact not_foreign_of_backup rfl rfl stays
  · intro update installed _
    cases installed
    exact ⟨marker, stays, loaded⟩

theorem sound_removeBackup (name : AgentName exe) (sound : Sound exe host) (loaded : host.Loaded exe)
    (nothing : host.update = none) :
    Sound exe
      { host with
        dir :=
          if (host.dir backupFileName).any Node.regular then host.dir.remove backupFileName
          else host.dir
        phase := .running } := by
  refine ⟨⟨loaded.1, ?_⟩, ready_of_none nothing, sound.restored, sound.passed⟩
  dsimp only
  split
  · exact (Directory.remove_of_ne name.ne_backup).trans loaded.2
  · exact loaded.2

theorem sound_next (name : AgentName exe) (sound : Sound exe host) : Sound exe (host.next exe) := by
  have here := sound.phase
  unfold next
  cases place : host.phase with
  | down | running => exact sound
  | checking =>
      rw [place] at here
      exact sound_check name sound here.1 here.2
  | retain =>
      rw [place] at here
      exact sound_retain name sound here.1 here.2
  | restore =>
      rw [place] at here
      exact sound_restore sound here
  | unmark =>
      rw [place] at here
      exact ⟨⟨here.1, not_foreign_of_unmarked rfl⟩, ready_of_none here.2, sound.restored, sound.passed⟩
  | mark temp binary =>
      rw [place] at here
      have marked : (host.markUpdatePending temp binary).Marked := ⟨host.clock, rfl, rfl⟩
      exact ⟨⟨here.1, here.2, marked⟩, marked.ready, sound.restored, sound.passed⟩
  | clear temp binary =>
      rw [place] at here
      exact sound_clearBackup name sound here.1 here.2.1 here.2.2
  | backUp temp binary =>
      rw [place] at here
      exact sound_backUp name sound here.1 here.2.1 here.2.2
  | swap temp binary =>
      rw [place] at here
      exact sound_swap name sound here.1 here.2.1 here.2.2.1 here.2.2.2
  | confirm =>
      rw [place] at here
      exact sound_removeBackup name sound here.1 here.2
  | undoRestore | undoInstall | undoMark =>
      rw [place] at here
      exact here.elim

theorem sound_wait (sound : Sound exe host) (seconds : Nat) :
    Sound exe { host with clock := host.clock + seconds } := by
  refine ⟨?_, sound.ready, sound.restored, sound.passed⟩
  have here := sound.phase
  revert here
  cases host.phase
  all_goals exact id

theorem sound_start (sound : Sound exe host) : Sound exe (host.step exe .start) := by
  have here := sound.phase
  simp only [step]
  split
  next binary place found =>
    rw [place] at here
    obtain ⟨other, complete, there⟩ := here.1
    cases found.symm.trans there
    exact ⟨⟨⟨complete, found⟩, here.2⟩, sound.ready, sound.restored, sound.passed⟩
  · exact sound

theorem sound_confirm (sound : Sound exe host) (place : host.phase = .running) :
    Sound exe host.confirmPendingUpdate := by
  have loaded : host.Loaded exe := by
    have here := sound.phase
    rwa [place] at here
  unfold confirmPendingUpdate
  split
  · exact sound
  · exact ⟨⟨loaded, rfl⟩, ready_of_none rfl, sound.restored, sound.passed⟩

theorem sound_step (name : AgentName exe) (sound : Sound exe host) (event : UpdateEvent Binary)
    (spared : host.Spared event) : Sound exe (host.step exe event) := by
  cases event with
  | start => exact sound_start sound
  | kill => exact ⟨⟨sound.runnable spared.1, spared.2⟩, sound.ready, sound.restored, sound.passed⟩
  | wait seconds => exact sound_wait sound seconds
  | next => exact sound_next name sound
  | install pid binary =>
      simp only [step]
      split
      next place => exact sound_beginInstall name sound place pid binary
      · exact sound
  | confirm =>
      simp only [step]
      split
      next place => exact sound_confirm sound place
      · exact sound

theorem sound_initial (leftovers : Directory Binary) (marker : Option Marker) (clock : Nat) (old : Binary) :
    Sound exe (initial exe leftovers marker clock old) :=
  ⟨⟨List.mem_singleton_self _, Function.update_self _ _ _⟩, ready_of_none rfl, nofun, nofun⟩

end Steps

/-- Any sequence of installs, confirmations, starts, waits and kills, on any leftovers. -/
theorem self_update_kept {exe : String} (name : AgentName exe) (leftovers : Directory Binary)
    (marker : Option Marker) (clock : Nat) (old : Binary) (events : List (UpdateEvent Binary))
    (along : Runs.Along (step exe) Spared (initial exe leftovers marker clock old) events) :
    (Runs.run (step exe) (initial exe leftovers marker clock old) events).Kept exe := by
  have keep (host : Host Binary) (event : UpdateEvent Binary) (sound : Sound exe host)
      (spared : host.Spared event) : Sound exe (host.step exe event) :=
    sound_step name sound event spared
  exact (Runs.run_invariant keep (sound_initial leftovers marker clock old) along).kept

/-- An update that is killed before it has reported, and started again after the window. -/
def overdue : List (UpdateEvent String) :=
  [.install 4242 "v1.1.93", .next, .next, .next, .next, .start, .next, .kill,
    .wait 1801, .start, .next, .next, .next, .next, .start, .next]

theorem self_update_kept_overdue :
    (Runs.run (step "nie-sla-agent") (initial "nie-sla-agent" (fun _ => none) none 1000 "v1.1.92")
      overdue).Kept "nie-sla-agent" :=
  self_update_kept ⟨by decide +kernel, by decide +kernel, by decide +kernel⟩ (fun _ => none) none 1000
    "v1.1.92" overdue (by decide +kernel)

/-- The kill between the two renames of an install leaves nothing to run. -/
theorem killed_between_renames :
    ¬ (Runs.run (step "nie-sla-agent") (initial "nie-sla-agent" (fun _ => none) none 1000 "v1.1.92")
      [.install 4242 "v1.1.93", .next, .next, .next, .kill]).Kept "nie-sla-agent" := by
  intro kept
  have gone : (Runs.run (step "nie-sla-agent") (initial "nie-sla-agent" (fun _ => none) none 1000 "v1.1.92")
      [.install 4242 "v1.1.93", .next, .next, .next, .kill]).dir "nie-sla-agent" = none := by
    decide +kernel
  obtain ⟨binary, -, found⟩ := kept.runnable id
  rw [gone] at found
  cases found

end Host
end NieSla.Agent
