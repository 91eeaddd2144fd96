import NieSla.Lib.History
import NieSla.RateLimit.Calls

/-! The sliding window holds as long as the statements of the calls come in the order of the clocks
that they have read. -/
namespace NieSla.RateLimit
open Lib Processes

section Times

variable {key other : String} {rows : List Row} {log : List Outcome}

theorem timesOf_insert (now : ℤ) :
    timesOf (rows ++ [⟨other, now⟩]) key = timesOf rows key ++ if other = key then [now] else [] := by
  by_cases same : other = key <;> simp [timesOf, List.filter_append, same]

theorem timesOf_deleteBefore (scope : Option String) (before : ℤ) :
    timesOf (deleteBefore rows scope before) key =
      if Reaches scope key then (timesOf rows key).filter (before ≤ ·) else timesOf rows key := by
  have own : (deleteBefore rows scope before).filter (fun row => row.key = key) =
      (rows.filter fun row => row.key = key).filter
        fun row => ¬ (Reaches scope key ∧ row.ts < before) := by
    rw [deleteBefore, List.filter_filter, List.filter_filter]
    refine List.filter_congr fun row _ => ?_
    by_cases same : row.key = key
    · simp [same]
    · simp [same]
  rw [timesOf, own]
  by_cases reached : Reaches scope key
  · simp only [reached, true_and, not_lt, if_true, timesOf, List.filter_map]
    rfl
  · simp [reached, timesOf]

theorem acceptedAt_concat (entry : Outcome) :
    acceptedAt key (log ++ [entry]) = acceptedAt key log ++ acceptedAt key [entry] :=
  List.filterMap_append

theorem cutoffs_concat (entry : Outcome) :
    cutoffs key (log ++ [entry]) = cutoffs key log ++ cutoffs key [entry] :=
  List.filterMap_append

/-- Fewer are counted where one that was counted is not. -/
theorem countP_lt_countP {p q : ℤ → Bool} {times : List ℤ} {ts : ℤ} (member : ts ∈ times)
    (fewer : ∀ ts, p ts = true → q ts = true) (out : p ts = false) (counted : q ts = true) :
    times.countP p < times.countP q := by
  obtain ⟨front, back, rfl⟩ := List.append_of_mem member
  have first := List.countP_mono_left (l := front) fun ts _ => fewer ts
  have last := List.countP_mono_left (l := back) fun ts _ => fewer ts
  rw [List.countP_append, List.countP_append, List.countP_cons_of_neg (by simp [out]),
    List.countP_cons_of_pos counted]
  omega

end Times

/-- A rejection, after what was done before it. -/
structure Refused (key : String) (limit windowSec : ℕ) (before : List Outcome) (now : ℤ) : Prop where
  full : limit ≤ within windowSec now (acceptedAt key before)
  retry : 0 < limit → ∀ asked result, .status key asked result ∈ before → result.limited = true →
    asked + result.retryAfter ≤ now → ∃ ts ∈ acceptedAt key before, asked < ts ∧ ts ≤ now

/-- What a report of a full window leaves behind: until a later call is accepted, the window is free
when the time that was told has passed. -/
structure Report (key : String) (limit windowSec : ℕ) (log : List Outcome) (asked : ℤ)
    (result : Status) : Prop where
  deleted : asked - windowSec ∈ cutoffs key log
  full : limit ≤ (acceptedAt key log).countP (asked - windowSec ≤ ·)
  free : 0 < limit → (∀ ts ∈ acceptedAt key log, ts ≤ asked) → ∀ now, asked + result.retryAfter ≤ now →
    (acceptedAt key log).countP (now - windowSec ≤ ·) < limit

/-- The invariant of the store, for one key. -/
structure Sound (key : String) (limit windowSec : ℕ) (store : Store) : Prop where
  kept : timesOf store.rows key = (acceptedAt key store.log).filter
    fun ts => ∀ before ∈ cutoffs key store.log, before ≤ ts
  bounded : ∀ until_, within windowSec until_ (acceptedAt key store.log) ≤ limit
  reports : ∀ asked result, .status key asked result ∈ store.log → result.limited = true →
    Report key limit windowSec store.log asked result
  refused : EachAfter (fun before entry => ∀ now, entry = .rejected key now →
    Refused key limit windowSec before now) store.log

section Steps

variable {key : String} {limit windowSec : ℕ} {store : Store}

theorem Sound.sublist (sound : Sound key limit windowSec store) :
    (timesOf store.rows key).Sublist (acceptedAt key store.log) :=
  sound.kept ▸ List.filter_sublist

/-- Where nothing has been deleted, the rows are the accepted calls. -/
theorem Sound.countP_eq (sound : Sound key limit windowSec store) {start : ℤ}
    (before : ∀ before ∈ cutoffs key store.log, before ≤ start) :
    (timesOf store.rows key).countP (start ≤ ·) = (acceptedAt key store.log).countP (start ≤ ·) := by
  rw [sound.kept, List.countP_filter]
  refine List.countP_congr fun ts _ => ?_
  simp only [Bool.and_eq_true, decide_eq_true_eq, and_iff_left_iff_imp]
  exact fun from_ cutoff member => (before cutoff member).trans from_

/-- An outcome that says nothing of the key. -/
theorem Sound.other (sound : Sound key limit windowSec store) {rows : List Row} {entry : Outcome}
    (clock : ℤ) (times : timesOf rows key = timesOf store.rows key) (accepted : acceptedAt key [entry] = [])
    (deleted : cutoffs key [entry] = []) (asked : ∀ asked result, entry ≠ .status key asked result)
    (rejected : ∀ now, entry ≠ .rejected key now) :
    Sound key limit windowSec ⟨clock, rows, store.log ++ [entry]⟩ := by
  have sameAccepted : acceptedAt key (store.log ++ [entry]) = acceptedAt key store.log := by
    rw [acceptedAt_concat, accepted, List.append_nil]
  have sameCutoffs : cutoffs key (store.log ++ [entry]) = cutoffs key store.log := by
    rw [cutoffs_concat, deleted, List.append_nil]
  constructor
  · simp only [times, sameAccepted, sameCutoffs]
    exact sound.kept
  · simpa only [sameAccepted] using sound.bounded
  · intro time result member limited
    rcases List.mem_append.mp member with old | new
    · obtain ⟨cut, full, free⟩ := sound.reports time result old limited
      exact ⟨sameCutoffs ▸ cut, sameAccepted ▸ full, sameAccepted ▸ free⟩
    · exact absurd (List.mem_singleton.mp new).symm (asked time result)
  · exact sound.refused.concat fun now same => absurd same (rejected now)

theorem Sound.accept (sound : Sound key limit windowSec store) (clock : ℤ) {now : ℤ}
    (before : ∀ before ∈ cutoffs key store.log, before ≤ now - windowSec)
    (room : (timesOf store.rows key).countP (now - windowSec ≤ ·) < limit) :
    Sound key limit windowSec
      ⟨clock, store.rows ++ [⟨key, now⟩], store.log ++ [.accepted key now]⟩ := by
  have accepted : acceptedAt key (store.log ++ [.accepted key now]) =
      acceptedAt key store.log ++ [now] := by
    rw [acceptedAt_concat]
    simp [acceptedAt]
  have cutoffs_ : cutoffs key (store.log ++ [.accepted key now]) = cutoffs key store.log := by
    rw [cutoffs_concat]
    simp [cutoffs]
  rw [sound.countP_eq before] at room
  constructor
  · have last : ∀ before ∈ cutoffs key store.log, before ≤ now := fun cutoff member => by
      have early := before cutoff member
      omega
    have stays : [now].filter (fun ts => ∀ before ∈ cutoffs key store.log, before ≤ ts) = [now] :=
      List.filter_eq_self.mpr (List.forall_mem_singleton.mpr (decide_eq_true last))
    simp only [timesOf_insert, if_true, accepted, cutoffs_, List.filter_append, sound.kept, stays]
  · intro until_
    simp only [accepted, within, List.countP_append, List.countP_singleton]
    by_cases inside : until_ - windowSec ≤ now ∧ now ≤ until_
    · -- The window holds the call, and each earlier one in it still counted when it came.
      have fewer : (acceptedAt key store.log).countP
          (fun ts => until_ - windowSec ≤ ts ∧ ts ≤ until_) ≤
            (acceptedAt key store.log).countP (now - windowSec ≤ ·) := by
        refine List.countP_mono_left fun ts _ counted => ?_
        simp only [decide_eq_true_eq] at counted ⊢
        omega
      simp only [inside, and_self, decide_true, if_true]
      omega
    · simp only [inside, decide_false, Bool.false_eq_true, if_false, Nat.add_zero]
      exact sound.bounded until_
  · intro asked result member limited
    have old : Outcome.status key asked result ∈ store.log := by
      simpa using member
    obtain ⟨deleted, full, free⟩ := sound.reports asked result old limited
    refine ⟨cutoffs_ ▸ deleted, ?_, fun positive none_ => ?_⟩
    · rw [accepted, List.countP_append]
      omega
    · -- A call at the time of the report would have found the window full.
      rw [accepted] at none_
      have early : now ≤ asked := none_ now (List.mem_append_right _ (List.mem_singleton_self now))
      have cut := before _ deleted
      have same : now = asked := by omega
      subst same
      omega
  · exact sound.refused.concat nofun

theorem Sound.reject (sound : Sound key limit windowSec store) (clock : ℤ) {now : ℤ}
    (latest : ∀ ts ∈ acceptedAt key store.log, ts ≤ now)
    (full : limit ≤ (timesOf store.rows key).countP (now - windowSec ≤ ·)) :
    Sound key limit windowSec ⟨clock, store.rows, store.log ++ [.rejected key now]⟩ := by
  have accepted : acceptedAt key (store.log ++ [.rejected key now]) = acceptedAt key store.log := by
    rw [acceptedAt_concat]
    simp [acceptedAt]
  have cutoffs_ : cutoffs key (store.log ++ [.rejected key now]) = cutoffs key store.log := by
    rw [cutoffs_concat]
    simp [cutoffs]
  have counted : limit ≤ (acceptedAt key store.log).countP (now - windowSec ≤ ·) :=
    full.trans sound.sublist.countP_le
  constructor
  · simp only [accepted, cutoffs_]
    exact sound.kept
  · simpa only [accepted] using sound.bounded
  · intro asked result member limited
    have old : Outcome.status key asked result ∈ store.log := by
      simpa using member
    obtain ⟨deleted, full, free⟩ := sound.reports asked result old limited
    exact ⟨cutoffs_ ▸ deleted, accepted ▸ full, accepted ▸ free⟩
  · refine sound.refused.concat fun time same => ?_
    cases same
    constructor
    · refine counted.trans (List.countP_mono_left fun ts member from_ => ?_)
      simp only [decide_eq_true_eq] at from_ ⊢
      exact ⟨from_, latest ts member⟩
    · intro positive asked result member limited after
      by_contra none_
      push Not at none_
      have early : ∀ ts ∈ acceptedAt key store.log, ts ≤ asked := by
        intro ts given
        by_contra later
        exact absurd (latest ts given) (not_le.mpr (none_ ts given (not_le.mp later)))
      have free := (sound.reports asked result member limited).free positive early now after
      omega

/-- A deletion that reaches the key. -/
theorem Sound.delete (sound : Sound key limit windowSec store) (clock : ℤ) {scope : Option String}
    (reached : Reaches scope key) (before : ℤ) :
    Sound key limit windowSec
      ⟨clock, deleteBefore store.rows scope before, store.log ++ [.deleted scope before]⟩ := by
  have accepted : acceptedAt key (store.log ++ [.deleted scope before]) = acceptedAt key store.log := by
    rw [acceptedAt_concat]
    simp [acceptedAt]
  have cutoffs_ : cutoffs key (store.log ++ [.deleted scope before]) =
      cutoffs key store.log ++ [before] := by
    rw [cutoffs_concat]
    simp [cutoffs, reached]
  constructor
  · simp only [timesOf_deleteBefore, if_pos reached, accepted, cutoffs_, sound.kept,
      List.filter_filter]
    refine List.filter_congr fun ts _ => ?_
    simp [and_comm, or_imp, forall_and]
  · simpa only [accepted] using sound.bounded
  · intro asked result member limited
    have old : Outcome.status key asked result ∈ store.log := by
      simpa using member
    obtain ⟨deleted, full, free⟩ := sound.reports asked result old limited
    exact ⟨cutoffs_ ▸ List.mem_append_left _ deleted, accepted ▸ full, accepted ▸ free⟩
  · exact sound.refused.concat nofun

/-- The oldest row that is counted is the first to leave the window. -/
theorem Sound.report_free (sound : Sound key limit windowSec store) {asked : ℤ}
    (full : (readStatus store.rows key limit windowSec asked).limited = true) (positive : 0 < limit)
    (early : ∀ ts ∈ acceptedAt key store.log, ts ≤ asked) {now : ℤ}
    (after : asked + (readStatus store.rows key limit windowSec asked).retryAfter ≤ now) :
    (acceptedAt key store.log).countP (now - windowSec ≤ ·) < limit := by
  simp only [readStatus] at full after
  set counted := (timesOf store.rows key).filter (asked - windowSec ≤ ·)
  have many : limit ≤ counted.length := of_decide_eq_true full
  rw [if_pos many] at after
  cases least : counted.min? with
  | none =>
      rw [List.min?_eq_none_iff.mp least, List.length_nil] at many
      omega
  | some oldest =>
      have member : oldest ∈ counted := List.min?_mem least
      obtain ⟨row, from_⟩ := List.mem_filter.mp member
      have given : oldest ∈ acceptedAt key store.log := sound.sublist.subset row
      have inside : asked - windowSec ≤ oldest := of_decide_eq_true from_
      have past : oldest < now - windowSec := by
        rw [least] at after
        have last := early oldest given
        by_cases zero : oldest = 0
        · subst zero
          simp only at after
          omega
        · simp only at after
          omega
      have gone : (acceptedAt key store.log).countP (now - windowSec ≤ ·) <
          (acceptedAt key store.log).countP fun ts => asked - windowSec ≤ ts ∧ ts ≤ asked := by
        have last := early oldest given
        have counted_ : decide (asked - (windowSec : ℤ) ≤ oldest) = true := decide_eq_true inside
        refine (countP_lt_countP (q := (asked - windowSec ≤ ·)) given (fun ts later => ?_) ?_
          counted_).trans_le (List.countP_mono_left fun ts inLog from_ => ?_)
        · simp only [decide_eq_true_eq] at later ⊢
          omega
        · exact decide_eq_false (not_le.mpr past)
        · exact decide_eq_true ⟨of_decide_eq_true from_, early ts inLog⟩
      exact gone.trans_le (sound.bounded asked)

theorem Sound.report (sound : Sound key limit windowSec store) (clock : ℤ) {asked : ℤ}
    (deleted : asked - windowSec ∈ cutoffs key store.log) :
    Sound key limit windowSec ⟨clock, store.rows,
      store.log ++ [.status key asked (readStatus store.rows key limit windowSec asked)]⟩ := by
  set entry := Outcome.status key asked (readStatus store.rows key limit windowSec asked) with entryEq
  have accepted : acceptedAt key (store.log ++ [entry]) = acceptedAt key store.log := by
    rw [acceptedAt_concat]
    simp [acceptedAt, entryEq]
  have cutoffs_ : cutoffs key (store.log ++ [entry]) = cutoffs key store.log := by
    rw [cutoffs_concat]
    simp [cutoffs, entryEq]
  constructor
  · simp only [accepted, cutoffs_]
    exact sound.kept
  · simpa only [accepted] using sound.bounded
  · intro time result member limited
    simp only [List.mem_append, List.mem_singleton, entryEq, Outcome.status.injEq] at member
    rcases member with old | ⟨-, rfl, rfl⟩
    · obtain ⟨cut, full, free⟩ := sound.reports time result old limited
      exact ⟨cutoffs_ ▸ cut, accepted ▸ full, accepted ▸ free⟩
    · refine ⟨cutoffs_ ▸ deleted, ?_, fun positive early now after => ?_⟩
      · have many : limit ≤ (timesOf store.rows key).countP (time - windowSec ≤ ·) := by
          rw [List.countP_eq_length_filter]
          exact of_decide_eq_true limited
        rw [accepted]
        exact many.trans sound.sublist.countP_le
      · rw [accepted] at early ⊢
        exact sound.report_free limited positive early after
  · exact sound.refused.concat nofun

end Steps

/-- A call on the key that has deleted has left its cut-off in the log. -/
def Remembers (key : String) (calls : ℕ → RateCall) (call : ℕ) (store : Store) (phase : Phase) :
    Prop :=
  ∀ now limit windowSec, phase = .deleted now →
    calls call = .rateLimitStatusD1 key limit windowSec → now - windowSec ∈ cutoffs key store.log

section Run

variable {key : String} {limit windowSec : ℕ} {calls : ℕ → RateCall}

/-- The log only grows. -/
theorem rateAct_log (call : ℕ) (store : Store) (phase : Phase) (elapsed : ℕ) :
    store.log <+: (rateAct calls call store phase elapsed).1.log := by
  unfold rateAct
  cases phase with
  | waiting | finished => exact List.prefix_rfl
  | called now =>
      cases calls call <;> exact List.prefix_append _ _
  | deleted now =>
      cases calls call with
      | rateLimitStatusD1 => exact List.prefix_append _ _
      | rateLimitD1 | cleanupRateLimitsD1 => exact List.prefix_rfl

theorem cutoffs_mono {shorter longer : List Outcome} (grown : shorter <+: longer) :
    cutoffs key shorter ⊆ cutoffs key longer :=
  (grown.sublist.filterMap _).subset

/-- Each statement of a call keeps the window. -/
theorem sound_rateAct (uniform : Uniform key limit windowSec calls) (call : ℕ) (store : Store)
    (phase : Phase) (elapsed : ℕ) (sound : Sound key limit windowSec store)
    (own : Remembers key calls call store phase) (timely : Timely key calls call store phase elapsed) :
    Sound key limit windowSec (rateAct calls call store phase elapsed).1 := by
  have stays : Sound key limit windowSec { store with clock := store.clock + elapsed } :=
    ⟨sound.kept, sound.bounded, sound.reports, sound.refused⟩
  unfold rateAct
  cases phase with
  | waiting => exact stays
  | finished => exact stays
  | called now =>
      cases which : calls call with
      | rateLimitD1 other otherLimit otherWindow =>
          by_cases same : other = key
          · obtain ⟨rfl, rfl⟩ := uniform call other _ _ (.inl which) same
            subst same
            simp only [Timely, which, true_implies] at timely
            simp only [insertBelow]
            split
            · exact sound.accept _ timely.2 ‹_›
            · exact sound.reject _ timely.1 (Nat.le_of_not_lt ‹_›)
          · simp only [insertBelow]
            split
            · refine sound.other _ ?_ ?_ ?_ nofun nofun
              · simp [timesOf_insert, same]
              · simp [acceptedAt, same]
              · rfl
            · refine sound.other _ rfl rfl rfl nofun ?_
              rintro time ⟨⟩
              exact same rfl
      | rateLimitStatusD1 other otherLimit otherWindow =>
          by_cases reached : Reaches (some other) key
          · exact sound.delete _ reached _
          · refine sound.other _ ?_ rfl ?_ nofun nofun
            · rw [timesOf_deleteBefore, if_neg reached]
            · simp [cutoffs, reached]
      | cleanupRateLimitsD1 => exact sound.delete _ (.inl rfl) _
  | deleted now =>
      cases which : calls call with
      | rateLimitStatusD1 other otherLimit otherWindow =>
          by_cases same : other = key
          · obtain ⟨rfl, rfl⟩ := uniform call other _ _ (.inr which) same
            subst same
            exact sound.report _ (own _ _ _ rfl which)
          · refine sound.other _ rfl rfl rfl ?_ nofun
            rintro asked result ⟨⟩
            exact same rfl
      | rateLimitD1 | cleanupRateLimitsD1 => exact stays

theorem keeps_sound (uniform : Uniform key limit windowSec calls) :
    Keeps (rateAct calls) (Timely key calls) (Sound key limit windowSec) (Remembers key calls) where
  shared call store phase elapsed := sound_rateAct uniform call store phase elapsed
  self call store phase elapsed _ _ _ now otherLimit otherWindow next which := by
    unfold rateAct at next ⊢
    cases phase with
    | waiting | finished => cases next
    | deleted => simp [which] at next
    | called =>
        rw [which] at next ⊢
        cases next
        simp [cutoffs, Reaches]
  others call store phase elapsed _ _ _ other _ phase' remembers now otherLimit otherWindow at_ which :=
    cutoffs_mono (rateAct_log call store phase elapsed)
      (remembers now otherLimit otherWindow at_ which)

end Run

/-- Whatever calls on whatever keys: those of the key keep to the window when each of its `INSERT`s
comes in time. -/
theorem window_slides {key : String} {limit windowSec : ℕ} {calls : ℕ → RateCall}
    (uniform : Uniform key limit windowSec calls) (clock : ℤ) (events : List (ℕ × ℕ))
    (timely : Runs.Along (step (rateAct calls)) (Allowed (Timely key calls))
      ⟨⟨clock, [], []⟩, fun _ => .waiting⟩ events) :
    Sliding key limit windowSec
      (Runs.run (step (rateAct calls)) ⟨⟨clock, [], []⟩, fun _ => .waiting⟩ events).shared.log := by
  have initial : Invariant (Sound key limit windowSec) (Remembers key calls)
      ⟨⟨clock, [], []⟩, fun _ => .waiting⟩ :=
    ⟨⟨rfl, fun _ => Nat.zero_le _, nofun, eachAfter_nil _⟩, fun _ _ _ _ => nofun⟩
  have sound := (run_invariant (keeps_sound uniform) initial timely).shared
  refine ⟨sound.bounded, fun before now after parts => ?_, fun positive before now after parts => ?_⟩
  · exact (sound.refused before _ after parts now rfl).full
  · exact (sound.refused before _ after parts now rfl).retry positive

/-! One call a minute. -/

def minuteCalls : ℕ → RateCall
  | 2 => .rateLimitStatusD1 "login" 1 60
  | _ => .rateLimitD1 "login" 1 60

theorem minuteCalls_uniform : Uniform "login" 1 60 minuteCalls := by
  intro call other limit windowSec which _
  unfold minuteCalls at which
  split at which <;> simp_all

/-- The second call is rejected, the third asks, and the fourth comes when it was told to. -/
theorem window_slides_minute :
    let log := (Runs.run (step (rateAct minuteCalls)) ⟨⟨100, [], []⟩, fun _ => .waiting⟩
      [(0, 0), (0, 0), (1, 30), (1, 0), (2, 0), (2, 0), (2, 0), (3, 31), (3, 0)]).shared.log
    log = [.accepted "login" 100, .rejected "login" 130, .deleted (some "login") 70,
        .status "login" 130 ⟨true, 1, 31⟩, .accepted "login" 161] ∧ Sliding "login" 1 60 log := by
  refine ⟨by decide, ?_⟩
  exact window_slides minuteCalls_uniform 100 _ (by decide)

/-- The call 1 has read the clock before the call 2, which deletes the row that it is to count. -/
theorem late_insert_accepted :
    Uniform "login" 1 60 minuteCalls ∧ ¬ Sliding "login" 1 60
      (Runs.run (step (rateAct minuteCalls)) ⟨⟨100, [], []⟩, fun _ => .waiting⟩
        [(0, 0), (0, 0), (1, 60), (2, 1), (2, 0), (1, 0)]).shared.log := by
  refine ⟨minuteCalls_uniform, fun sliding => ?_⟩
  have two := sliding.bounded 160
  revert two
  decide

end NieSla.RateLimit
