import NieSla.Telemetry.Drain

/-! The availability of consecutive reports, one by one and as a batch. -/
namespace NieSla.Telemetry

open Availability Interval

/-- The seconds of one day between a report and the one before it. -/
def segmentsOf (env : Env) (day : Int) (report : QueuedReport) : DaySeconds :=
  match report.prevReportAt with
  | none => 0
  | some previousAt => segmentsAt (agentAvailabilitySegments previousAt report.ts env) day

/-- The seconds of one day over all reports. -/
def sumOf (env : Env) (day : Int) (reports : List QueuedReport) : DaySeconds :=
  (reports.map (segmentsOf env day)).sum

/-- Each report follows the one before it, in time and by its `prev_report_at`. -/
def Linked : Option Int → List QueuedReport → Prop
  | _, [] => True
  | previous, report :: rest =>
      report.prevReportAt = previous ∧ (∀ at_ ∈ previous, 0 < at_ ∧ at_ ≤ report.ts) ∧
        Linked (some report.ts) rest

def lastAt (previous : Option Int) (reports : List QueuedReport) : Option Int :=
  (reports.getLast?.map QueuedReport.ts).or previous

instance decidableLinked : ∀ (previous : Option Int) (reports : List QueuedReport),
    Decidable (Linked previous reports)
  | _, [] => .isTrue trivial
  | _, report :: rest =>
      have := decidableLinked (some report.ts) rest
      inferInstanceAs (Decidable (_ ∧ _ ∧ _))

section Sums

variable {env : Env} {day : Int}

@[simp] theorem sumOf_nil : sumOf env day [] = 0 := rfl

@[simp] theorem sumOf_cons (report : QueuedReport) (rest : List QueuedReport) :
    sumOf env day (report :: rest) = segmentsOf env day report + sumOf env day rest := rfl

theorem sumOf_append (first second : List QueuedReport) :
    sumOf env day (first ++ second) = sumOf env day first + sumOf env day second := by
  simp [sumOf]

theorem lastAt_cons (previous : Option Int) (report : QueuedReport) (rest : List QueuedReport) :
    lastAt previous (report :: rest) = lastAt (some report.ts) rest := by
  cases rest <;> simp [lastAt, List.getLast?_cons]

theorem linked_append {previous : Option Int} {first second : List QueuedReport} :
    Linked previous (first ++ second) ↔
      Linked previous first ∧ Linked (lastAt previous first) second := by
  induction first generalizing previous with
  | nil => simp [Linked, lastAt]
  | cons report rest ih => simp only [List.cons_append, Linked, ih, lastAt_cons, and_assoc]

theorem Linked.le_ts {start : Int} {reports : List QueuedReport}
    (linked : Linked (some start) reports) : ∀ report ∈ reports, start ≤ report.ts := by
  induction reports generalizing start with
  | nil => simp
  | cons report rest ih =>
      obtain ⟨_, after, later⟩ := linked
      have first := (after start rfl).2
      intro other member
      rcases List.mem_cons.mp member with rfl | inside
      · exact first
      · exact first.trans (ih later other inside)

theorem Linked.previous {previous : Option Int} {reports : List QueuedReport}
    (linked : Linked previous reports) :
    ∀ report ∈ reports, ∀ at_ ∈ report.prevReportAt, 0 < at_ ∧ at_ ≤ report.ts := by
  induction reports generalizing previous with
  | nil => simp
  | cons report rest ih =>
      obtain ⟨same, after, later⟩ := linked
      exact List.forall_mem_cons.mpr ⟨same ▸ after, ih later⟩

theorem Linked.pairwise {previous : Option Int} {reports : List QueuedReport}
    (linked : Linked previous reports) :
    reports.Pairwise fun first second => first.ts ≤ second.ts := by
  induction reports generalizing previous with
  | nil => exact List.Pairwise.nil
  | cons report rest ih =>
      exact List.Pairwise.cons (Linked.le_ts linked.2.2) (ih linked.2.2)

theorem Linked.ts_le {previous : Option Int} {reports : List QueuedReport}
    (linked : Linked previous reports) {last : Int} (ends : lastAt previous reports = some last) :
    ∀ report ∈ reports, report.ts ≤ last := by
  induction reports generalizing previous with
  | nil => simp
  | cons report rest ih =>
      rw [lastAt_cons] at ends
      have later := linked.2.2
      intro other member
      rcases List.mem_cons.mp member with rfl | inside
      · cases rest with
        | nil =>
            cases ends
            exact le_refl _
        | cons next rest =>
            exact (later.le_ts next List.mem_cons_self).trans
              (ih later ends next List.mem_cons_self)
      · exact ih later ends other inside

theorem segmentsOf_still {report : QueuedReport} (still : report.prevReportAt = some report.ts) :
    segmentsOf env day report = 0 := by
  simp [segmentsOf, still, agentAvailabilitySegments, segmentsAt]

/-- Reports of one moment count nothing. -/
theorem sumOf_still {start : Int} {reports : List QueuedReport}
    (linked : Linked (some start) reports) (still : ∀ report ∈ reports, report.ts ≤ start) :
    sumOf env day reports = 0 := by
  induction reports generalizing start with
  | nil => rfl
  | cons report rest ih =>
      obtain ⟨previous, after, later⟩ := linked
      obtain ⟨now, others⟩ := List.forall_mem_cons.mp still
      obtain rfl : start = report.ts := le_antisymm (after start rfl).2 now
      rw [sumOf_cons, segmentsOf_still previous, ih later others, add_zero]

/-- An interval within the offline threshold counts as online. -/
theorem segmentsAt_short {previousAt endAt : Int} (known : 0 < previousAt)
    (before : previousAt ≤ endAt) (short : endAt - previousAt ≤ offlineAfterSec env) :
    segmentsAt (agentAvailabilitySegments previousAt endAt env) day =
      counted (dayOverlap env day previousAt endAt) true := by
  have offline : offlineAfterSec env ≤ 3600 := clamp_le (by norm_num) _
  have retained : 30 ≤ retentionDays env := clamp_ge (by norm_num) _
  have start : startAt previousAt endAt env = previousAt := by
    unfold startAt
    omega
  have stop : onlineUntil previousAt endAt env = endAt := by
    unfold onlineUntil
    omega
  have empty : dayOverlap env day endAt endAt = 0 := overlap_of_le le_rfl
  rw [segmentsAt_agentAvailabilitySegments env (by omega) (by omega) before, start, stop, empty]
  simp

/-- Consecutive intervals within the offline threshold add up to the whole one. -/
theorem sumOf_short {start last : Int} {reports : List QueuedReport}
    (linked : Linked (some start) reports) (ends : lastAt (some start) reports = some last)
    (short : last - start ≤ offlineAfterSec env) :
    sumOf env day reports = counted (dayOverlap env day start last) true := by
  induction reports generalizing start with
  | nil =>
      cases ends
      simp [dayOverlap, overlap_of_le]
  | cons report rest ih =>
      have reached := linked.ts_le ends report List.mem_cons_self
      obtain ⟨previous, after, later⟩ := linked
      obtain ⟨known, forward⟩ := after start rfl
      rw [lastAt_cons] at ends
      rw [sumOf_cons, ih later ends (by omega), segmentsOf, previous]
      dsimp only
      rw [segmentsAt_short known forward (by omega), ← counted_add]
      exact congrArg (counted · true) (overlap_add forward reached)

/-- Where only one report brings new time, its interval is the whole one. -/
theorem sumOf_advancing {start last : Int} {reports : List QueuedReport}
    (linked : Linked (some start) reports) (ends : lastAt (some start) reports = some last)
    (once : (reports.filter fun report => report.prevReportAt ≠ some report.ts).length ≤ 1) :
    sumOf env day reports = segmentsAt (agentAvailabilitySegments start last env) day := by
  induction reports generalizing start with
  | nil =>
      cases ends
      simp [agentAvailabilitySegments, segmentsAt]
  | cons report rest ih =>
      have whole := ends
      rw [lastAt_cons] at ends
      obtain ⟨previous, after, later⟩ := linked
      by_cases still : report.prevReportAt = some report.ts
      · obtain rfl : start = report.ts := Option.some.inj (previous.symm.trans still)
        rw [sumOf_cons, segmentsOf_still still, zero_add]
        refine ih later ends ?_
        rwa [List.filter_cons_of_neg (by simpa using still)] at once
      · have others : rest.filter (fun report => report.prevReportAt ≠ some report.ts) = [] := by
          rw [List.filter_cons_of_pos (by simpa using still), List.length_cons] at once
          exact List.eq_nil_of_length_eq_zero (by omega)
        have noneAdvance : ∀ other ∈ rest, other.prevReportAt = some other.ts := by
          intro other member
          by_contra moves
          have inside : other ∈ rest.filter fun report => report.prevReportAt ≠ some report.ts :=
            List.mem_filter.mpr ⟨member, by simpa using moves⟩
          rw [others] at inside
          cases inside
        have stays : ∀ {from_ : Int} {tail : List QueuedReport}, Linked (some from_) tail →
            (∀ other ∈ tail, other.prevReportAt = some other.ts) →
              ∀ other ∈ tail, other.ts ≤ from_ := by
          intro from_ tail
          induction tail generalizing from_ with
          | nil => simp
          | cons head tail ih =>
              rintro ⟨before, _, later⟩ none_
              obtain ⟨first, others⟩ := List.forall_mem_cons.mp none_
              obtain rfl : from_ = head.ts := Option.some.inj (before.symm.trans first)
              exact List.forall_mem_cons.mpr ⟨le_refl _, ih later others⟩
        have idle := stays later noneAdvance
        have same : last = report.ts := by
          cases rest with
          | nil =>
              cases ends
              rfl
          | cons next rest =>
              obtain ⟨final, member, rfl⟩ : ∃ final ∈ next :: rest, final.ts = last := by
                rw [lastAt, List.getLast?_eq_some_getLast (List.cons_ne_nil next rest)] at ends
                exact ⟨_, List.getLast_mem _, Option.some.inj ends⟩
              exact le_antisymm (idle final member) (later.le_ts final member)
        rw [sumOf_cons, sumOf_still later idle, add_zero, segmentsOf, previous, same]

end Sums

end NieSla.Telemetry
