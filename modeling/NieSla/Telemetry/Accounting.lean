import NieSla.Lib.Runs
import NieSla.Telemetry.Reports

/-! The byte counter of the report queue. It follows a report that is pushed and one that
the cap evicts, but neither a drain nor the deletion of an agent. -/
namespace NieSla.Telemetry

def queuedBytes (reports : List QueuedReport) : Nat := (reports.map estimateReportBytes).sum

/-- `memReportsBytes` is the sum over the queue. -/
def Accounted (buffer : ReportBuffer) : Prop :=
  buffer.memReportsBytes = queuedBytes buffer.memReports

instance (buffer : ReportBuffer) : Decidable (Accounted buffer) :=
  inferInstanceAs (Decidable (_ = _))

/-- The queue is beyond one of its caps. -/
def Exceeds (reports : List QueuedReport) : Prop :=
  maxMemReports < reports.length ∨ maxMemReportsBytes < queuedBytes reports

/-- The event takes no report out of the queue unless the cap does. -/
def KeepsReports (buffer : ReportBuffer) : Event → Prop
  | .accept _ => True
  | .startDrain => buffer.memReports = []
  | .finishDrain _ => True
  | .deleteAgent agentId =>
      ∀ report ∈ buffer.memReports, sanitizeAgentId report.agentId ≠ agentId

@[simp] theorem queuedBytes_nil : queuedBytes [] = 0 := rfl

@[simp] theorem queuedBytes_cons (report : QueuedReport) (rest : List QueuedReport) :
    queuedBytes (report :: rest) = estimateReportBytes report + queuedBytes rest := rfl

theorem queuedBytes_append (first second : List QueuedReport) :
    queuedBytes (first ++ second) = queuedBytes first + queuedBytes second := by
  simp [queuedBytes]

theorem estimateReportBytes_pos (report : QueuedReport) : 0 < estimateReportBytes report := by
  unfold estimateReportBytes
  omega

theorem queuedBytes_eq_zero {reports : List QueuedReport} :
    queuedBytes reports = 0 ↔ reports = [] := by
  cases reports with
  | nil => simp
  | cons report rest =>
      have := estimateReportBytes_pos report
      simp only [queuedBytes_cons, reduceCtorEq, iff_false]
      omega

/-- Dropping reports changes the sum unless none is dropped. -/
theorem queuedBytes_filter_eq (keep : QueuedReport → Bool) (reports : List QueuedReport) :
    queuedBytes (reports.filter keep) = queuedBytes reports ↔
      ∀ report ∈ reports, keep report = true := by
  have le : ∀ reports, queuedBytes (reports.filter keep) ≤ queuedBytes reports := by
    intro reports
    induction reports with
    | nil => exact le_refl _
    | cons report rest ih =>
        rw [List.filter_cons]
        split <;> simp only [queuedBytes_cons] <;> omega
  induction reports with
  | nil => simp
  | cons report rest ih =>
      rw [List.filter_cons]
      by_cases kept : keep report = true
      · simp [kept, ih]
      · have := estimateReportBytes_pos report
        have := le rest
        simp only [kept, ↓reduceIte, Bool.false_eq_true, queuedBytes_cons, List.mem_cons,
          forall_eq_or_imp, false_and, iff_false]
        omega

/-! The cap loop. -/

/-- The loop keeps the counter right. -/
theorem evict_bytes (reports : List QueuedReport) :
    (evict reports (queuedBytes reports)).2 =
      queuedBytes (evict reports (queuedBytes reports)).1 := by
  induction reports with
  | nil => rfl
  | cons report rest ih =>
      unfold evict
      split
      · simp only [queuedBytes_cons, Nat.cast_add, add_sub_cancel_left]
        exact ih
      · rfl

/-- The loop drops reports from the front, each while the queue is beyond a cap. -/
theorem evict_drop (reports : List QueuedReport) :
    ∃ count, (evict reports (queuedBytes reports)).1 = reports.drop count ∧
      ∀ earlier < count, Exceeds (reports.drop earlier) := by
  induction reports with
  | nil => exact ⟨0, rfl, by simp⟩
  | cons report rest ih =>
      unfold evict
      split
      · rename_i full
        obtain ⟨count, dropped, beyond⟩ := ih
        refine ⟨count + 1, ?_, ?_⟩
        · simp only [queuedBytes_cons, Nat.cast_add, add_sub_cancel_left, List.drop_succ_cons]
          exact dropped
        · intro earlier before
          cases earlier with
          | zero => exact full.imp_right And.left
          | succ earlier => exact beyond earlier (by omega)
      · exact ⟨0, rfl, by simp⟩

/-! Runs. -/

section Runs

variable {env : Env} {buffer : ReportBuffer}

/-- A step keeps the counter right exactly when it takes no report out of the queue. -/
theorem accounted_step_iff (idle : buffer.draining = none) (accounted : Accounted buffer)
    (event : Event) : Accounted (step env buffer event) ↔ KeepsReports buffer event := by
  unfold Accounted at *
  cases event with
  | accept report =>
      have counted : buffer.memReportsBytes + estimateReportBytes report.facts =
          queuedBytes (buffer.memReports ++ [report.facts]) := by
        rw [accounted, queuedBytes_append]
        simp
      simp only [step, counted, KeepsReports, iff_true]
      exact evict_bytes _
  | startDrain =>
      cases queued : buffer.memReports with
      | nil => simp [step, queued, KeepsReports, accounted]
      | cons report rest =>
          have := estimateReportBytes_pos report
          simp only [step, queued, idle, accounted, KeepsReports, queuedBytes_cons,
            queuedBytes_nil, reduceCtorEq, iff_false]
          omega
  | finishDrain outcome => simp [step, idle, KeepsReports, accounted]
  | deleteAgent agentId =>
      simp only [step, KeepsReports, accounted, Nat.cast_inj]
      rw [eq_comm, queuedBytes_filter_eq]
      simp

theorem idle_step {event : Event} (idle : buffer.draining = none)
    (keeps : KeepsReports buffer event) : (step env buffer event).draining = none := by
  cases event with
  | startDrain => simp [step, show buffer.memReports = [] from keeps, idle]
  | _ => simp [step, idle]

/-- The counter is right in every state of a run exactly when no step of the run takes a
report out of the queue; and then a report is evicted only while the queue is beyond a cap. -/
theorem memReportsBytes_accounted (env : Env) (events : List Event) :
    ((∀ before, before <+: events →
        Accounted (Runs.run (step env) .empty before)) ↔
      Runs.Along (step env) KeepsReports .empty events) ∧
    (Runs.Along (step env) KeepsReports .empty events → ∀ report,
      let buffer := Runs.run (step env) .empty events
      ∃ count, (step env buffer (.accept report)).memReports =
          (buffer.memReports ++ [report.facts]).drop count ∧
        ∀ earlier < count, Exceeds ((buffer.memReports ++ [report.facts]).drop earlier)) := by
  have counter : (∀ before, before <+: events →
      Accounted (Runs.run (step env) .empty before)) ↔
        Runs.Along (step env) KeepsReports .empty events :=
    Runs.along_iff_forall_prefix (fun buffer : ReportBuffer => buffer.draining = none)
      (fun _ event idle accounted => accounted_step_iff idle accounted event)
      (fun _ _ idle keeps => idle_step idle keeps) rfl (show Accounted .empty from rfl) events
  refine ⟨counter, fun along report => ?_⟩
  have accounted := counter.mpr along events List.prefix_rfl
  have counted : (Runs.run (step env) .empty events).memReportsBytes +
        estimateReportBytes report.facts =
      queuedBytes ((Runs.run (step env) .empty events).memReports ++ [report.facts]) := by
    rw [accounted, queuedBytes_append]
    simp
  simp only [step, counted]
  exact evict_drop _

def smallReport (agentId : String) (ts : Int) (ts_pos : 0 < ts) : QueuedReport where
  agentId
  ts
  ts_pos
  prevReportAt := none
  state := none
  points := []
  pings := []
  proxyChecks := []
  net := none

/-- Two reports, and the deletion of an agent that has none. -/
def twoReports : List Event :=
  [.accept (smallReport "a" 60 (by decide)), .accept (smallReport "b" 61 (by decide)),
    .deleteAgent "c"]

theorem memReportsBytes_accounted_twoReports :
    ∃ count, (step {} (Runs.run (step {}) .empty twoReports)
        (.accept (smallReport "a" 120 (by decide)))).memReports =
      ((Runs.run (step {}) .empty twoReports).memReports ++
        [smallReport "a" 120 (by decide)]).drop count ∧
      ∀ earlier < count, Exceeds (((Runs.run (step {}) .empty twoReports).memReports ++
        [smallReport "a" 120 (by decide)]).drop earlier) := by
  refine (memReportsBytes_accounted {} twoReports).2 ?_ _
  refine ⟨trivial, trivial, ?_, trivial⟩
  change ∀ report ∈ [smallReport "a" 60 (by decide), smallReport "b" 61 (by decide)],
    sanitizeAgentId report.agentId ≠ "c"
  simp only [List.mem_cons, List.not_mem_nil, or_false, forall_eq_or_imp, forall_eq]
  exact ⟨by decide, by decide⟩

/-- A report that is accepted and drained leaves its bytes in the counter. -/
theorem drained_report_counted :
    let buffer := Runs.run (step {}) .empty
      [.accept (smallReport "a" 60 (by decide)), .startDrain, .finishDrain fun _ => {}]
    buffer.memReports.length = 0 ∧ buffer.memReportsBytes = 1024 ∧ ¬ Accounted buffer := by
  refine ⟨rfl, by decide, by decide⟩

end Runs

end NieSla.Telemetry
