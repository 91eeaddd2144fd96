import NieSla.Lib.Runs
import NieSla.Traffic.Upgrade

/-! Upgrades between the reports of any number of agents: the ledger is kept exactly where each
back-fill finds the day of the upgrade taken. -/
namespace NieSla.Traffic

section Upgrade

variable {env : Env} {tables : TrafficTables} {ledger : Ledger}

/-- The upgrade writes down the reset day that was in force without it. -/
theorem trafficResetDayFromTarget_fillResetDay (target : Target) :
    trafficResetDayFromTarget (target.fillResetDay env) env = trafficResetDayFromTarget target env := by
  obtain ⟨enabled, resetDay, expiresAt⟩ := target
  cases resetDay with
  | some resetDay => rfl
  | none =>
      simp only [trafficResetDayFromTarget, Target.fillResetDay]
      split
      · rfl
      · norm_num [normalizeTrafficResetDay]

theorem periodOf_fillResetDay (target : Target) (ts : Int) :
    periodOf env (target.fillResetDay env) ts = periodOf env target ts := by
  simp only [periodOf, trafficSettingsFromTarget, trafficResetDayFromTarget_fillResetDay]

/-! One ledger. -/

/-- A ledger as the reports of its agent have left it at some time; without a target nothing is
written. -/
def Persisted (env : Env) (target : Option Target) (ledger : Ledger) (now : Int) : Prop :=
  match target with
  | none => ledger = .empty
  | some target => Ready env target ledger now

theorem Persisted.mono {target : Option Target} {now later : Int} (persisted : Persisted env target ledger now)
    (before : now ≤ later) : Persisted env target ledger later := by
  cases target with
  | none => exact persisted
  | some target => exact Ready.mono persisted before

theorem Persisted.persist {target : Option Target} {report : Report}
    (persisted : Persisted env target ledger report.ts) :
    Persisted env target (persistAgentTraffic env target report ledger).1 report.ts := by
  cases target with
  | none => exact persisted
  | some target =>
      rcases settled_persistAgentTraffic persisted with skipped | ⟨row, result, done, settled, -⟩
      · rwa [skipped]
      · rw [done]
        exact .inr ⟨report.ts, row, le_refl _, settled⟩

theorem Persisted.conserved {target : Option Target} {now : Int}
    (persisted : Persisted env target ledger now) : ledger.Conserved env target := by
  intro entry found direction
  have nothing : Ledger.empty.latest = none := rfl
  cases target with
  | none =>
      cases persisted
      cases found
  | some target =>
      rcases persisted with rfl | ⟨ts, row, -, settled⟩
      · cases found
      · rw [settled.latest, Option.mem_some_iff] at found
        subst found
        rw [settled.updatedAt]
        exact settled.conserved direction

theorem Settled.fillResetDay {target : Target} {ts : Int} {row : MonthlyRow}
    (settled : Settled env target ledger ts row) : Settled env (target.fillResetDay env) ledger ts row := by
  constructor
  · rw [periodOf_fillResetDay]
    exact settled.found
  · exact settled.activeDay
  · exact settled.updatedAt
  · rw [periodOf_fillResetDay]
    exact settled.older
  · exact settled.days
  · rw [periodOf_fillResetDay]
    exact settled.conserved

theorem Persisted.fillResetDay {target : Option Target} {now : Int}
    (persisted : Persisted env target ledger now) :
    Persisted env (target.map (Target.fillResetDay env)) ledger now := by
  cases target with
  | none => exact persisted
  | some target =>
      exact persisted.imp_right fun ⟨ts, row, before, settled⟩ => ⟨ts, row, before, settled.fillResetDay⟩

theorem activeDay_of_mem_newest {target : Option Target} {now : Int}
    (persisted : Persisted env target ledger now) {entry : Int × MonthlyRow} (newest : entry ∈ ledger.newest) :
    entry.2.activeDay ≠ none := by
  obtain ⟨member, last⟩ := List.mem_filter.mp newest
  cases target with
  | none =>
      cases persisted
      cases member
  | some target =>
      rcases persisted with rfl | ⟨ts, row, -, settled⟩
      · cases member
      · simp only [decide_eq_true_eq] at last
        rcases settled.older entry member with rfl | ⟨-, stale⟩
        · simp [settled.activeDay]
        · have latest := last _ settled.found
          rw [settled.updatedAt] at latest
          omega

theorem foldl_fixed_of_mem {σ α : Type*} {step : σ → α → σ} {state : σ} {items : List α}
    (fixed : ∀ item ∈ items, step state item = state) : items.foldl step state = state := by
  induction items with
  | nil => rfl
  | cons item rest ih =>
      rw [List.foldl_cons, fixed item List.mem_cons_self]
      exact ih fun other member => fixed other (List.mem_cons_of_mem item member)

theorem openActiveDay_of_persisted {target : Option Target} {now : Int}
    (persisted : Persisted env target ledger now) (day : Int) : ledger.openActiveDay day = ledger := by
  unfold Ledger.openActiveDay
  rw [foldl_fixed_of_mem]
  exact fun entry newest => if_neg (activeDay_of_mem_newest persisted newest)

/-! The back-fill. -/

theorem foldl_ignoreDaily {day : Int} {daily : OrderedMap Int DailyRow}
    (taken : (daily.get? day).isSome = true) (rows : List DailyRow) :
    rows.foldl (ignoreDaily day) daily = daily :=
  foldl_fixed_of_mem fun _ _ => if_pos taken

theorem backfill_of_filled {day : Int}
    (filled : ledger.selected ≠ [] → (ledger.daily.get? day).isSome = true) (now : Int) :
    ledger.backfill day now = ledger := by
  unfold Ledger.backfill
  cases selected : ledger.selected with
  | nil => rfl
  | cons row rest => rw [foldl_ignoreDaily (filled (by simp [selected]))]

/-- A day that is not taken gets all the bytes of the newest row. -/
theorem dailyBytes_backfill {day : Int} (free : ledger.daily.get? day = none) {row : MonthlyRow}
    {rest : List MonthlyRow} (selected : ledger.selected = row :: rest) (now : Int) (direction : Direction) :
    (ledger.backfill day now).dailyBytes direction = ledger.dailyBytes direction + row.bytes direction := by
  have first : ignoreDaily day ledger.daily ⟨row.bytes, now⟩ = ledger.daily.set day ⟨row.bytes, now⟩ :=
    if_neg (by simp [free])
  have set := ledger.daily.total_set (fun _ daily => daily.bytes direction) day ⟨row.bytes, now⟩
  simp only [OrderedMap.weightAt, free, Option.map_none, Option.getD_none, add_zero] at set
  simp only [Ledger.dailyBytes, Ledger.backfill, selected, List.map_cons, List.foldl_cons, first]
  rw [foldl_ignoreDaily (by simp), set]

theorem exists_lt_dailyBytes_backfill {day : Int} (free : ledger.daily.get? day = none)
    (some_ : ledger.selected ≠ []) (now : Int) :
    ∃ direction, ledger.dailyBytes direction < (ledger.backfill day now).dailyBytes direction := by
  obtain ⟨row, rest, selected⟩ := List.exists_cons_of_ne_nil some_
  have positive : 0 < row.bytes .rx ∨ 0 < row.bytes .tx := by
    have member : row ∈ ledger.selected := by simp [selected]
    simpa using (List.mem_filter.mp member).2
  rcases positive with rx | tx
  · refine ⟨.rx, ?_⟩
    rw [dailyBytes_backfill free selected]
    omega
  · refine ⟨.tx, ?_⟩
    rw [dailyBytes_backfill free selected]
    omega

/-! What an upgrade does to the tables. -/

theorem foldl_steps_keep {β : Type*} (read : TrafficTables → β) {steps : List (TrafficTables → TrafficTables)}
    (keep : ∀ statement ∈ steps, ∀ tables, read (statement tables) = read tables) (tables : TrafficTables) :
    read (steps.foldl (fun tables statement => statement tables) tables) = read tables := by
  induction steps generalizing tables with
  | nil => rfl
  | cons statement rest ih =>
      rw [List.foldl_cons, ih fun other member => keep other (List.mem_cons_of_mem statement member)]
      exact keep statement List.mem_cons_self tables

/-- Markers leave the tables of the traffic alone. -/
theorem foldl_installs (markers : List SchemaMarker) (count : Nat) (tables : TrafficTables) :
    let installed := ((markers.map TrafficTables.install).take count).foldl
      (fun tables statement => statement tables) tables
    installed.ledgers = tables.ledgers ∧ installed.targets = tables.targets := by
  have every (statement : TrafficTables → TrafficTables)
      (member : statement ∈ (markers.map TrafficTables.install).take count) :
      ∃ marker, statement = TrafficTables.install marker := by
    obtain ⟨marker, -, rfl⟩ := List.mem_map.mp (List.mem_of_mem_take member)
    exact ⟨marker, rfl⟩
  constructor
  · refine foldl_steps_keep TrafficTables.ledgers (fun statement member tables => ?_) tables
    obtain ⟨marker, rfl⟩ := every statement member
    rfl
  · refine foldl_steps_keep TrafficTables.targets (fun statement member tables => ?_) tables
    obtain ⟨marker, rfl⟩ := every statement member
    rfl

/-- An upgrade up to any statement: nothing of the traffic, the reset days alone, then also the
back-fill, then also the active days. -/
theorem ensureV6Schema_cases (env : Env) (now : Int) (count : Nat) (tables : TrafficTables) :
    let upgraded := ensureV6Schema env now count tables
    (upgraded.targets = tables.targets ∨
        upgraded.targets = fun agent => (tables.targets agent).map (Target.fillResetDay env)) ∧
      ((¬ (tables.legacySchemaInstalled = false ∧ 2 ≤ count) ∧ upgraded.ledgers = tables.ledgers) ∨
        (tables.legacySchemaInstalled = false ∧ 2 ≤ count) ∧
          ((upgraded.ledgers = fun agent => (tables.ledgers agent).backfill (dayFromSec now env) now) ∨
            upgraded.ledgers = fun agent =>
              ((tables.ledgers agent).backfill (dayFromSec now env) now).openActiveDay (dayFromSec now env))) := by
  simp only [ensureV6Schema]
  split
  next legacy =>
    obtain ⟨ledgers, targets⟩ := foldl_installs (SchemaMarker.additive.filter fun marker =>
      !tables.installed marker && (marker ≠ .pingExpectedStatus || tables.pingTargets)) count tables
    exact ⟨.inl targets, .inl ⟨by simp [legacy], ledgers⟩⟩
  next body =>
    have missing : tables.legacySchemaInstalled = false := eq_false_of_ne_true body
    match count with
    | 0 => exact ⟨.inl rfl, .inl ⟨by omega, rfl⟩⟩
    | 1 => exact ⟨.inr rfl, .inl ⟨by omega, rfl⟩⟩
    | 2 => exact ⟨.inr rfl, .inr ⟨⟨missing, by omega⟩, .inl rfl⟩⟩
    | 3 => exact ⟨.inr rfl, .inr ⟨⟨missing, by omega⟩, .inr rfl⟩⟩
    | rest + 4 =>
        simp only [bodySteps, List.cons_append, List.nil_append, List.take_succ_cons, List.foldl_cons]
        obtain ⟨ledgers, targets⟩ := foldl_installs (SchemaMarker.legacy ++ SchemaMarker.additive) rest
          (((tables.fillResetDays env).backfillDaily env now).openActiveDays env now).createPingTargets
        exact ⟨.inr targets, .inr ⟨⟨missing, by omega⟩, .inr ledgers⟩⟩

end Upgrade

/-! Runs. -/

def LedgerEvent.reportOf (agent : String) : LedgerEvent → Option Report
  | .persist owner report => if owner = agent then some report else none
  | .upgrade _ _ => none

/-- The reports of an agent. -/
def reportsOf (agent : String) (events : List LedgerEvent) : List Report :=
  events.filterMap (LedgerEvent.reportOf agent)

/-- Each agent's reports come in the order of their times. -/
def Ordered (events : List LedgerEvent) : Prop :=
  ∀ agent, (reportsOf agent events).Pairwise fun earlier later => earlier.ts ≤ later.ts

/-- Every agent's ledger is as its reports have left it, before the reports that are to come. -/
def UpToDate (env : Env) (tables : TrafficTables) (events : List LedgerEvent) : Prop :=
  ∀ agent, ∃ now, Persisted env (tables.targets agent) (tables.ledgers agent) now ∧
    ∀ report ∈ reportsOf agent events, now ≤ report.ts

section Runs

variable {env : Env} {tables : TrafficTables} {event : LedgerEvent} {rest : List LedgerEvent}

theorem Ordered.tail (ordered : Ordered (event :: rest)) : Ordered rest := fun agent => by
  have all := ordered agent
  rw [reportsOf, List.filterMap_cons] at all
  cases found : event.reportOf agent with
  | none =>
      rw [found] at all
      exact all
  | some report =>
      simp only [found, List.pairwise_cons] at all
      exact all.2

theorem current_persisted {agent : String} {report : Report} (ordered : Ordered (.persist agent report :: rest))
    (current : UpToDate env tables (.persist agent report :: rest)) :
    UpToDate env (LedgerEvent.step env tables (.persist agent report)) rest := by
  intro other
  obtain ⟨now, persisted, before⟩ := current other
  simp only [LedgerEvent.step]
  by_cases same : other = agent
  · subst same
    have reports : reportsOf other (.persist other report :: rest) = report :: reportsOf other rest := by
      simp [reportsOf, LedgerEvent.reportOf]
    rw [reports] at before
    have times := ordered other
    rw [reports, List.pairwise_cons] at times
    rw [Function.update_self]
    exact ⟨report.ts, (persisted.mono (before report List.mem_cons_self)).persist, times.1⟩
  · have reports : reportsOf other (.persist agent report :: rest) = reportsOf other rest := by
      simp [reportsOf, LedgerEvent.reportOf, Ne.symm same]
    rw [reports] at before
    rw [Function.update_of_ne same]
    exact ⟨now, persisted, before⟩

/-- Where the day of the upgrade is taken the ledgers stay as they are. -/
theorem ledgers_upgrade {now : Int} {count : Nat} (current : UpToDate env tables rest)
    (filled : Filled env tables (.upgrade now count)) :
    (ensureV6Schema env now count tables).ledgers = tables.ledgers := by
  obtain ⟨-, ⟨-, same⟩ | ⟨⟨body, enough⟩, written⟩⟩ := ensureV6Schema_cases env now count tables
  · exact same
  · have unfilled (agent : String) :
        (tables.ledgers agent).backfill (dayFromSec now env) now = tables.ledgers agent :=
      backfill_of_filled (filled body enough agent) now
    rcases written with written | written
    · rw [written]
      exact funext unfilled
    · rw [written]
      funext agent
      obtain ⟨time, persisted, -⟩ := current agent
      rw [unfilled, openActiveDay_of_persisted persisted]

theorem current_upgrade {now : Int} {count : Nat} (current : UpToDate env tables (.upgrade now count :: rest))
    (filled : Filled env tables (.upgrade now count)) :
    UpToDate env (LedgerEvent.step env tables (.upgrade now count)) rest := by
  intro agent
  obtain ⟨time, persisted, before⟩ := current agent
  refine ⟨time, ?_, before⟩
  simp only [LedgerEvent.step, ledgers_upgrade current filled]
  rcases (ensureV6Schema_cases env now count tables).1 with same | filledIn
  · rwa [same]
  · rw [filledIn]
    exact persisted.fillResetDay

theorem current_step (ordered : Ordered (event :: rest)) (current : UpToDate env tables (event :: rest))
    (filled : Filled env tables event) : UpToDate env (event.step env tables) rest := by
  cases event with
  | persist agent report => exact current_persisted ordered current
  | upgrade now count => exact current_upgrade current filled

theorem keeps_of_filled (ordered : Ordered (event :: rest)) (current : UpToDate env tables (event :: rest))
    (filled : Filled env tables event) : Keeps env tables event := by
  refine ⟨fun agent => ?_, ?_⟩
  · obtain ⟨now, persisted, -⟩ := current_step ordered current filled agent
    exact persisted.conserved
  · cases event with
    | persist agent report => trivial
    | upgrade now count =>
        intro agent direction
        rw [LedgerEvent.step, ledgers_upgrade current filled]

theorem filled_of_keeps (keeps : Keeps env tables event) : Filled env tables event := by
  cases event with
  | persist agent report => trivial
  | upgrade now count =>
      intro body enough agent some_
      by_contra free
      rw [Option.not_isSome_iff_eq_none] at free
      obtain ⟨direction, more⟩ := exists_lt_dailyBytes_backfill free some_ now
      have least := keeps.2 agent direction
      rw [LedgerEvent.step] at least
      obtain ⟨-, ⟨stays, -⟩ | ⟨-, written | written⟩⟩ := ensureV6Schema_cases env now count tables
      · exact stays ⟨body, enough⟩
      · rw [written] at least
        exact absurd least (not_le.mpr more)
      · rw [written] at least
        exact absurd least (not_le.mpr more)

theorem along_keeps_iff (ordered : Ordered rest) (current : UpToDate env tables rest) :
    Runs.Along (LedgerEvent.step env) (Keeps env) tables rest ↔
      Runs.Along (LedgerEvent.step env) (Filled env) tables rest := by
  induction rest generalizing tables with
  | nil => exact Iff.rfl
  | cons event rest ih =>
      constructor
      · rintro ⟨keeps, along⟩
        have filled := filled_of_keeps keeps
        exact ⟨filled, (ih ordered.tail (current_step ordered current filled)).mp along⟩
      · rintro ⟨filled, along⟩
        exact ⟨keeps_of_filled ordered current filled,
          (ih ordered.tail (current_step ordered current filled)).mpr along⟩

end Runs

/-- No agent has reported. -/
def unreported (targets : String → Option Target) (installed : SchemaMarker → Bool) (pingTargets : Bool) :
    TrafficTables :=
  ⟨targets, fun _ => .empty, installed, pingTargets⟩

theorem current_unreported (env : Env) (targets : String → Option Target) (installed : SchemaMarker → Bool)
    (pingTargets : Bool) (events : List LedgerEvent) :
    UpToDate env (unreported targets installed pingTargets) events := by
  intro agent
  refine ⟨0, ?_, fun report _ => report.ts_pos.le⟩
  simp only [unreported]
  cases targets agent with
  | none => exact rfl
  | some target => exact .inl rfl

def webTables : TrafficTables :=
  unreported (fun _ => some monthlyTarget) (fun marker => marker ≠ .proxyLinks) true

theorem baselineTs_pos : (0 : Int) < 86400 := by decide

def baselineReport : LedgerEvent := .persist "web" (.ofBytes 1000 100 86400 baselineTs_pos)

/-- An upgrade before the first increment, which fails after the active days, and again the day after. -/
def earlyUpgrades : List LedgerEvent :=
  [baselineReport, .upgrade 90000 3, .upgrade 180000 14, .persist "web" (.ofBytes 1500 150 190000 (by decide))]

theorem ordered_earlyUpgrades : Ordered earlyUpgrades := by
  intro agent
  by_cases same : agent = "web"
  · subst same
    decide +kernel
  · have silent : reportsOf agent earlyUpgrades = [] := by
      simp [reportsOf, earlyUpgrades, baselineReport, LedgerEvent.reportOf, Ne.symm same]
    rw [silent]
    exact List.Pairwise.nil

theorem selected_baselineReport (agent : String) :
    ((baselineReport.step {} webTables).ledgers agent).selected = [] := by
  by_cases same : agent = "web"
  · subst same
    decide +kernel
  · have untouched : (baselineReport.step {} webTables).ledgers agent = .empty := Function.update_of_ne same _ _
    rw [untouched]
    rfl

end NieSla.Traffic
