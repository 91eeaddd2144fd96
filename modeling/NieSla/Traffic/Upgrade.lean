import NieSla.Traffic.Conservation

/-! `ensureV6Schema` over the traffic tables of all agents. Its body runs whenever one of the first
eight markers is missing, also where `agent_traffic_daily` has been in use for long. -/
namespace NieSla.Traffic

inductive SchemaMarker where
  | schema
  | nextProbe
  | probeBuffer
  | taskRetention
  | backrouteTask
  | agentContacts
  | proxyTargets
  | proxyLinks
  | latencyPending
  | pingExpectedStatus
deriving DecidableEq

/-- The markers without which the body runs. -/
def SchemaMarker.legacy : List SchemaMarker :=
  [.schema, .nextProbe, .probeBuffer, .taskRetention, .backrouteTask, .agentContacts, .proxyTargets, .proxyLinks]

/-- The markers of the two columns that came later. -/
def SchemaMarker.additive : List SchemaMarker := [.latencyPending, .pingExpectedStatus]

/-- The rows of `targets`, the ledger of each agent, the markers in `app_meta`, and whether there is a
table `ping_targets`. -/
structure TrafficTables where
  targets : String → Option Target
  ledgers : String → Ledger
  installed : SchemaMarker → Bool
  pingTargets : Bool

/-! Statements of the body that meet these tables. -/

/-- `UPDATE targets SET traffic_reset_day = … WHERE traffic_reset_day IS NULL` -/
def Target.fillResetDay (env : Env) (target : Target) : Target :=
  match target.trafficResetDay with
  | some _ => target
  | none =>
      { target with
        trafficResetDay := some (.finite
          (if 0 < target.expiresAt then (localDateParts target.expiresAt env).day else 1)) }

/-- The rows with the newest `updated_at`. -/
def Ledger.newest (ledger : Ledger) : List (Int × MonthlyRow) :=
  ledger.monthly.entries.filter fun entry =>
    ∀ other ∈ ledger.monthly.entries, other.2.updatedAt ≤ entry.2.updatedAt

/-- `INSERT OR IGNORE` -/
def ignoreDaily (day : Int) (daily : OrderedMap Int DailyRow) (row : DailyRow) : OrderedMap Int DailyRow :=
  if (daily.get? day).isSome then daily else daily.set day row

/-- The rows that the back-fill selects. -/
def Ledger.selected (ledger : Ledger) : List MonthlyRow :=
  (ledger.newest.map Prod.snd).filter fun row => 0 < row.bytes .rx ∨ 0 < row.bytes .tx

/-- The back-fill of `agent_traffic_daily`: what the newest row holds, under the day of the upgrade. -/
def Ledger.backfill (ledger : Ledger) (day now : Int) : Ledger :=
  { ledger with
    daily := (ledger.selected.map fun row => ⟨row.bytes, now⟩).foldl (ignoreDaily day) ledger.daily }

/-- `UPDATE agent_traffic_monthly SET active_day = ? … WHERE active_day IS NULL` -/
def Ledger.openActiveDay (ledger : Ledger) (day : Int) : Ledger :=
  { ledger with
    monthly := ledger.newest.foldl
      (fun monthly entry =>
        if entry.2.activeDay = none then
          monthly.set entry.1 { entry.2 with activeDay := some day, dayBytes := fun _ => 0 }
        else monthly)
      ledger.monthly }

namespace TrafficTables

def fillResetDays (env : Env) (tables : TrafficTables) : TrafficTables :=
  { tables with targets := fun agent => (tables.targets agent).map (Target.fillResetDay env) }

def backfillDaily (env : Env) (now : Int) (tables : TrafficTables) : TrafficTables :=
  { tables with ledgers := fun agent => (tables.ledgers agent).backfill (dayFromSec now env) now }

def openActiveDays (env : Env) (now : Int) (tables : TrafficTables) : TrafficTables :=
  { tables with ledgers := fun agent => (tables.ledgers agent).openActiveDay (dayFromSec now env) }

def createPingTargets (tables : TrafficTables) : TrafficTables := { tables with pingTargets := true }

def install (marker : SchemaMarker) (tables : TrafficTables) : TrafficTables :=
  { tables with installed := Function.update tables.installed marker true }

def legacySchemaInstalled (tables : TrafficTables) : Bool := SchemaMarker.legacy.all tables.installed

/-- Where the first eight markers are there, only the later columns are added. -/
def additiveSteps (tables : TrafficTables) : List (TrafficTables → TrafficTables) :=
  (SchemaMarker.additive.filter fun marker =>
    !tables.installed marker && (marker ≠ .pingExpectedStatus || tables.pingTargets)).map install

end TrafficTables

open TrafficTables in
def bodySteps (env : Env) (now : Int) : List (TrafficTables → TrafficTables) :=
  [fillResetDays env, backfillDaily env now, openActiveDays env now, createPingTargets] ++
    (SchemaMarker.legacy ++ SchemaMarker.additive).map install

/-- `ensureV6Schema`, up to the statement that fails, if one does: `count` statements take effect. -/
def ensureV6Schema (env : Env) (now : Int) (count : Nat) (tables : TrafficTables) : TrafficTables :=
  let steps := if tables.legacySchemaInstalled then tables.additiveSteps else bodySteps env now
  (steps.take count).foldl (fun tables statement => statement tables) tables

inductive LedgerEvent where
  | persist (agent : String) (report : Report)
  | upgrade (now : Int) (count : Nat)

def LedgerEvent.step (env : Env) (tables : TrafficTables) : LedgerEvent → TrafficTables
  | .persist agent report =>
      { tables with
        ledgers := Function.update tables.ledgers agent
          (persistAgentTraffic env (tables.targets agent) report (tables.ledgers agent)).1 }
  | .upgrade now count => ensureV6Schema env now count tables

/-! What is to be kept. -/

/-- The newest row of an agent holds what the finished days of its period and its active day hold. -/
def Ledger.Conserved (env : Env) (target : Option Target) (ledger : Ledger) : Prop :=
  ∀ entry ∈ ledger.latest, ∀ direction, entry.2.bytes direction =
    booked ledger (trafficSettingsFromTarget target env entry.2.updatedAt).period entry.2 direction

/-- All that `agent_traffic_daily` holds. -/
def Ledger.dailyBytes (ledger : Ledger) (direction : Direction) : Nat :=
  ledger.daily.total fun _ row => row.bytes direction

/-- After the event every agent's row is conserved, and an upgrade has added no byte to the finished
days: all that it could add is in them already or is to come with the active day. -/
def Keeps (env : Env) (tables : TrafficTables) (event : LedgerEvent) : Prop :=
  (∀ agent, ((event.step env tables).ledgers agent).Conserved env ((event.step env tables).targets agent)) ∧
    match event with
    | .persist _ _ => True
    | .upgrade _ _ => ∀ agent direction,
        ((event.step env tables).ledgers agent).dailyBytes direction ≤ (tables.ledgers agent).dailyBytes direction

/-- Where the back-fill runs, each agent whose newest row holds bytes has a finished day under the day
of the upgrade. -/
def Filled (env : Env) (tables : TrafficTables) : LedgerEvent → Prop
  | .persist _ _ => True
  | .upgrade now count =>
      tables.legacySchemaInstalled = false → 2 ≤ count → ∀ agent, (tables.ledgers agent).selected ≠ [] →
        ((tables.ledgers agent).daily.get? (dayFromSec now env)).isSome = true

end NieSla.Traffic
