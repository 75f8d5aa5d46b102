import Mathlib.Data.Int.Notation
import Mathlib.Data.Rat.Defs
import MultiAgent.Infrastructure.ReplicationTasks

/-!
# Paused streams and databases

The two managers of `ReplicationTasks`, each over the regions it is connected to. A pause of a
stream awaits nothing and one of a database deactivates its replication slot first; a health
check of a stream asks each of its regions and one of a database only the target.

In both a name stays paused if the pauses of the run are orderly (`stays_paused`). A resumption
of what was not paused leaves two tasks behind that no pause finds (`not_stays_paused`).
-/

namespace MultiAgent

namespace NATSMirroring

open Replication

/-- `MirroringDirection`. -/
inductive MirroringDirection
  | bidirectional
  | unidirectional
  deriving DecidableEq

/-- `MirroringConfig`. -/
structure MirroringConfig where
  streamName : String
  sourceRegion : String
  targetRegion : String
  direction : MirroringDirection
  syncIntervalSeconds : ℤ := 60

/-- What `stream_info` answers : the number of messages, or an exception. -/
inductive StreamInfo
  | messages (count : ℕ)
  | raised

/-- The regions of a health check. -/
def targetRegions (config : MirroringConfig) : List String :=
  config.targetRegion ::
    if config.direction = .bidirectional then [config.sourceRegion] else []

/-- The status a health check writes. The number of replicated messages is written before it is
compared. -/
def statusOf : StreamInfo → Status
  | .messages count =>
    let messagesReplicated := count
    if count = 0 ∧ messagesReplicated > 0 then .failed else .active
  | .raised => .failed

/-- `NATSMirroringManager`, with a JetStream context for each of the regions. -/
def natsMirroringManager (jsContexts : List String) : Link MirroringConfig StreamInfo where
  name := MirroringConfig.streamName
  syncs config := decide (0 < config.syncIntervalSeconds)
  awaits _ := false
  asks config := (targetRegions config).countP fun region => decide (region ∈ jsContexts)
  judge _ info := some (statusOf info)

end NATSMirroring

namespace PostgreSQLReplication

open Replication

/-- `ReplicationConfig`. -/
structure ReplicationConfig where
  databaseName : String
  targetRegion : String
  syncIntervalSeconds : ℤ := 60
  maxLagBytes : ℤ := 1024 * 1024
  maxLagTimeSeconds : ℤ := 30

/-- What the query for the lag gives : a row, no row, or an exception. -/
inductive LagResult
  | row (lagBytes : Option ℤ) (lagTimeSeconds : Option ℚ)
  | noRow
  | raised

/-- The status a health check writes, if it writes one. -/
def statusOf (config : ReplicationConfig) : LagResult → Option Status
  | .row lagBytes lagTimeSeconds =>
    if lagBytes.getD 0 > config.maxLagBytes ∨
        lagTimeSeconds.getD 0 > (config.maxLagTimeSeconds : ℚ) then
      some .failed
    else some .active
  | .noRow => none
  | .raised => some .failed

/-- `PostgreSQLReplicationManager`, connected to each of the regions. -/
def postgreSQLReplicationManager (sourceConnections : List String) :
    Link ReplicationConfig LagResult where
  name := ReplicationConfig.databaseName
  syncs config := decide (0 < config.syncIntervalSeconds)
  awaits config := decide (config.targetRegion ∈ sourceConnections)
  asks config := if config.targetRegion ∈ sourceConnections then 1 else 0
  judge := statusOf

end PostgreSQLReplication

namespace Replication

open NATSMirroring PostgreSQLReplication

/-- The streams and the databases of an orderly run stay paused after their pause. -/
theorem stays_paused (regions : List String) :
    (∀ es s, (managerMachine (natsMirroringManager regions)).Run
        (Manager.Orderly (natsMirroringManager regions)) es s →
      (managerMachine (natsMirroringManager regions)).Throughout Manager.PauseLaw es) ∧
    ∀ es s, (managerMachine (postgreSQLReplicationManager regions)).Run
        (Manager.Orderly (postgreSQLReplicationManager regions)) es s →
      (managerMachine (postgreSQLReplicationManager regions)).Throughout Manager.PauseLaw es :=
  ⟨fun _ _ h => pauseLaw_throughout h, fun _ _ h => pauseLaw_throughout h⟩

/-- A stream between two regions. -/
def orders : MirroringConfig :=
  { streamName := "ORDERS", sourceRegion := "us-east", targetRegion := "eu-west"
    direction := .unidirectional }

/-- A database with a standby. -/
def billing : ReplicationConfig :=
  { databaseName := "billing", targetRegion := "eu-west" }

/-- A stream is paused, and again after it was resumed. -/
def pausedTwice : List (Event MirroringConfig StreamInfo) :=
  [.setup orders, .callDone 0 true, .run 0, .answer 0 (.messages 0), .run 1, .pause "ORDERS",
    .resume "ORDERS", .run 2, .pause "ORDERS"]

/-- A database is paused while its health check waits for an answer. -/
def pausedOnce : List (Event ReplicationConfig LagResult) :=
  [.setup billing, .callDone 0 true, .run 0, .run 1, .pause "billing", .callDone 1 true]

/-- A stream is resumed while it runs, paused, and synced by the task of its setup. -/
def resumedRunning : List (Event MirroringConfig StreamInfo) :=
  [.setup orders, .callDone 0 true, .resume "ORDERS", .pause "ORDERS", .run 1]

/-- A database is set up twice, paused, and synced by the task of its first setup. -/
def setUpTwice : List (Event ReplicationConfig LagResult) :=
  [.setup billing, .callDone 0 true, .setup billing, .callDone 1 true, .pause "billing",
    .callDone 2 true, .run 1]

theorem stays_paused_runs :
    (managerMachine (natsMirroringManager ["eu-west"])).Throughout Manager.PauseLaw pausedTwice ∧
    (managerMachine (postgreSQLReplicationManager ["eu-west"])).Throughout Manager.PauseLaw
      pausedOnce := by
  obtain ⟨s, hstream, -⟩ := (managerMachine (natsMirroringManager ["eu-west"])).exists_run
    (Manager.Orderly (natsMirroringManager ["eu-west"])) pausedTwice
    (fun s => decide (s.paused = ["ORDERS"])) (by decide +kernel)
  obtain ⟨t, hdatabase, -⟩ :=
    (managerMachine (postgreSQLReplicationManager ["eu-west"])).exists_run
      (Manager.Orderly (postgreSQLReplicationManager ["eu-west"])) pausedOnce
      (fun s => decide (s.paused = ["billing"])) (by decide +kernel)
  exact ⟨(stays_paused ["eu-west"]).1 pausedTwice s hstream,
    (stays_paused ["eu-west"]).2 pausedOnce t hdatabase⟩

/-- The sync task that no slot knows any more makes the paused name active. -/
theorem not_stays_paused :
    (¬∀ s, (managerMachine (natsMirroringManager ["eu-west"])).Run (fun _ _ => True)
      resumedRunning s → s.PauseLaw) ∧
    ¬∀ s, (managerMachine (postgreSQLReplicationManager ["eu-west"])).Run (fun _ _ => True)
      setUpTwice s → s.PauseLaw := by
  constructor
  · intro hall
    obtain ⟨s, hrun, hnot⟩ := (managerMachine (natsMirroringManager ["eu-west"])).exists_run
      (fun _ _ => True) resumedRunning (fun s => decide ¬s.PauseLaw) (by decide +kernel)
    exact of_decide_eq_true hnot (hall s hrun)
  · intro hall
    obtain ⟨s, hrun, hnot⟩ :=
      (managerMachine (postgreSQLReplicationManager ["eu-west"])).exists_run
        (fun _ _ => True) setUpTwice (fun s => decide ¬s.PauseLaw) (by decide +kernel)
    exact of_decide_eq_true hnot (hall s hrun)

end Replication

end MultiAgent
