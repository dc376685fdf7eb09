import Sidelink.Document
import Sidelink.Simulation.State

/-!
The report of a run: what each node and each flow did, as a document.
-/
namespace Sidelink.Simulation

/-- How many packets a node received on each path, paths in order of their names; a path without any is left out. -/
def Reception.byPath (r : Reception) : List (String × Nat) :=
  [(Path.direct.name, r.direct), (Path.infrastructure.name, r.infrastructure),
    (Path.multicast.name, r.multicast)].filter (·.2 ≠ 0)

/-- Counters, by name. -/
def countersOf (entries : List (String × Nat)) : List (String × Document) :=
  entries.map fun (name, n) => (name, .ofNat n)

def nodeReport (id : NodeId) (station : Station) : Document :=
  .record [("id", .ofNat id.value.toNat), ("role", .text station.plane.role.name),
    ("stats", .record (countersOf station.plane.summary.entries)),
    ("received_sdus", .ofNat station.reception.packets), ("received_bytes", .ofNat station.reception.octets),
    ("relayed_pdus", .ofNat station.reception.relayed),
    ("received_by_path", .record (countersOf station.reception.byPath))]

def flowReport (flow : TrafficFlow) (tally : FlowTally) : Document :=
  .record ([("source", .ofNat flow.source.value.toNat), ("destination", .text flow.destination),
      ("hint", .text flow.hint)] ++
    countersOf [("sent", tally.sent), ("queued", tally.queued), ("deferred", tally.deferred),
      ("dropped", tally.dropped)])

def report (s : Simulation) : Document :=
  .record [("scenario", .text s.scenario.name), ("seed", .ofNat s.scenario.run.seed),
    ("duration_ms", .ofNat s.scenario.run.durationMs), ("events_processed", .ofNat s.processed),
    ("nodes", .list (s.stations.entries.map fun (id, station) => nodeReport id station)),
    ("flows", .list (s.scenario.flows.zipWith flowReport s.tallies))]

end Sidelink.Simulation
