import Sidelink.Plane.Decode
import Sidelink.Scenario.Settings

/-!
Reading a scenario from a document of a format. Only nodes have to be given; in a node, a flow or a planned switch
what it is and where it belongs has to be given too.
-/
namespace Sidelink

def Position.ofDocument (format : Format) (d : Document) : Decoded Position := do
  let f ← d.toFields format 3
  return ⟨← f.required 0 "x" Document.toFloat, ← f.required 1 "y" Document.toFloat,
    ← f.withDefault 2 "z" 0 Document.toFloat⟩

def NodeId.ofDocument (d : Document) : Decoded NodeId := d.toWord16.map NodeId.mk

def Path.ofDocument (format : Format) : Document → Decoded Path := Document.toNamed format Path.all Path.name

def RunSettings.ofDocument (format : Format) (d : Document) : Decoded RunSettings := do
  let f ← d.toFields format 5
  return {
    durationMs := ← f.withDefault 0 "duration_ms" RunSettings.default.durationMs Document.toCount
    seed := ← f.withDefault 1 "seed" RunSettings.default.seed Document.toCount
    intervalMs := ← f.withDefault 2 "tti_ms" RunSettings.default.intervalMs Document.toCount
    framesPerTurn := ← f.withDefault 3 "pdus_per_tti" RunSettings.default.framesPerTurn Document.toCount
    latencyMs := ← f.withDefault 4 "link_latency_ms" RunSettings.default.latencyMs Document.toCount }

def ScenarioNode.ofDocument (format : Format) (d : Document) : Decoded ScenarioNode := do
  let f ← d.toFields format 6
  return {
    id := ← f.required 0 "id" NodeId.ofDocument
    role := ← f.required 1 "role" (Document.toNamed format Role.all Role.name)
    address := ← f.optional 2 "ip" Document.toIpv4
    serving := ← f.optional 3 "serving" NodeId.ofDocument
    position := ← f.withDefault 4 "position" .origin (Position.ofDocument format)
    peers := ← f.withDefault 5 "direct_peers" [] (Document.toList NodeId.ofDocument) }

def TrafficFlow.ofDocument (format : Format) (d : Document) : Decoded TrafficFlow := do
  let f ← d.toFields format 9
  return {
    source := ← f.required 0 "source" NodeId.ofDocument
    destination := ← f.required 1 "destination" Document.toText
    hint := ← f.withDefault 2 "hint" "default" Document.toText
    periodMs := ← f.required 3 "period_ms" Document.toCount
    size := ← f.required 4 "size" Document.toCount
    sourcePort := ← f.withDefault 5 "src_port" 5000 Document.toWord16
    destinationPort := ← f.withDefault 6 "dst_port" 6000 Document.toWord16
    startMs := ← f.optional 7 "start_ms" Document.toCount
    stopMs := ← f.optional 8 "stop_ms" Document.toCount }

def PlannedSwitch.ofDocument (format : Format) (d : Document) : Decoded PlannedSwitch := do
  let f ← d.toFields format 5
  return {
    atMs := ← f.required 0 "at_ms" Document.toCount
    first := ← f.required 1 "a" NodeId.ofDocument
    second := ← f.required 2 "b" NodeId.ofDocument
    path := ← f.required 3 "path" (Path.ofDocument format)
    clear := ← f.withDefault 4 "clear_buffer" false Document.toBool }

namespace Scenario

/-- The level of detail that a scenario asks logs to have. -/
def logLevelOf (format : Format) (d : Document) : Decoded (Option String) := do
  let f ← d.toFields format 1
  f.optional 0 "level" Document.toText

def ofDocument (format : Format) (d : Document) : Decoded Scenario := do
  let f ← d.toFields format 7
  return {
    name := ← f.withDefault 0 "name" "unnamed" Document.toText
    run := ← f.withDefault 1 "simulation" .default (RunSettings.ofDocument format)
    plane := ← f.withDefault 2 "layers" .default (PlaneSettings.ofDocument format)
    nodes := ← f.required 3 "nodes" (Document.toList (ScenarioNode.ofDocument format))
    flows := ← f.withDefault 4 "flows" [] (Document.toList (TrafficFlow.ofDocument format))
    switches := ← f.withDefault 5 "mode_switches" [] (Document.toList (PlannedSwitch.ofDocument format))
    logLevel := ← f.withDefault 6 "log" none (logLevelOf format) }

end Scenario
end Sidelink
