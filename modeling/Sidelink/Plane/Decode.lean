import Sidelink.Document.Decode
import Sidelink.Plane.Settings

/-!
Reading the configuration of a data plane from a document. Every field has a default, except that a profile says
what application and class of traffic it is for.
-/
namespace Sidelink

namespace Profile

def ofDocument (format : Format) (d : Document) : Decoded Profile := do
  let f ← d.toFields format 4
  return {
    application := ← f.required 0 "application" (Document.toNamed format Application.all Application.name)
    trafficClass := ← f.required 1 "traffic_class" (Document.toNamed format TrafficClass.all TrafficClass.name)
    modeCode := ← f.withDefault 2 "rlc_type" 1 Document.toWord8
    priority := ← f.withDefault 3 "priority" 2 Document.toWord8 }

end Profile

namespace ProfileTable

/-- The profiles of a record, hints in increasing order. -/
def profilesOf (format : Format) (d : Document) : Decoded (List (String × Profile)) := do
  (← d.toEntries).foldlM (fun table (hint, d) => do return place hint (← Profile.ofDocument format d) table) []

def ofDocument (format : Format) (d : Document) : Decoded ProfileTable := do
  let f ← d.toFields format 2
  return {
    profiles := ← f.withDefault 0 "profiles" defaultProfiles (profilesOf format)
    fallback := ← f.withDefault 1 "fallback" defaultFallback (Profile.ofDocument format) }

end ProfileTable

def CompressionSettings.ofDocument (format : Format) (d : Document) : Decoded CompressionSettings := do
  let f ← d.toFields format 2
  return {
    compressedSize := ← f.withDefault 0 "header_compressed_size" none (Document.toOption Document.toWord16)
    threshold := ← f.withDefault 1 "compression_threshold" CompressionSettings.default.threshold Document.toWord16 }

def LinkSettings.ofDocument (format : Format) (d : Document) : Decoded LinkSettings := do
  let f ← d.toFields format 3
  return {
    queueCapacity := ← f.withDefault 0 "queue_capacity" LinkSettings.default.queueCapacity Document.toCount
    maxPduSize := ← f.withDefault 1 "max_pdu_size" LinkSettings.default.maxPduSize Document.toCount
    window := ← f.withDefault 2 "rx_window" LinkSettings.default.window (Document.toNat 4294967295) }

def PlaneSettings.ofDocument (format : Format) (d : Document) : Decoded PlaneSettings := do
  let f ← d.toFields format 5
  return {
    profiles := ← f.withDefault 0 "classification" .default (ProfileTable.ofDocument format)
    compression := ← f.withDefault 1 "pdcp" .default (CompressionSettings.ofDocument format)
    link := ← f.withDefault 2 "rlc" .default (LinkSettings.ofDocument format)
    radius := ← f.withDefault 3 "cutoff_radius" PlaneSettings.default.radius Document.toFloat
    drainInterval :=
      ← f.withDefault 4 "drain_check_interval_us" PlaneSettings.default.drainInterval Document.toCount }

end Sidelink
