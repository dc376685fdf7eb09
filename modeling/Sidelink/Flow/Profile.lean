import Sidelink.Traffic

/-!
Traffic profiles: what kind of connection an application gets for the hint it gives. A table lists profiles by
hint, in order of the hints, and a profile for all other hints.
-/
namespace Sidelink

structure Profile where
  application : Application
  trafficClass : TrafficClass
  /-- The code of the delivery mode; it is decoded when a packet is sent. -/
  modeCode : UInt8
  priority : UInt8
  deriving DecidableEq, Inhabited

structure ProfileTable where
  /-- Profiles by hint, hints in increasing order. -/
  profiles : List (String × Profile)
  fallback : Profile
  deriving DecidableEq, Inhabited

namespace ProfileTable

/-- Sets the profile of a hint in an ordered list. -/
def place (hint : String) (profile : Profile) : List (String × Profile) → List (String × Profile)
  | [] => [(hint, profile)]
  | (h, p) :: rest =>
    if hint < h then (hint, profile) :: (h, p) :: rest
    else if hint = h then (hint, profile) :: rest
    else (h, p) :: place hint profile rest

def defaultProfiles : List (String × Profile) :=
  [("game", ⟨.gaming, .interactive, 1, 2⟩), ("safety-beacon", ⟨.alert, .background, 1, 1⟩),
    ("stream", ⟨.vod, .streaming, 1, 2⟩), ("voice", ⟨.voip, .conversational, 1, 2⟩)]

def defaultFallback : Profile := ⟨.cbr, .background, 1, 2⟩

/-- Every flow is unacknowledged, and only safety beacons have priority. -/
def default : ProfileTable := ⟨defaultProfiles, defaultFallback⟩

/-- The profile of a hint. -/
def classify (t : ProfileTable) (hint : String) : Profile := (t.profiles.lookup hint).getD t.fallback

end ProfileTable
end Sidelink
