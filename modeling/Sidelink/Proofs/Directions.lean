import Sidelink.Proofs.Gates

/-!
Directions and routes. The direction that a flow is filed under and the route of its packets are found apart from each
other, but in the same ways (`RoutingView.Handles`). So a flow is never filed under a direction that its packets do not
take, whatever the directory holds and whatever path the peers are on (`RoutingView.direction_agrees`).
-/
namespace Sidelink

/-! ## The kinds of routes -/

namespace Route

/-- Whether a route is that of packets for a group: the node itself sends to all nodes within reach. -/
def IsGroupcast (route : Route) (node : NodeId) : Prop :=
  route.nextHop = node ∧ route.path = .multicast ∧ route.peer = none

/-- Whether a route leads through the serving node of its first node. -/
def IsServed (route : Route) (v : RoutingView) : Prop :=
  route.path = .infrastructure ∧ v.directory.serving? v.node = some route.nextHop

end Route

namespace RoutingView

/-- The direction of a packet that has a route tells which kind of route it is, and the route tells the direction. The
direction is the same whatever path the peers are on. -/
theorem direction_agrees (v : RoutingView) (role : Role) (packet : Packet) :
    (∀ switches : PathSwitches, { v with switches }.direction role packet = v.direction role packet) ∧
      ∀ route, v.route role packet = .ok route →
        (v.direction role packet = .sidelink ↔ route.peer ≠ none) ∧
        (v.direction role packet = .groupcast ↔ role = .peerDirect ∧ route.IsGroupcast v.node) ∧
        (v.direction role packet = .downlink ↔ role = .baseStation) ∧
        (v.direction role packet = .uplink ↔
          route.peer = none ∧ ¬ (role = .peerDirect ∧ route.IsGroupcast v.node) ∧ role ≠ .baseStation) ∧
        (v.direction role packet = .uplink → route.IsServed v) := by
  refine ⟨fun switches => rfl, fun route routed => ?_⟩
  have handles := handles_iff.2 ⟨routed, rfl⟩
  generalize v.direction role packet = direction at handles
  cases handles with
  | served serves => simp [Route.IsServed, serves]
  | down known => simp
  | group many => simp [Route.IsGroupcast]
  | peer single known near leads => simp [Route.IsGroupcast]
  | distant single known far serves => simp [Route.IsGroupcast, Route.IsServed, serves]

/-- What the first node knows while the second node, which it reaches, is on the path through the serving node. -/
def detoured : RoutingView where
  node := ⟨1⟩
  directory := DataPlane.laterDirectory
  switches := { PathSwitches.new 8 1000 with paths := SortedMap.empty.insert ⟨2⟩ .infrastructure }
  radius := 100

/-- A packet to a peer by way of the serving node is between peers all the same. -/
theorem direction_agrees_at_detour :
    detoured.route .peerDirect .hello = .ok ⟨⟨3⟩, [⟨2⟩], .infrastructure, some ⟨2⟩, none⟩ ∧
      detoured.direction .peerDirect .hello = .sidelink ∧
      { detoured with switches := .new 8 1000 }.direction .peerDirect .hello = .sidelink := by
  have routed : detoured.route .peerDirect .hello = .ok ⟨⟨3⟩, [⟨2⟩], .infrastructure, some ⟨2⟩, none⟩ := rfl
  obtain ⟨still, agrees⟩ := direction_agrees detoured .peerDirect .hello
  have between := (agrees _ routed).1.2 (Option.some_ne_none _)
  exact ⟨routed, between, (still _).trans between⟩

end RoutingView
end Sidelink
