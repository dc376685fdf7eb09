import Sidelink.Route

/-!
The ways to handle a packet. The flow of a packet is filed under a direction, and the packet itself is handled by its
route. Each of the two is found on its own: both ask whether the destination is a group, which node it stands for and
whether that node is within reach. There are five ways to handle a packet that has a route (`RoutingView.Handles`), and
the direction and the route always take the same one (`RoutingView.handles_iff`).
-/
namespace Sidelink
namespace RoutingView

/-- The ways to handle a packet that has a route, by the role of the node: the direction of its flow, and the route. -/
inductive Handles (v : RoutingView) (packet : Packet) : Role → Direction → Route → Prop
  /-- A mobile node sends to its serving node, also what is for nobody that is known. -/
  | served {serving : NodeId} (serves : v.directory.serving? v.node = some serving) :
      Handles v packet .mobile .uplink
        ⟨serving, [(v.destination? packet).getD serving], .infrastructure, none, none⟩
  /-- A base station sends to the destination, or to the relay that serves it, unless it is that itself. -/
  | down {destination : NodeId} (known : v.destination? packet = some destination) :
      Handles v packet .baseStation .downlink
        ⟨((v.directory.serving? destination).filter (· ≠ v.node)).getD destination, [destination], .infrastructure,
          none, none⟩
  | group (many : packet.endpoints.isGroup = true) :
      Handles v packet .peerDirect .groupcast
        ⟨v.node, groupWithin v.node v.positions v.radius, .multicast, none, packet.endpoints.group?⟩
  /-- A peer within reach is sent to on its current path, which may lead through the serving node. -/
  | peer {destination hop : NodeId} (single : packet.endpoints.isGroup = false)
      (known : v.destination? packet = some destination) (near : v.directory.reaches v.node destination = true)
      (leads : v.nextHop? destination (v.switches.currentPath destination) = some hop) :
      Handles v packet .peerDirect .sidelink
        ⟨hop, [destination], v.switches.currentPath destination, some destination, none⟩
  /-- A node out of reach is sent to as a mobile node does. -/
  | distant {destination serving : NodeId} (single : packet.endpoints.isGroup = false)
      (known : v.destination? packet = some destination) (far : v.directory.reaches v.node destination = false)
      (serves : v.directory.serving? v.node = some serving) :
      Handles v packet .peerDirect .uplink ⟨serving, [destination], .infrastructure, none, none⟩

variable {v : RoutingView} {role : Role} {packet : Packet} {direction : Direction} {route : Route}

theorem servingRoute_eq_ok_iff : v.servingRoute packet = .ok route ↔
    ∃ serving, v.directory.serving? v.node = some serving ∧
      route = ⟨serving, [(v.destination? packet).getD serving], .infrastructure, none, none⟩ := by
  unfold servingRoute
  cases v.directory.serving? v.node with
  | none => simp
  | some serving => simp [eq_comm]

theorem downlinkRoute_eq_ok_iff : v.downlinkRoute packet = .ok route ↔
    ∃ destination, v.destination? packet = some destination ∧
      route = ⟨((v.directory.serving? destination).filter (· ≠ v.node)).getD destination, [destination],
        .infrastructure, none, none⟩ := by
  unfold downlinkRoute
  cases v.destination? packet with
  | none => simp
  | some destination =>
    cases serves : v.directory.serving? destination with
    | none => simp [serves, eq_comm]
    | some relay => by_cases own : relay = v.node <;> simp [serves, own, Option.filter_some, eq_comm]

/-- The tests that decide on the route of a packet are those that decide on its direction. -/
theorem handles_of_sidelinkRoute (routed : v.sidelinkRoute packet = .ok route) :
    v.Handles packet .peerDirect (v.direction .peerDirect packet) route := by
  unfold sidelinkRoute at routed
  unfold RoutingView.direction
  cases single : packet.endpoints.isGroup with
  | true =>
    simp only [single, if_true] at routed ⊢
    obtain rfl := Except.ok.inj routed
    exact .group single
  | false =>
    cases known : v.destination? packet with
    | none => simp [single, known] at routed
    | some destination =>
      cases near : v.directory.reaches v.node destination with
      | true =>
        cases leads : v.nextHop? destination (v.switches.currentPath destination) with
        | none => simp [single, known, near, leads] at routed
        | some hop =>
          simp only [single, known, near, leads] at routed
          obtain rfl := Except.ok.inj routed
          simpa [near] using Handles.peer single known near leads
      | false =>
        simp only [single, known, near] at routed
        obtain ⟨serving, serves, rfl⟩ := servingRoute_eq_ok_iff.1 routed
        simpa [near, known] using Handles.distant single known near serves

/-- A packet is handled in one of these ways exactly if it is the way of its route and of its direction. -/
theorem handles_iff : v.Handles packet role direction route ↔
    v.route role packet = .ok route ∧ v.direction role packet = direction := by
  constructor
  · intro handles
    cases handles with
    | served serves => exact ⟨servingRoute_eq_ok_iff.2 ⟨_, serves, rfl⟩, rfl⟩
    | down known => exact ⟨downlinkRoute_eq_ok_iff.2 ⟨_, known, rfl⟩, rfl⟩
    | group many => simp [RoutingView.route, sidelinkRoute, RoutingView.direction, many]
    | peer single known near leads =>
      simp [RoutingView.route, sidelinkRoute, RoutingView.direction, single, known, near, leads]
    | distant single known far serves =>
      simp [RoutingView.route, sidelinkRoute, RoutingView.direction, single, known, far, servingRoute, serves]
  · rintro ⟨routed, rfl⟩
    cases role with
    | mobile =>
      obtain ⟨serving, serves, rfl⟩ := servingRoute_eq_ok_iff.1 routed
      exact .served serves
    | baseStation =>
      obtain ⟨destination, known, rfl⟩ := downlinkRoute_eq_ok_iff.1 routed
      exact .down known
    | peerDirect => exact handles_of_sidelinkRoute routed

theorem exists_handles (routed : v.route role packet = .ok route) : ∃ direction, v.Handles packet role direction route :=
  ⟨_, handles_iff.2 ⟨routed, rfl⟩⟩

end RoutingView
end Sidelink
