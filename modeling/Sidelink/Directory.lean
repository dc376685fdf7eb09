import Sidelink.Address
import Sidelink.Identity
import Sidelink.Position

/-!
The directory of all nodes: who is registered, under which address, behind which serving node, where, and which
nodes reach each other directly. Addresses are looked up in an index of their own, where a later registration
takes an address over; a change that names an unknown node is refused and changes nothing.
-/
namespace Sidelink

inductive NodeKind where
  /-- A node that needs a serving node. -/
  | terminal
  | baseStation
  deriving DecidableEq, Inhabited

namespace NodeKind

def name : NodeKind → String
  | .terminal => "ue"
  | .baseStation => "base_station"

def all : List NodeKind := [.terminal, .baseStation]

end NodeKind

/-- What is known of one node. -/
structure NodeRecord where
  id : NodeId
  kind : NodeKind
  address : Option Ipv4
  serving : Option NodeId
  position : Option Position
  deriving BEq, Inhabited

/-- Why a change of the directory is refused. -/
inductive DirectoryError where
  | duplicate (id : NodeId)
  | unknown (id : NodeId)
  deriving DecidableEq

def DirectoryError.message : DirectoryError → String
  | .duplicate id => s!"Node already registered: {id.text}"
  | .unknown id => s!"Unknown node: {id.text}"

structure Directory where
  nodes : SortedMap NodeId NodeRecord
  owners : SortedMap Ipv4 NodeId
  /-- Pairs of nodes of which the first reaches the second directly. -/
  reach : SortedSet (NodeId × NodeId)
  deriving Inhabited

namespace Directory

def empty : Directory := ⟨.empty, .empty, .empty⟩

/-! ## Changes -/

def register (d : Directory) (record : NodeRecord) : Except DirectoryError Directory :=
  if d.nodes.contains record.id then .error (.duplicate record.id)
  else
    let owners := match record.address with
      | some ip => d.owners.insert ip record.id
      | none => d.owners
    .ok { d with nodes := d.nodes.insert record.id record, owners }

/-- Removes a node, the index entry of its address, and every pair it is in. -/
def unregister (d : Directory) (id : NodeId) : Except DirectoryError (NodeRecord × Directory) :=
  match d.nodes.get? id with
  | none => .error (.unknown id)
  | some record =>
    let owners := match record.address with
      | some ip => d.owners.erase ip
      | none => d.owners
    let reach := d.reach.filter (fun pair _ => pair.1 ≠ id && pair.2 ≠ id)
    .ok (record, { nodes := d.nodes.erase id, owners, reach })

/-- Lets two nodes reach each other directly. -/
def connect (d : Directory) (a b : NodeId) : Directory :=
  { d with reach := (d.reach.add (a, b)).add (b, a) }

/-- Changes the record of a node. -/
def update (d : Directory) (id : NodeId) (f : NodeRecord → NodeRecord) : Except DirectoryError Directory :=
  if d.nodes.contains id then .ok { d with nodes := d.nodes.modify id f } else .error (.unknown id)

def move (d : Directory) (id : NodeId) (position : Position) : Except DirectoryError Directory :=
  d.update id (fun r => { r with position := some position })

def serve (d : Directory) (id serving : NodeId) : Except DirectoryError Directory :=
  d.update id (fun r => { r with serving := some serving })

/-! ## Look-up -/

def record? (d : Directory) (id : NodeId) : Option NodeRecord := d.nodes.get? id

/-- The node that an address stands for; a token stands for the node of that id. -/
def resolve? (d : Directory) : Address → Option NodeId
  | .ip host => d.owners.get? host
  | .token value =>
    if value.toNat < 65536 then
      let id : NodeId := ⟨UInt16.ofNat value.toNat⟩
      if d.nodes.contains id then some id else none
    else none

def serving? (d : Directory) (id : NodeId) : Option NodeId := (d.nodes.get? id).bind (·.serving)

def position? (d : Directory) (id : NodeId) : Option Position := (d.nodes.get? id).bind (·.position)

/-- Whether one node reaches another directly. -/
def reaches (d : Directory) (a b : NodeId) : Bool := d.reach.contains (a, b)

/-- All terminals, in order of their ids. -/
def terminals (d : Directory) : List NodeId := (d.nodes.filter (fun _ r => r.kind == .terminal)).keys

end Directory
end Sidelink
