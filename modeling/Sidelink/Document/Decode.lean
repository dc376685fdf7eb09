import Sidelink.Address
import Sidelink.Document.Format
import Sidelink.Document.Plain

/-!
Reading typed values out of documents. A structure is written as a record of its fields, in any order and with
other fields between them, or as a list of their values in order where the format has that. A field that is absent
has its default, if there is one; null stands only for an optional value, and an empty plain word for an empty list
or record.
-/
namespace Sidelink

/-- Why a document is not the value that it should be. -/
inductive DecodeError where
  | unexpected (wanted : String)
  | outOfRange
  | unknownName (name : String)
  | missingField (name : String)
  | repeatedField (name : String)
  | wrongLength
  | unreadable
  deriving DecidableEq

def DecodeError.message : DecodeError → String
  | .unexpected wanted => s!"expected {wanted}"
  | .outOfRange => "number out of range"
  | .unknownName name => s!"unknown name {name}"
  | .missingField name => s!"missing field {name}"
  | .repeatedField name => s!"repeated field {name}"
  | .wrongLength => "wrong number of values"
  | .unreadable => "not a document"

abbrev Decoded (α : Type) := Except DecodeError α

namespace Document

/-! ## Single values -/

/-- A whole number, up to a bound. -/
def toNat (bound : Nat) : Document → Decoded Nat
  | .number t =>
    match Numeral.read bound t.toList with
    | .ok n => .ok n
    | .error .tooLarge => .error .outOfRange
    | .error _ => .error (.unexpected "a whole number")
  | .plain word =>
    match Plain.whole? word with
    | some n => if n ≤ bound then .ok n else .error .outOfRange
    | none => .error (.unexpected "a whole number")
  | _ => .error (.unexpected "a whole number")

def toWord8 (d : Document) : Decoded UInt8 := (d.toNat 255).map UInt8.ofNat
def toWord16 (d : Document) : Decoded UInt16 := (d.toNat 65535).map UInt16.ofNat
def toWord32 (d : Document) : Decoded UInt32 := (d.toNat 4294967295).map UInt32.ofNat

/-- A whole number of 64 bits. -/
def toCount (d : Document) : Decoded Nat := d.toNat 18446744073709551615

/-- A number, whole or not. -/
def toFloat : Document → Decoded Float
  | .number word | .plain word =>
    match Plain.real? word with
    | some x => .ok x
    | none => .error .outOfRange
  | _ => .error (.unexpected "a number")

def toBool : Document → Decoded Bool
  | .bool b => .ok b
  | .plain word =>
    match Plain.bool? word with
    | some b => .ok b
    | none => .error (.unexpected "true or false")
  | _ => .error (.unexpected "true or false")

def toText : Document → Decoded String
  | .text s | .plain s => .ok s
  | _ => .error (.unexpected "a text")

/-- One of a list of things, by its name. -/
def toNamed {α : Type} (format : Format) (all : List α) (name : α → String) (d : Document) : Decoded α :=
  let called (s : String) : Decoded α :=
    match all.find? (fun a => name a = s) with
    | some a => .ok a
    | none => .error (.unknownName s)
  match d with
  | .text s | .plain s => called s
  | .record [(s, value)] => if format.isEmptyValue value then called s else .error (.unexpected "an empty value")
  | _ => .error (.unexpected "a name")

def toIpv4 : Document → Decoded Ipv4
  | .text s | .plain s =>
    match Ipv4.read s.toList with
    | some ip => .ok ip
    | none => .error (.unexpected "an IPv4 address")
  | _ => .error (.unexpected "an IPv4 address")

def toOption {α : Type} (decode : Document → Decoded α) : Document → Decoded (Option α)
  | .null => .ok none
  | .plain word => if Plain.isNull word then .ok none else (decode (.plain word)).map some
  | d => (decode d).map some

def toList {α : Type} (decode : Document → Decoded α) : Document → Decoded (List α)
  | .list items => items.mapM decode
  | .plain "" => .ok []
  | _ => .error (.unexpected "a list")

/-- The entries of a record, whatever their names. -/
def toEntries : Document → Decoded (List (String × Document))
  | .record entries => .ok entries
  | .plain "" => .ok []
  | _ => .error (.unexpected "a record")

/-! ## Structures -/

/-- The values of a structure's fields: by name, or in order. -/
inductive Fields where
  | byName (fields : List (String × Document))
  | inOrder (items : List Document)

/-- The fields of a structure that has `count` of them. -/
def toFields (format : Format) (count : Nat) : Document → Decoded Fields
  | .list items => if format.admitsList count items.length then .ok (.inOrder items) else .error .wrongLength
  | d => d.toEntries.map .byName

namespace Fields
variable {α : Type}

/-- The value of the field of a name, which is the field of an index in order. No field is written twice. -/
def find (f : Fields) (index : Nat) (name : String) : Decoded (Option Document) :=
  match f with
  | .byName fields =>
    match fields.filter (·.1 = name) with
    | [] => .ok none
    | [(_, d)] => .ok (some d)
    | _ => .error (.repeatedField name)
  | .inOrder items => .ok items[index]?

def required (f : Fields) (index : Nat) (name : String) (decode : Document → Decoded α) : Decoded α := do
  match ← f.find index name with
  | some d => decode d
  | none => throw (.missingField name)

def withDefault (f : Fields) (index : Nat) (name : String) (default : α) (decode : Document → Decoded α) :
    Decoded α := do
  match ← f.find index name with
  | some d => decode d
  | none => return default

/-- A field that may be absent from a record, but not from a list. -/
def optional (f : Fields) (index : Nat) (name : String) (decode : Document → Decoded α) : Decoded (Option α) := do
  match f, ← f.find index name with
  | _, some d => toOption decode d
  | .byName _, none => return none
  | .inOrder _, none => throw .wrongLength

end Fields
end Document
end Sidelink
