/-!
Documents: the trees of values that configurations are read from and reports are written as. A number keeps the
text it was written with, so that nothing is lost before it is known what kind of number is wanted. A plain word
keeps its spelling: whether it is a text, a number, a truth value or null depends on what is wanted.
-/
namespace Sidelink

inductive Document where
  | null
  | bool (value : Bool)
  | number (text : String)
  | text (value : String)
  | plain (word : String)
  | list (items : List Document)
  | record (fields : List (String × Document))
  deriving Inhabited

namespace Document

def ofNat (n : Nat) : Document := .number (toString n)

/-- The field of a name, if this is a record that has one. -/
def field? (name : String) : Document → Option Document
  | .record fields => fields.lookup name
  | _ => none

end Document
end Sidelink
