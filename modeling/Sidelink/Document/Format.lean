import Sidelink.Document

/-!
The formats of documents. They differ in what may stand for a structure besides a record, and for a name besides a
text: a list of the structure's values in order, and a record whose only field has that name and an empty value.
-/
namespace Sidelink

inductive Format where
  | json
  | yaml
  | toml
  deriving DecidableEq, Inhabited

namespace Format

/-- Whether a list of a length may stand for a structure of `count` fields. In TOML the items behind its values mean
nothing. -/
def admitsList (count length : Nat) : Format → Bool
  | .json => length ≤ count
  | .yaml => false
  | .toml => true

/-- Whether a document is an empty value, as it may follow a name. -/
def isEmptyValue : Format → Document → Bool
  | .json, .null => true
  | .toml, .list [] => true
  | .toml, .record [] => true
  | _, _ => false

end Format
end Sidelink
