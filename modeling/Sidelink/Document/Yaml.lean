import Sidelink.Document.Yaml.Token

/-!
Reading documents from YAML text: mappings and sequences in flow style, between brackets, and in block style, by
indentation. A text holds one document at most. Where a value is missing, there is an empty plain word.
-/
namespace Sidelink.Document.Yaml

/-- The value where there is none. -/
def absent : Document := .plain ""

/-- The name that a key is; lists and records are none. -/
def name? : Document → Option String
  | .plain s | .text s => some s
  | _ => none

namespace Token

/-- Whether a field of a block has no node before this. -/
def endsField : Token → Bool
  | .key | .value | .endBlock => true
  | _ => false

/-- Whether an item of a block has no node before this. -/
def endsItem : Token → Bool
  | .dash => true
  | t => t.endsField

/-- Whether an entry between brackets has no value before this. -/
def endsEntry : Token → Bool
  | .comma | .closeList | .closeRecord => true
  | _ => false

end Token

mutual

/-- The node that tokens begin with, and the tokens behind it. The items of a list may stand in a column of a record
where a field has them as its value (`dashes`). The depth and the length of the node are bounded by `fuel`. -/
def node? : Nat → Bool → List Token → Option (Document × List Token)
  | 0, _, _ => none
  | fuel + 1, dashes, ts =>
    match ts with
    | .scalar d :: ts => some (d, ts)
    | .openList :: ts => (flowItems? fuel ts).map fun (items, ts) => (.list items, ts)
    | .openRecord :: ts => (flowFields? fuel ts).map fun (fields, ts) => (.record fields, ts)
    | .listBlock :: ts =>
      match blockItems? fuel ts with
      | some (items, .endBlock :: ts) => some (.list items, ts)
      | _ => none
    | .recordBlock :: ts => (blockFields? fuel ts).map fun (fields, ts) => (.record fields, ts)
    | .dash :: _ => if dashes then (blockItems? fuel ts).map fun (items, ts) => (.list items, ts) else none
    | _ => none

/-- The node of a field, or of its key. -/
def fieldNode? : Nat → List Token → Option (Document × List Token)
  | 0, _ => none
  | fuel + 1, ts => if ts.head?.any Token.endsField then some (absent, ts) else node? fuel true ts

/-- The items of a block. -/
def blockItems? : Nat → List Token → Option (List Document × List Token)
  | 0, _ => none
  | fuel + 1, ts =>
    match ts with
    | .dash :: ts => do
      let (item, ts) ← if ts.head?.any Token.endsItem then some (absent, ts) else node? fuel false ts
      let (items, ts) ← blockItems? fuel ts
      return (item :: items, ts)
    | ts => some ([], ts)

/-- The fields of a block, up to its end. -/
def blockFields? : Nat → List Token → Option (List (String × Document) × List Token)
  | 0, _ => none
  | fuel + 1, ts =>
    match ts with
    | .endBlock :: ts => some ([], ts)
    | .key :: ts => do
      let (key, ts) ← fieldNode? fuel ts
      let (value, ts) ← match ts with
        | .value :: ts => fieldNode? fuel ts
        | ts => some (absent, ts)
      let (fields, ts) ← blockFields? fuel ts
      return ((← name? key, value) :: fields, ts)
    | _ => none

/-- The value behind a key between brackets. -/
def flowValue? : Nat → List Token → Option (Document × List Token)
  | 0, _ => none
  | fuel + 1, ts =>
    match ts with
    | .value :: ts => if ts.head?.any Token.endsEntry then some (absent, ts) else node? fuel false ts
    | ts => some (absent, ts)

/-- Items up to the closing bracket. An item may be a single pair. -/
def flowItems? : Nat → List Token → Option (List Document × List Token)
  | 0, _ => none
  | fuel + 1, ts =>
    match ts with
    | .closeList :: ts => some ([], ts)
    | ts => do
      let (item, ts) ← match ts with
        | .key :: ts => do
          let (key, ts) ← node? fuel false ts
          let (value, ts) ← flowValue? fuel ts
          some (Document.record [(← name? key, value)], ts)
        | ts => node? fuel false ts
      match ts with
      | .comma :: ts =>
        let (items, ts) ← flowItems? fuel ts
        return (item :: items, ts)
      | .closeList :: ts => return ([item], ts)
      | _ => none

/-- Fields up to the closing brace. A key may have no value, and one with a question mark no name. -/
def flowFields? : Nat → List Token → Option (List (String × Document) × List Token)
  | 0, _ => none
  | fuel + 1, ts =>
    match ts with
    | .closeRecord :: ts => some ([], ts)
    | ts => do
      let (key, value, ts) ← match ts with
        | .key :: ts => do
          let (key, ts) ←
            if ts.head?.any (fun t => t matches .value || t.endsEntry) then some (absent, ts) else node? fuel false ts
          let (value, ts) ← flowValue? fuel ts
          some (key, value, ts)
        | ts => (node? fuel false ts).map fun (key, ts) => (key, absent, ts)
      let field := (← name? key, value)
      match ts with
      | .comma :: ts =>
        let (fields, ts) ← flowFields? fuel ts
        return (field :: fields, ts)
      | .closeRecord :: ts => return ([field], ts)
      | _ => none

end

/-- The document of the tokens of a text. Marks may come before it and behind it. -/
def ofTokens? (ts : List Token) : Option Document := do
  let fuel := 4 * ts.length + 4
  let (d, rest) ← match ts with
    | [] => some (absent, [])
    | .documentStart :: ts =>
      match ts with
      | [] => some (absent, [])
      | .documentStart :: _ => none
      | .documentEnd :: _ => some (absent, ts)
      | ts => node? fuel false ts
    | ts => node? fuel false ts
  if rest.all (· matches .documentEnd) then some d else none

/-- The document of a whole text. -/
def read (s : String) : Option Document := do ofTokens? (← Token.ofLetters? (← Letter.ofText? s))

end Sidelink.Document.Yaml
