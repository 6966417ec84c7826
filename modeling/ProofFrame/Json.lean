/-!
# JSON values

The values `serde_json` parses a document into.  A number keeps the text it was
written with; the members of an object keep the order the map iterates them in.
-/

namespace ProofFrame

inductive Json where
  | null
  | bool (value : Bool)
  | number (text : String)
  | string (value : String)
  | array (items : List Json)
  | object (members : List (String × Json))

end ProofFrame
