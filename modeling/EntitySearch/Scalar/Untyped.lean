import EntitySearch.Json.Parser
import EntitySearch.Scalar

/-!
# Values without a declared type

A JSON value may be read at the type that its own form suggests.
-/

namespace EntitySearch
namespace Scalar

/-- An integer that does not fit a signed word is a double. -/
def ofUntypedJson : Json → Except ReadError Scalar
  | .null => .ok .null
  | .bool b => .ok (.bool b)
  | .number n => match n.toInt64? with
    | some i => .ok (.int i)
    | none => .ok (.float n.toBinary64)
  | .string s => .ok (.string s)
  | .array _ | .object _ => .error .notScalar

def parseUntyped (text : String) : Except ReadError Scalar :=
  match Json.parse text with
  | .ok json => ofUntypedJson json
  | .error e => .error e

end Scalar
end EntitySearch
