import Uplink.Json.Token

/-!
# From tokens to values

Parsing reads the tokens one by one.  The arrays and objects that are open are kept on a stack, the
innermost first, so that nesting has no limit.
-/

namespace Uplink
namespace Json

/-- An array or object that is open, with what it holds so far, last first. -/
inductive Frame where
  /-- An array. -/
  | array (items : List Json)
  /-- An object and the key whose value is read; the members are lost once a key denotes no text. -/
  | object (members : Option (List (String × Json))) (key : Option String)

/-- What the parser waits for. -/
inductive Parser where
  /-- A value; or the end of the array, where it has no item yet. -/
  | beforeValue (orClose : Bool) (stack : List Frame)
  /-- A key; or the end of the object, where it has no member yet. -/
  | beforeKey (orClose : Bool) (members : Option (List (String × Json))) (stack : List Frame)
  /-- The mark after a key. -/
  | beforeColon (stack : List Frame)
  /-- What comes after a value. -/
  | afterValue (value : Json) (stack : List Frame)

namespace Parser

/-- An object with the given members, last first. -/
def objectOf : Option (List (String × Json)) → Json
  | some members => object members.reverse
  | none => void

/-- Add a member to those of an object, last first. -/
def addMember (members : Option (List (String × Json))) (key : Option String) (value : Json) :
    Option (List (String × Json)) :=
  match members, key with
  | some members, some key => some ((key, value) :: members)
  | _, _ => none

/-- Take a token where a value is expected. -/
def stepValue (stack : List Frame) : Token → Option Parser
  | .openArray => some (beforeValue true (.array [] :: stack))
  | .openObject => some (beforeKey true (some []) stack)
  | .null => some (afterValue null stack)
  | .bool b => some (afterValue (bool b) stack)
  | .number (some n) => some (afterValue (number n) stack)
  | .number none => some (afterValue void stack)
  | .string (some s) => some (afterValue (string s) stack)
  | .string none => some (afterValue void stack)
  | _ => none

/-- Take a token after a value. -/
def stepAfter (value : Json) : List Frame → Token → Option Parser
  | .array items :: stack, .comma => some (beforeValue false (.array (value :: items) :: stack))
  | .array items :: stack, .closeArray => some (afterValue (array (value :: items).reverse) stack)
  | .object members key :: stack, .comma =>
    some (beforeKey false (addMember members key value) stack)
  | .object members key :: stack, .closeObject =>
    some (afterValue (objectOf (addMember members key value)) stack)
  | _, _ => none

/-- Take one token. -/
def step : Parser → Token → Option Parser
  | beforeValue true (.array [] :: stack), .closeArray => some (afterValue (array []) stack)
  | beforeValue _ stack, token => stepValue stack token
  | beforeKey true _ stack, .closeObject => some (afterValue (object []) stack)
  | beforeKey _ members stack, .string name => some (beforeColon (.object members name :: stack))
  | beforeKey _ _ _, _ => none
  | beforeColon stack, .colon => some (beforeValue false stack)
  | beforeColon _, _ => none
  | afterValue value stack, token => stepAfter value stack token

/-- The value that has been read, if nothing is missing. -/
def finish? : Parser → Option Json
  | afterValue value [] => some value
  | _ => none

end Parser

/-- The value of a list of tokens. -/
def ofTokens? (tokens : List Token) : Option Json :=
  (tokens.foldlM Parser.step (.beforeValue false [])).bind Parser.finish?

/-- The value of a text, if the text is well formed. -/
def parse? (text : String) : Option Json :=
  (Token.ofText? text).bind ofTokens?

end Json
end Uplink
