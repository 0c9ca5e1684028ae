import Gatekeeper.Json
import Gatekeeper.Json.Lexeme

/-!
# Reading JSON

The lexemes of a text are read one by one by a machine that keeps the containers still open. It is
strict: no comma too many, no member without a key, nothing after the value. There is no bound on
depth.
-/

set_option autoImplicit false

namespace Gatekeeper.Json

/-- A container that is still open, with what it holds so far, last first; an object also with the
key whose value is being read. -/
inductive Frame
  | array (elements : List Json)
  | object (members : List (Option String × Json)) (key : Option String)
  deriving Repr

/-- What a reader has before the next lexeme; the open containers innermost first. -/
inductive State
  | value (within : List Frame)
  | firstElement (within : List Frame)
  | firstKey (within : List Frame)
  | nextKey (members : List (Option String × Json)) (within : List Frame)
  | colon (members : List (Option String × Json)) (key : Option String) (within : List Frame)
  | complete (result : Json) (within : List Frame)
  deriving Repr

namespace State

def stepValue (within : List Frame) : Lexeme → Option State
  | .openObject => some (.firstKey within)
  | .openArray => some (.firstElement within)
  | .null => some (.complete .null within)
  | .bool b => some (.complete (.bool b) within)
  | .number literal => some (.complete (.number literal) within)
  | .string text => some (.complete (.string text) within)
  | _ => none

def stepComplete (done : Json) : List Frame → Lexeme → Option State
  | .array elements :: within, .comma => some (.value (.array (done :: elements) :: within))
  | .array elements :: within, .closeArray =>
    some (.complete (.array (done :: elements).reverse) within)
  | .object members key :: within, .comma => some (.nextKey ((key, done) :: members) within)
  | .object members key :: within, .closeObject =>
    some (.complete (.object ((key, done) :: members).reverse) within)
  | _, _ => none

def step (state : State) (lexeme : Lexeme) : Option State :=
  match state, lexeme with
  | .value within, l => stepValue within l
  | .firstElement within, .closeArray => some (.complete (.array []) within)
  | .firstElement within, l => stepValue (.array [] :: within) l
  | .firstKey within, .closeObject => some (.complete (.object []) within)
  | .firstKey within, .string key => some (.colon [] key within)
  | .nextKey members within, .string key => some (.colon members key within)
  | .colon members key within, .colon => some (.value (.object members key :: within))
  | .complete done within, l => stepComplete done within l
  | _, _ => none

def result? : State → Option Json
  | .complete done [] => some done
  | _ => none

end State

def ofLexemes? (ls : List Lexeme) : Option Json :=
  (ls.foldlM State.step (.value [])).bind State.result?

def read? (text : String) : Option Json :=
  (lexemes? text.toList).bind ofLexemes?

end Gatekeeper.Json
