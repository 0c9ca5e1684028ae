import Gatekeeper.Document
import Gatekeeper.Json.Read
import Gatekeeper.Json.Write

/-!
# Stored documents

A document is stored as a JSON object with one member a field. Reading takes the members in any
order, passes unknown ones by and refuses a known one that is repeated; the lists of parameters and
rules may be left out, but not be null. Every object may also be an array of its fields in order.
-/

set_option autoImplicit false

namespace Gatekeeper.Document

def idField : String := "WorkflowID"

def nameField : String := "WorkflowName"

def pathField : String := "Path"

def paramsField : String := "Params"

def rulesField : String := "Rules"

def paramNameField : String := "Name"

def ruleNameField : String := "RuleName"

def expressionField : String := "Expression"

def keyed? : List (Option String × Json) → Option (List (String × Json))
  | [] => some []
  | (none, _) :: _ => none
  | (some key, value) :: rest => (keyed? rest).map ((key, value) :: ·)

def only? (key : String) (members : List (String × Json)) : Option (Option Json) :=
  match members.filter (fun m => m.1 == key) with
  | [] => some none
  | [m] => some (some m.2)
  | _ => none

def fields? (names : List String) : Json → Option (List (Option Json))
  | .object members => do
    let members ← keyed? members
    names.mapM (fun name => only? name members)
  | .array elements =>
    -- An array may end early; the fields behind its end are left out.
    if names.length < elements.length then none
    else some (elements.map some ++ List.replicate (names.length - elements.length) none)
  | _ => none

def word? (j : Json) : Option UInt64 := do
  let n ← j.nat?
  if n < UInt64.size then some (UInt64.ofNat n) else none

def declaration? (nameField : String) (j : Json) : Option Declaration := do
  match ← fields? [nameField, expressionField] j with
  | [some name, some expression] => return ⟨← name.text?, ← expression.text?⟩
  | _ => none

def declarations? (nameField : String) : Option Json → Option (List Declaration)
  | none => some []
  | some (.array elements) => elements.mapM (declaration? nameField)
  | some _ => none

def ofJson? (j : Json) : Option Document := do
  match ← fields? [idField, nameField, pathField, paramsField, rulesField] j with
  | [some id, some name, some path, params, rules] =>
    return {
      id := ← word? id
      name := ← name.text?
      path := ← path.text?
      params := ← declarations? paramNameField params
      rules := ← declarations? ruleNameField rules }
  | _ => none

def declarationJson (nameField : String) (d : Declaration) : Json :=
  .ofMembers [(nameField, .ofText d.name), (expressionField, .ofText d.expression)]

def toJson (d : Document) : Json :=
  .ofMembers [
    (idField, .ofNat d.id.toNat),
    (nameField, .ofText d.name),
    (pathField, .ofText d.path),
    (paramsField, .array (d.params.map (declarationJson paramNameField))),
    (rulesField, .array (d.rules.map (declarationJson ruleNameField)))]

def read (text : String) : Except Error Document :=
  match (Json.read? text).bind ofJson? with
  | some d => .ok d
  | none => .error .undecodable

def write (d : Document) : String := d.toJson.write

end Gatekeeper.Document
