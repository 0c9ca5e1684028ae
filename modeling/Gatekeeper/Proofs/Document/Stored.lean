import Gatekeeper.Document.Stored
import Gatekeeper.Proofs.Json

/-!
# Stored documents are read back

What is written for a document is read as that document, whatever its texts hold and however many
parameters and rules it has.
-/

set_option autoImplicit false

namespace Gatekeeper.Document
open Json

theorem keyed?_keyed (members : List (String × Json)) : keyed? (keyed members) = some members := by
  induction members with
  | nil => rfl
  | cons m members ih =>
    show (keyed? (keyed members)).map (m :: ·) = _
    rw [ih, Option.map_some]

theorem fields?_ofMembers (names : List String) (members : List (String × Json)) :
    fields? names (ofMembers members) = names.mapM fun name => only? name members := by
  show (keyed? (keyed members)).bind _ = _
  rw [keyed?_keyed, Option.bind_some]

/-- The two fields of a declaration are told apart by their names. -/
theorem declaration?_declarationJson {nameField : String} (other : nameField ≠ expressionField)
    (d : Declaration) : declaration? nameField (declarationJson nameField d) = some d := by
  have fields : fields? [nameField, expressionField] (declarationJson nameField d) =
      some [some (ofText d.name), some (ofText d.expression)] := by
    rw [declarationJson, fields?_ofMembers]
    simp [only?, other, Ne.symm other]
  rw [declaration?, fields]
  rfl

theorem declarations?_array {nameField : String} (other : nameField ≠ expressionField)
    (ds : List Declaration) :
    declarations? nameField (some (.array (ds.map (declarationJson nameField)))) = some ds := by
  show (ds.map (declarationJson nameField)).mapM (declaration? nameField) = some ds
  induction ds with
  | nil => rfl
  | cons d ds ih =>
    rw [List.map_cons, List.mapM_cons, declaration?_declarationJson other, ih]
    rfl

theorem word?_ofNat (id : UInt64) : word? (ofNat id.toNat) = some id := by
  have small : id.toNat < UInt64.size := id.toNat_lt
  rw [word?, nat?_ofNat]
  simp [small]

theorem ofJson?_toJson (d : Document) : ofJson? d.toJson = some d := by
  have fields : fields? [idField, nameField, pathField, paramsField, rulesField] d.toJson =
      some [some (ofNat d.id.toNat), some (ofText d.name), some (ofText d.path),
        some (.array (d.params.map (declarationJson paramNameField))),
        some (.array (d.rules.map (declarationJson ruleNameField)))] := by
    rw [toJson, fields?_ofMembers]
    rfl
  have params := declarations?_array (by decide : paramNameField ≠ expressionField) d.params
  have rules := declarations?_array (by decide : ruleNameField ≠ expressionField) d.rules
  rw [ofJson?, fields]
  simp [word?_ofNat, params, rules, ofText, text?]

theorem declarationJson_proper (nameField : String) (d : Declaration) :
    (declarationJson nameField d).Proper := by
  refine .object fun m hm => ?_
  simp only [List.mem_cons, List.not_mem_nil, or_false] at hm
  rcases hm with rfl | rfl
  · exact .string d.name
  · exact .string d.expression

theorem toJson_proper (d : Document) : d.toJson.Proper := by
  have declarations : ∀ nameField (ds : List Declaration),
      (Json.array (ds.map (declarationJson nameField))).Proper := by
    intro nameField ds
    refine .array fun e he => ?_
    obtain ⟨d, -, rfl⟩ := List.mem_map.1 he
    exact declarationJson_proper nameField d
  refine .object fun m hm => ?_
  simp only [List.mem_cons, List.not_mem_nil, or_false] at hm
  rcases hm with rfl | rfl | rfl | rfl | rfl
  · exact .number (isNumber_toString _)
  · exact .string d.name
  · exact .string d.path
  · exact declarations _ d.params
  · exact declarations _ d.rules

/-- An object of the first three fields has no parameters and no rules. -/
theorem ofJson?_without_lists (d : Document) :
    ofJson? (.ofMembers [(idField, .ofNat d.id.toNat), (nameField, .ofText d.name),
      (pathField, .ofText d.path)]) = some { d with params := [], rules := [] } := by
  have fields : fields? [idField, nameField, pathField, paramsField, rulesField]
      (.ofMembers [(idField, .ofNat d.id.toNat), (nameField, .ofText d.name),
        (pathField, .ofText d.path)]) =
      some [some (ofNat d.id.toNat), some (ofText d.name), some (ofText d.path), none, none] := by
    rw [fields?_ofMembers]
    rfl
  rw [ofJson?, fields]
  simp [word?_ofNat, declarations?, ofText, text?]

/-- Every document is read back from what is written for it. That is an object of the five fields in
order, and where the two lists are left out of it they are read as empty. -/
theorem read_write (d : Document) :
    read d.write = .ok d ∧
    Json.read? d.write = some (.ofMembers [
      ("WorkflowID", .ofNat d.id.toNat),
      ("WorkflowName", .ofText d.name),
      ("Path", .ofText d.path),
      ("Params", .array (d.params.map fun p =>
        .ofMembers [("Name", .ofText p.name), ("Expression", .ofText p.expression)])),
      ("Rules", .array (d.rules.map fun r =>
        .ofMembers [("RuleName", .ofText r.name), ("Expression", .ofText r.expression)]))]) ∧
    ∀ text, Json.read? text = some (.ofMembers [
      ("WorkflowID", .ofNat d.id.toNat),
      ("WorkflowName", .ofText d.name),
      ("Path", .ofText d.path)]) →
      read text = .ok { d with params := [], rules := [] } := by
  have tree : Json.read? d.write = some d.toJson := read?_write (toJson_proper d)
  refine ⟨?_, tree, fun text short => ?_⟩
  · rw [Document.read, tree, Option.bind_some, ofJson?_toJson]
  · have brief := ofJson?_without_lists d
    rw [Document.read, short, Option.bind_some]
    simp only [idField, nameField, pathField] at brief
    rw [brief]

end Gatekeeper.Document
