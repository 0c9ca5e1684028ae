import Gatekeeper.Document
import Gatekeeper.Proofs.Outcome

/-!
# Sound documents

When the structural checks find no fault, said of the declarations as a set: the order in which
they are looked at and their numbers count only for which fault is reported.
-/

set_option autoImplicit false

namespace Gatekeeper.Document

def ParamSound (p : Declaration) : Prop :=
  isVariableName p.name = true ∧ p.name ∉ contextVariables ∧ allBlank p.expression = false

def RuleSound (r : Declaration) : Prop :=
  allBlank r.name = false ∧ allBlank r.expression = false

theorem paramFault?_eq_none {earlier : List String} {index : Nat} {ps : List Declaration} :
    paramFault? earlier index ps = none ↔
      (∀ p ∈ ps, ParamSound p ∧ p.name ∉ earlier) ∧ (ps.map (·.name)).Nodup := by
  induction ps generalizing earlier index with
  | nil => simp [paramFault?]
  | cons p ps ih =>
    unfold paramFault?
    split_ifs with badName shadowing repeated blank
    · simp_all [ParamSound]
    · simp_all [ParamSound]
    · simp_all
    · simp_all [ParamSound]
    · have here : ParamSound p ∧ p.name ∉ earlier := by simp_all [ParamSound]
      rw [ih, List.forall_mem_cons, List.map_cons, List.nodup_cons]
      constructor
      · rintro ⟨sound, distinct⟩
        have fresh : p.name ∉ ps.map (·.name) := by
          intro h
          obtain ⟨q, hq, same⟩ := List.mem_map.1 h
          exact (sound q hq).2 (by simp [same])
        exact ⟨⟨here, fun q hq => ⟨(sound q hq).1, fun h => (sound q hq).2 (by simp [h])⟩⟩,
          fresh, distinct⟩
      · rintro ⟨⟨-, sound⟩, fresh, distinct⟩
        have unused : ∀ q ∈ ps, q.name ∉ p.name :: earlier := by
          intro q hq h
          rcases List.mem_cons.1 h with same | h
          · exact fresh (same ▸ List.mem_map_of_mem hq)
          · exact (sound q hq).2 h
        exact ⟨fun q hq => ⟨(sound q hq).1, unused q hq⟩, distinct⟩

theorem ruleFault?_eq_none {index : Nat} {rs : List Declaration} :
    ruleFault? index rs = none ↔ ∀ r ∈ rs, RuleSound r := by
  induction rs generalizing index with
  | nil => simp [ruleFault?]
  | cons r rs ih =>
    unfold ruleFault?
    split_ifs with blankName blank
    · simp [RuleSound, blankName]
    · simp [RuleSound, blank]
    · simp [RuleSound, blankName, blank, ih]

structure HeadSound (d : Document) : Prop where
  name : allBlank d.name = false
  path : allBlank d.path = false
  params : ∀ p ∈ d.params, ParamSound p
  distinct : (d.params.map (·.name)).Nodup

theorem validate_eq_ok {d : Document} :
    d.validate = .ok () ↔ HeadSound d ∧ ∀ r ∈ d.rules, RuleSound r := by
  have faultless : d.validate = .ok () ↔ d.fault? = none := by
    unfold validate
    split <;> simp [*]
  rw [faultless]
  unfold fault?
  split_ifs with blankName blankPath
  · exact ⟨nofun, fun h => absurd h.1.name (by simp [blankName])⟩
  · exact ⟨nofun, fun h => absurd h.1.path (by simp [blankPath])⟩
  · rw [Option.or_eq_none_iff, paramFault?_eq_none, ruleFault?_eq_none]
    constructor
    · rintro ⟨⟨sound, distinct⟩, rules⟩
      exact ⟨⟨by simpa using blankName, by simpa using blankPath, fun p hp => (sound p hp).1,
        distinct⟩, rules⟩
    · rintro ⟨head, rules⟩
      exact ⟨⟨fun p hp => ⟨head.params p hp, by simp⟩, head.distinct⟩, rules⟩

end Gatekeeper.Document
