import Gatekeeper.Proofs.Expr.Reread
import Gatekeeper.Proofs.Workflow.WellFormed

/-!
# Names

What may be declared and what can be referred to are told apart from each other, a parameter's name
by its characters and a variable by how a text is read. They are the same names, but for those of
the context, which can be referred to and not be declared.
-/

set_option autoImplicit false

namespace Gatekeeper

def Declarable (name : String) : Prop :=
  ∃ d : Document, d.validate = .ok () ∧ ∃ p ∈ d.params, p.name = name

def Document.declaring (name : String) : Document := ⟨1, "policy", "/", [⟨name, "$user"⟩], []⟩

theorem Document.declaring_valid {name : String} (word : isVariableName name = true)
    (free : name ∉ contextVariables) : (declaring name).validate = .ok () := by
  have filled : allBlank "policy" = false ∧ allBlank "/" = false ∧ allBlank "$user" = false := by
    decide
  have param : ParamSound ⟨name, "$user"⟩ := ⟨word, free, filled.2.2⟩
  refine validate_eq_ok.2 ⟨⟨filled.1, filled.2.1, ?_, ?_⟩, nofun⟩
  · exact List.forall_mem_singleton.2 param
  · simp [declaring]

theorem declarable_iff {name : String} :
    Declarable name ↔ isVariableName name = true ∧ name ∉ contextVariables := by
  constructor
  · rintro ⟨d, valid, p, hp, rfl⟩
    obtain ⟨head, -⟩ := Document.validate_eq_ok.1 valid
    exact ⟨(head.params p hp).1, (head.params p hp).2.1⟩
  · rintro ⟨word, free⟩
    exact ⟨_, Document.declaring_valid word free, _, List.mem_singleton_self _, rfl⟩

namespace Grammar
open Gatekeeper.Expr

variable {t : Token} {ts : List Token} {e : Expr} {es : List Expr} {name : String}

theorem variable_spelling : Spelling .variable ('$' :: name.toList) ↔ IsWord name := by
  unfold IsWord
  generalize name.toList = cs
  constructor
  · rintro ⟨⟩
    rename_i c cs first others
    exact ⟨List.cons_ne_nil c cs, List.forall_mem_cons.2 ⟨first, others⟩⟩
  · rintro ⟨nonempty, all⟩
    obtain ⟨c, cs, rfl⟩ := List.exists_cons_of_ne_nil nonempty
    obtain ⟨first, others⟩ := List.forall_mem_cons.1 all
    exact .variable first others

/-! ## Variables in a tree and in its tokens -/

def Names (ts : List Token) (name : String) : Prop :=
  ∃ t ∈ ts, t.kind = .variable ∧ unsigiled t.text = name

theorem Names.mono {ts' : List Token} (names : Names ts name) (within : ts ⊆ ts') :
    Names ts' name := by
  obtain ⟨t, ht, here⟩ := names
  exact ⟨t, within ht, here⟩

theorem Operand.names (here : Operand t e) {start place : Place}
    (h : (.variable name, place) ∈ e.nodes start) : Names [t] name := by
  cases here with
  | «variable» isKind =>
    obtain ⟨rfl, -⟩ : name = unsigiled t.text ∧ place = start := by simpa [nodes] using h
    exact ⟨t, List.mem_singleton_self t, isKind, rfl⟩
  | identifier | number | string => simp [nodes] at h

theorem Path.names (path : Path ts e) {start place : Place}
    (h : (.variable name, place) ∈ e.nodes start) : Names ts name := by
  induction path generalizing start with
  | operand here => exact here.names h
  | step before isDot isName ih =>
    have inner := (List.mem_cons.1 h).resolve_left nofun
    rcases List.mem_append.1 inner with object | property
    · exact (ih object).mono (List.subset_append_left _ _)
    · simp [nodes] at property

theorem Arguments.names (inside : Arguments ts es) {parent : Expr} {index : Nat} {place : Place}
    (h : (.variable name, place) ∈ argumentNodes parent index es) : Names ts name := by
  induction inside generalizing index with
  | last here => exact here.names (by simpa [argumentNodes] using h)
  | @more t comma e ts es here isComma after ih =>
    rcases List.mem_append.1 h with first | later
    · exact (here.names first).mono (by simp)
    · exact (ih later).mono (by simp)

theorem Called.names (called : Called ts e) {start place : Place}
    (h : (.variable name, place) ∈ e.nodes start) : Names ts name := by
  cases called with
  | path path => exact path.names h
  | call before isOpen inside isClose =>
    have inner := (List.mem_cons.1 h).resolve_left nofun
    rcases List.mem_append.1 inner with callee | argument
    · exact (before.names callee).mono (by simp)
    · rcases inside with ⟨rfl, rfl⟩ | inside
      · cases argument
      · exact (inside.names argument).mono fun t ht => by simp [ht]

/-- Every variable of a tree is one of the tokens it stands for. -/
theorem Sentence.names (sentence : Sentence ts e) (h : e.Has (.variable name)) :
    Names ts name := by
  obtain ⟨place, h⟩ := h
  cases sentence with
  | called called => exact called.names h
  | comparison before isSign after =>
    have inner := (List.mem_cons.1 h).resolve_left nofun
    rcases List.mem_append.1 inner with left | right
    · exact (before.names left).mono (by simp)
    · exact (after.names right).mono (by simp)

theorem Names.isWord (names : Names ts name) (spelled : Spelled ts) : IsWord name := by
  obtain ⟨t, ht, isKind, rfl⟩ := names
  have spelling : Spelling .variable t.text.toList := isKind ▸ spelled t ht
  rw [← unsigiled_append spelling] at spelling
  exact variable_spelling.1 spelling

end Grammar

namespace Expr
open Grammar

theorem isWord_of_parse {source name : String} {e : Expr} (read : parse source = .ok e)
    (h : e.Has (.variable name)) : IsWord name := by
  obtain ⟨tokens, scanned, sentence⟩ := parse_eq_ok_iff.1 read
  exact (sentence.names h).isWord (scan_eq_layout.1 scanned).spelling

/-- A word behind the sigil is read as the variable of this name. -/
theorem parse_sigil {name : String} (word : IsWord name) :
    parse ("$" ++ name) = .ok (.variable name) := by
  have text : ("$" ++ name).toList = '$' :: name.toList := by simp
  have spelling : Spelling .variable ("$" ++ name).toList := by
    rw [text]
    exact variable_spelling.2 word
  have unsigil : unsigiled ("$" ++ name) = name := by simp [unsigiled]
  have operand : Operand ⟨.variable, "$" ++ name, 0⟩ (.variable (unsigiled ("$" ++ name))) :=
    .variable rfl
  rw [unsigil] at operand
  exact parse_eq_ok_iff.2 ⟨_, scan_spelling spelling, .called (.path (.operand operand))⟩

end Expr

/-- What may be declared is what can be referred to: a name is accepted as a parameter's exactly if
it is read, behind the sigil, as the variable of this name, and no variable of a tree that is read
from any text has another. So a name can be declared exactly if it can be referred to and is none of
the context's, and every variable of a tree that is read is of the context or can be declared. -/
theorem declarable_referable :
    (∀ name, isVariableName name = true ↔ Expr.parse ("$" ++ name) = .ok (.variable name)) ∧
    (∀ source e name, Expr.parse source = .ok e → e.Has (.variable name) →
      isVariableName name = true) ∧
    (∀ name, Declarable name ↔
      Expr.parse ("$" ++ name) = .ok (.variable name) ∧ name ∉ contextVariables) ∧
    ∀ source e name, Expr.parse source = .ok e → e.Has (.variable name) →
      name ∈ contextVariables ∨ Declarable name := by
  have referable : ∀ name,
      isVariableName name = true ↔ Expr.parse ("$" ++ name) = .ok (.variable name) := by
    intro name
    rw [isVariableName_eq_true]
    exact ⟨Expr.parse_sigil, fun read => Expr.isWord_of_parse read (has_self _)⟩
  have words : ∀ source e name, Expr.parse source = .ok e → e.Has (.variable name) →
      isVariableName name = true :=
    fun source e name read h => isVariableName_eq_true.2 (Expr.isWord_of_parse read h)
  refine ⟨referable, words, fun name => ?_, fun source e name read h => ?_⟩
  · rw [declarable_iff, referable]
  · by_cases context : name ∈ contextVariables
    · exact .inl context
    · exact .inr (declarable_iff.2 ⟨words source e name read h, context⟩)

end Gatekeeper
