import Mathlib.Data.List.Nodup
import Gatekeeper.Proofs.Eval.Renaming
import Gatekeeper.Proofs.Token.Layout
import Gatekeeper.Proofs.Workflow.Lockstep
import Gatekeeper.Proofs.Workflow.Order

/-!
# Parameters under other names

The parameters of a document are bound variables: give them other names and rename the variables in
its expressions, and it still compiles and decides as before. The new names may be those of builtin
functions, of members or of words that the expressions use, for a parameter hides none of these.
-/

set_option autoImplicit false

namespace Gatekeeper

structure Declaration.Renamed (ν τ : String → String) (p p' : Declaration) : Prop where
  name : p'.name = ν p.name
  tree : ∀ tree, Expr.parse p.expression = .ok tree → Expr.parse p'.expression = .ok (tree.rename τ)

structure Definition.Renamed (ν τ : String → String) (p p' : Definition) : Prop where
  name : p'.name = ν p.name
  tree : p'.tree = p.tree.rename τ

/-- New names for the parameters: valid ones, no two the same. Those of the context stay. -/
structure Document.NewNames (d : Document) (τ : String → String) : Prop where
  valid : ∀ p ∈ d.params, isVariableName (τ p.name) = true
  unshadowed : ∀ p ∈ d.params, τ p.name ∉ contextVariables
  distinct : Set.InjOn τ {name | name ∈ d.params.map (·.name)}
  context : ∀ name ∈ contextVariables, τ name = name

structure Document.Renamed (τ : String → String) (d d' : Document) : Prop where
  id : d'.id = d.id
  name : d'.name = d.name
  path : d'.path = d.path
  params : List.Forall₂ (Declaration.Renamed τ τ) d.params d'.params
  rules : List.Forall₂ (Declaration.Renamed (fun name => name) τ) d.rules d'.rules

structure Workflow.Renamed (τ : String → String) (w w' : Workflow) : Prop where
  pattern : w'.pattern = w.pattern
  params : List.Forall₂ (Definition.Renamed τ τ) w.params w'.params
  rules : List.Forall₂ (Definition.Renamed (fun name => name) τ) w.rules w'.rules

variable {b : Builtins} {τ ν : String → String} {e : Expr} {scope : List String}
variable {env env' : Environment}

theorem Renames.bind (h : Renames τ scope env env') (distinct : Set.InjOn τ {name | name ∈ scope})
    {name : String} (inScope : name ∈ scope) (v : Value) :
    Renames τ scope (env.bind name v) (env'.bind (τ name) v) where
  host := h.host
  builtins := h.builtins
  input := h.input
  bindings other inside := by
    rw [get?_bind, get?_bind]
    by_cases same : name = other
    · rw [if_pos same, if_pos (congrArg τ same)]
    · have apart : τ name ≠ τ other := fun equal => same (distinct inScope inside equal)
      rw [if_neg same, if_neg apart, h.bindings other inside]

/-! ## Compilation -/

theorem parse_filled {source : String} {tree : Expr} (read : Expr.parse source = .ok tree) :
    allBlank source = false := by
  by_contra blank
  have blanks : ∀ c ∈ source.toList, isBlank c = true := by
    simpa [allBlank] using blank
  have scanned : scan source = ⟨[], none⟩ := scan_eq_layout.2 (.blanks blanks)
  rw [Expr.parse, scanned] at read
  cases read

theorem Reference.rename {visible : List String} (h : Reference visible e) :
    Reference (visible.map τ) (e.rename τ) := by
  induction h with
  | «variable» isVisible => exact .variable (List.mem_map_of_mem isVisible)
  | identifier name => exact .identifier name
  | member key inner ih => exact .member key ih

theorem Grounded.rename {declared : List String} (h : Grounded b declared e) :
    Grounded b (declared.map τ) (e.rename τ) where
  scope name place hn := by
    obtain ⟨part, ⟨place, has⟩, renamed⟩ := has_rename ⟨place, hn⟩
    obtain ⟨old, rfl, rfl⟩ := rename_eq_variable.1 renamed
    exact List.mem_map_of_mem (h.scope old place has)
  callees callee arguments place hn := by
    obtain ⟨part, ⟨place, has⟩, renamed⟩ := has_rename ⟨place, hn⟩
    obtain ⟨f, es, rfl, rfl, rfl⟩ := rename_eq_call.1 renamed
    obtain ⟨name, f, rfl, found⟩ := h.callees _ _ place has
    exact ⟨name, f, rfl, found⟩

theorem map_names_renamed {ps ps' : List Declaration}
    (renamed : List.Forall₂ (Declaration.Renamed τ τ) ps ps') :
    ps'.map (·.name) = (ps.map (·.name)).map τ := by
  induction renamed with
  | nil => rfl
  | cons here _ ih => rw [List.map_cons, List.map_cons, List.map_cons, here.name, ih]

namespace Workflow
open Document Grammar

theorem define_rename {check check' : Check} {p p' : Declaration} {q : Definition}
    (passes : ∀ tree ts ts', Sentence ts tree → Sentence ts' (tree.rename τ) →
      check.visit tree = .ok () → check'.visit (tree.rename τ) = .ok ())
    (renamed : p.Renamed ν τ p') (h : define check p = .ok q) :
    ∃ q', define check' p' = .ok q' ∧ q.Renamed ν τ q' := by
  obtain ⟨tree, read, passed, rfl⟩ := define_eq_ok.1 h
  have read' := renamed.tree tree read
  have passed' := passes tree _ _ (parse_sound read).2 (parse_sound read').2 passed
  exact ⟨_, define_eq_ok.2 ⟨_, read', passed', rfl⟩, renamed.name, rfl⟩

theorem defineParams_rename {visible : List String} {ps ps' : List Declaration}
    {defs : List Definition} (renamed : List.Forall₂ (Declaration.Renamed τ τ) ps ps')
    (h : defineParams visible ps = .ok defs) :
    ∃ defs', defineParams (visible.map τ) ps' = .ok defs' ∧
      List.Forall₂ (Definition.Renamed τ τ) defs defs' := by
  induction renamed generalizing visible defs with
  | nil =>
    cases h
    exact ⟨[], rfl, .nil⟩
  | cons here later ih =>
    obtain ⟨first, rest, defined, after, rfl⟩ := defineParams_cons.1 h
    have passes : ∀ tree ts ts', Sentence ts tree → Sentence ts' (tree.rename τ) →
        (paramCheck visible).visit tree = .ok () →
          (paramCheck (visible.map τ)).visit (tree.rename τ) = .ok () := by
      intro tree ts ts' sentence sentence' passed
      exact (paramCheck_eq_ok sentence').2 ((paramCheck_eq_ok sentence).1 passed).rename
    obtain ⟨first', defined', same⟩ := define_rename passes here defined
    obtain ⟨rest', after', others⟩ := ih after
    rw [List.map_cons, ← here.name] at after'
    exact ⟨_, defineParams_cons.2 ⟨first', rest', defined', after', rfl⟩, .cons same others⟩

theorem defineRules_rename {declared : List String} {rs rs' : List Declaration}
    {defs : List Definition}
    (renamed : List.Forall₂ (Declaration.Renamed (fun name => name) τ) rs rs')
    (h : rs.mapM (define (ruleCheck b declared)) = .ok defs) :
    ∃ defs', rs'.mapM (define (ruleCheck b (declared.map τ))) = .ok defs' ∧
      List.Forall₂ (Definition.Renamed (fun name => name) τ) defs defs' := by
  simp only [mapM_eq_ok] at h ⊢
  induction renamed generalizing defs with
  | nil =>
    cases h
    exact ⟨[], .nil, .nil⟩
  | cons here later ih =>
    obtain ⟨first, rest, defined, after, rfl⟩ := List.forall₂_cons_left_iff.1 h
    have passes : ∀ tree (ts ts' : List Token), Sentence ts tree →
        Sentence ts' (tree.rename τ) → (ruleCheck b declared).visit tree = .ok () →
          (ruleCheck b (declared.map τ)).visit (tree.rename τ) = .ok () := by
      intro tree ts ts' _ _ passed
      exact ruleCheck_eq_ok.2 (ruleCheck_eq_ok.1 passed).rename
    obtain ⟨first', defined', same⟩ := define_rename passes here defined
    obtain ⟨rest', after', others⟩ := ih after
    exact ⟨first' :: rest', .cons defined' after', .cons same others⟩

variable {d d' : Document} {w w' : Workflow}

theorem compile_reads (compiled : compile d b = .ok w) :
    ∀ x, x ∈ d.params ∨ x ∈ d.rules → ∃ tree, Expr.parse x.expression = .ok tree := by
  intro x hx
  obtain ⟨q, -, -, -, read⟩ := (compile_carries compiled).definition hx
  exact ⟨q.tree, read⟩

theorem headSound_rename (sound : HeadSound d) (names : d.NewNames τ) (renamed : d.Renamed τ d')
    (reads : ∀ p ∈ d.params, ∃ tree, Expr.parse p.expression = .ok tree) : HeadSound d' where
  name := renamed.name ▸ sound.name
  path := renamed.path ▸ sound.path
  params p' hp' := by
    obtain ⟨p, hp, here⟩ := of_forall₂_right renamed.params hp'
    obtain ⟨tree, read⟩ := reads p hp
    rw [ParamSound, here.name]
    exact ⟨names.valid p hp, names.unshadowed p hp, parse_filled (here.tree tree read)⟩
  distinct := by
    rw [map_names_renamed renamed.params]
    exact sound.distinct.map_on fun x hx y hy same => names.distinct hx hy same

theorem ruleSound_rename (sound : ∀ r ∈ d.rules, RuleSound r) (renamed : d.Renamed τ d')
    (reads : ∀ r ∈ d.rules, ∃ tree, Expr.parse r.expression = .ok tree) :
    ∀ r ∈ d'.rules, RuleSound r := by
  intro r' hr'
  obtain ⟨r, hr, here⟩ := of_forall₂_right renamed.rules hr'
  obtain ⟨tree, read⟩ := reads r hr
  rw [RuleSound, here.name]
  exact ⟨(sound r hr).1, parse_filled (here.tree tree read)⟩

theorem compile_rename (compiled : compile d b = .ok w) (names : d.NewNames τ)
    (renamed : d.Renamed τ d') : ∃ w', compile d' b = .ok w' ∧ w.Renamed τ w' := by
  have reads := compile_reads compiled
  obtain ⟨⟨head, each⟩, params, rules, hparams, hrules, rfl⟩ := compile_eq_ok.1 compiled
  have head' := headSound_rename head names renamed fun p hp => reads p (.inl hp)
  have each' := ruleSound_rename each renamed fun r hr => reads r (.inr hr)
  obtain ⟨params', hparams', renamedParams⟩ := defineParams_rename renamed.params hparams
  obtain ⟨rules', hrules', renamedRules⟩ := defineRules_rename renamed.rules hrules
  rw [List.map_congr_left names.context, List.map_id'] at hparams'
  rw [← map_names_renamed renamed.params] at hrules'
  refine ⟨_, compile_eq_ok.2 ⟨⟨head', each'⟩, params', rules', hparams', hrules', rfl⟩, ?_⟩
  exact ⟨congrArg PathPattern.mk renamed.path, renamedParams, renamedRules⟩

/-! ## Decisions -/

theorem renamed_sameIn {q q' : Definition} (renamed : q.Renamed ν τ q')
    (within : Within scope q.tree) : SameIn (Renames τ scope) q q' := by
  intro env env' related
  rw [renamed.tree]
  exact evaluate_rename related within

theorem renamed_boundIn {p p' : Definition} (renamed : p.Renamed τ τ p')
    (distinct : Set.InjOn τ {name | name ∈ scope}) (declared : p.name ∈ scope)
    (within : Within scope p.tree) : BoundIn (Renames τ scope) p p' where
  same := renamed_sameIn renamed within
  kept env env' v related _ := by
    rw [renamed.name]
    exact related.bind distinct declared v

def scopeOf (w : Workflow) : List String := contextVariables ++ w.params.map (·.name)

theorem forDecision_renames (distinct : Set.InjOn τ {name | name ∈ w.scopeOf})
    (context : ∀ name ∈ contextVariables, τ name = name) (host : Host) (input : DecisionInput) :
    Renames τ w.scopeOf (.forDecision host b input) (.forDecision host b input) := by
  have inScope : ∀ name ∈ contextVariables, name ∈ w.scopeOf :=
    fun name hn => List.mem_append_left _ hn
  have blank : Renames τ w.scopeOf { Environment.blank host b with input }
      { Environment.blank host b with input } := ⟨rfl, rfl, rfl, fun _ _ => rfl⟩
  have user : userVariable ∈ contextVariables := by decide
  have request : requestVariable ∈ contextVariables := by decide
  have bound := (blank.bind distinct (inScope _ user) (.object .user)).bind distinct
    (inScope _ request) (.object .request)
  rwa [context _ user, context _ request] at bound

/-- Under the new names a workflow runs in lockstep with itself. -/
theorem renamed_lockstep (distinct : Set.InjOn τ {name | name ∈ w.scopeOf})
    (renamed : w.Renamed τ w')
    (inScope : ∀ q, q ∈ w.params ∨ q ∈ w.rules → Within w.scopeOf q.tree) :
    Lockstep (Renames τ w.scopeOf) w w' where
  pattern := renamed.pattern
  params := by
    refine forall₂_imp_of_mem renamed.params fun p hp p' here => ?_
    have declared : p.name ∈ w.scopeOf := List.mem_append_right _ (List.mem_map_of_mem hp)
    exact renamed_boundIn here distinct declared (inScope p (.inl hp))
  rules := forall₂_imp_of_mem renamed.rules fun r hr r' here =>
    renamed_sameIn here (inScope r (.inr hr))

theorem decide_rename (distinct : Set.InjOn τ {name | name ∈ w.scopeOf})
    (context : ∀ name ∈ contextVariables, τ name = name) (renamed : w.Renamed τ w')
    (inScope : ∀ q, q ∈ w.params ∨ q ∈ w.rules → Within w.scopeOf q.tree) (host : Host)
    (fold : RuleFold) (input : DecisionInput) :
    SameValue (w.decide host b fold input) (w'.decide host b fold input) :=
  (renamed_lockstep distinct renamed inScope).decide
    (forDecision_renames distinct context host input)

theorem compile_within (compiled : compile d b = .ok w) :
    ∀ q, q ∈ w.params ∨ q ∈ w.rules → Within w.scopeOf q.tree := by
  obtain ⟨params, rules⟩ := compile_admitted compiled
  rintro q (hq | hq) name mentioned
  · obtain ⟨before, after, split⟩ := List.append_of_mem hq
    have early := (params before q after split).of_mentions mentioned
    rw [scopeOf, split, List.map_append]
    exact List.mem_append.2 ((List.mem_append.1 early).imp_right (List.mem_append_left _))
  · exact List.mem_append_right _ ((rules q hq).of_mentions mentioned)

/-- The new names do not run into those of the context either. -/
theorem scope_distinct (names : d.NewNames τ) (compiled : compile d b = .ok w) :
    Set.InjOn τ {name | name ∈ w.scopeOf} := by
  have moved : ∀ name ∈ w.params.map (·.name), τ name ∉ contextVariables := by
    intro name declared
    rw [compile_params_names compiled] at declared
    obtain ⟨p, hp, rfl⟩ := List.mem_map.1 declared
    exact names.unshadowed p hp
  rintro x hx y hy same
  rcases List.mem_append.1 hx with hx | hx <;> rcases List.mem_append.1 hy with hy | hy
  · rw [← names.context x hx, same, names.context y hy]
  · rw [names.context x hx] at same
    exact absurd (same ▸ hx) (moved y hy)
  · rw [names.context y hy] at same
    exact absurd (same ▸ hy) (moved x hx)
  · rw [compile_params_names compiled] at hx hy
    exact names.distinct hx hy same

/-- Parameters are bound variables. Under new names for them a document compiles as it does under
the old ones, and on every input its decision is the same, or is an error in both. -/
theorem param_names_irrelevant (compiled : compile d b = .ok w) (names : d.NewNames τ)
    (renamed : d.Renamed τ d') :
    ∃ w', compile d' b = .ok w' ∧ ∀ host fold input,
      (∃ allowed, w.decide host b fold input = .ok allowed ∧
        w'.decide host b fold input = .ok allowed) ∨
      ∃ e e', w.decide host b fold input = .error e ∧ w'.decide host b fold input = .error e' := by
  obtain ⟨w', compiled', renamed'⟩ := compile_rename compiled names renamed
  refine ⟨w', compiled', fun host fold input => ok_or_errors ?_⟩
  exact decide_rename (scope_distinct names compiled) names.context renamed'
    (compile_within compiled) host fold input

def clashing (name : String) : String :=
  if name = "who" then "in" else if name = "area" then "path" else if name = "role" then "STAFF"
  else name

def clashDocument : Document :=
  { deskDocument with
    params := [⟨"in", "$user"⟩, ⟨"path", "$request.path"⟩, ⟨"STAFF", "$in.getRole"⟩]
    rules := [⟨"staff", "in($STAFF, STAFF, OWNER)"⟩, ⟨"not the safe", "$path != '/desk/safe'"⟩] }

theorem clash_names : deskDocument.NewNames clashing where
  valid := by decide
  unshadowed := by decide
  distinct := by
    intro x hx y hy
    simp only [deskDocument, List.map_cons, List.map_nil, Set.mem_ofPred_eq, List.mem_cons,
      List.not_mem_nil, or_false] at hx hy
    rcases hx with rfl | rfl | rfl <;> rcases hy with rfl | rfl | rfl <;> decide
  context := by decide

theorem renamed_of_parse {p p' : Declaration} {tree : Expr} (name : p'.name = ν p.name)
    (read : Expr.parse p.expression = .ok tree)
    (read' : Expr.parse p'.expression = .ok (tree.rename τ)) : p.Renamed ν τ p' where
  name := name
  tree other := by
    rw [read, read']
    rintro ⟨⟩
    rfl

theorem parse_in_role : Expr.parse "$in.getRole" =
    .ok (.member (.variable "in") (.identifier "getRole")) := by
  have scanned : scan "$in.getRole" =
      ⟨[⟨.variable, "$in", 0⟩, ⟨.dot, ".", 3⟩, ⟨.identifier, "getRole", 4⟩], none⟩ := by
    decide +kernel
  exact parse_eq_ok scanned rfl

theorem parse_in_staff : Expr.parse "in($STAFF, STAFF, OWNER)" =
    .ok (.call (.identifier "in")
      [.variable "STAFF", .identifier "STAFF", .identifier "OWNER"]) := by
  have scanned : scan "in($STAFF, STAFF, OWNER)" =
      ⟨[⟨.identifier, "in", 0⟩, ⟨.openParen, "(", 2⟩, ⟨.variable, "$STAFF", 3⟩, ⟨.comma, ",", 9⟩,
        ⟨.identifier, "STAFF", 11⟩, ⟨.comma, ",", 16⟩, ⟨.identifier, "OWNER", 18⟩,
        ⟨.closeParen, ")", 23⟩], none⟩ := by
    decide +kernel
  exact parse_eq_ok scanned rfl

theorem parse_path_safe : Expr.parse "$path != '/desk/safe'" =
    .ok (.comparison .unequal (.variable "path") (.string "/desk/safe")) := by
  have scanned : scan "$path != '/desk/safe'" =
      ⟨[⟨.variable, "$path", 0⟩, ⟨.inequality, "!=", 6⟩, ⟨.string, "'/desk/safe'", 9⟩], none⟩ := by
    decide +kernel
  exact parse_eq_ok scanned rfl

theorem clash_renamed : deskDocument.Renamed clashing clashDocument where
  id := rfl
  name := rfl
  path := rfl
  params :=
    .cons (renamed_of_parse rfl parse_user parse_user)
      (.cons (renamed_of_parse rfl parse_area parse_area)
        (.cons (renamed_of_parse rfl parse_role parse_in_role) .nil))
  rules :=
    .cons (renamed_of_parse rfl parse_staff parse_in_staff)
      (.cons (renamed_of_parse rfl parse_safe parse_path_safe) .nil)

/-- Under the clashing names the desk is open to staff as before. -/
theorem param_names_irrelevant_desk :
    ∃ w', compile clashDocument .standard = .ok w' ∧
      w'.decide .bare .standard .strict staffer = .ok true := by
  have answer : deskWorkflow.decide .bare .standard .strict staffer = .ok true := by cbv
  obtain ⟨w', compiled', decides⟩ := param_names_irrelevant desk_compiles clash_names clash_renamed
  refine ⟨w', compiled', ?_⟩
  rcases decides .bare .strict staffer with ⟨allowed, before, after⟩ | ⟨e, e', failed, -⟩
  · rw [answer] at before
    cases before
    exact after
  · rw [answer] at failed
    cases failed

end Workflow

end Gatekeeper
