import Gatekeeper.Proofs.Document
import Gatekeeper.Proofs.Expr.Listing
import Gatekeeper.Workflow

/-!
# Compilation, stage by stage

One lemma a stage says when it succeeds and with what. A document is compiled when it is sound,
its parameters can be defined in order, and each rule can be defined by itself; the rules come out
as the images of their declarations.
-/

set_option autoImplicit false

namespace Gatekeeper.Workflow
open Document

theorem visit_eq_ok {check : Check} {e : Expr} :
    check.visit e = .ok () ↔ ∀ node ∈ e.nodes .root, check.inspect node = .ok () := by
  rw [Visitor.visit, walk_eq_forM, forM_eq_ok]

theorem inspect_eq_ok {check : Check} {e : Expr} {place : Place} :
    check.inspect (e, place) = .ok () ↔
      check.onAny e place = .ok () ∧ check.onKind place e = .ok () := by
  rw [Visitor.inspect, bind_eq_ok]
  exact ⟨fun ⟨_, any, kind⟩ => ⟨any, kind⟩, fun ⟨any, kind⟩ => ⟨(), any, kind⟩⟩

theorem checkVariable_eq_ok {visible : List String} {name : String} :
    checkVariable visible name = .ok () ↔ name ∈ visible := by
  unfold checkVariable
  split <;> simp_all [refuse]

theorem define_eq_ok {check : Check} {d : Declaration} {p : Definition} :
    define check d = .ok p ↔ ∃ tree, Expr.parse d.expression = .ok tree ∧
      check.visit tree = .ok () ∧ p = ⟨d.name, d.expression, tree⟩ := by
  simp only [define, bind_eq_ok, pure_eq_ok]
  constructor
  · rintro ⟨tree, read, _, passed, rfl⟩
    exact ⟨tree, read, passed, rfl⟩
  · rintro ⟨tree, read, passed, rfl⟩
    exact ⟨tree, read, (), passed, rfl⟩

theorem defineParams_cons {visible : List String} {p : Declaration} {ps : List Declaration}
    {defs : List Definition} :
    defineParams visible (p :: ps) = .ok defs ↔ ∃ first rest,
      define (paramCheck visible) p = .ok first ∧ defineParams (p.name :: visible) ps = .ok rest ∧
        defs = first :: rest := by
  simp only [defineParams, bind_eq_ok, pure_eq_ok]
  constructor
  · rintro ⟨first, here, rest, after, rfl⟩
    exact ⟨first, rest, here, after, rfl⟩
  · rintro ⟨first, rest, here, after, rfl⟩
    exact ⟨first, here, rest, after, rfl⟩

theorem defineRules_eq_mapM (check : Check) (rs : List Declaration) :
    defineRules check rs = rs.mapM (define check) := by
  induction rs with
  | nil => rfl
  | cons r rs ih => rw [defineRules, List.mapM_cons, ih]

def rulesCheck (d : Document) (builtins : Builtins) : Check :=
  ruleCheck builtins (d.params.map (·.name))

theorem compile_eq_ok {d : Document} {b : Builtins} {w : Workflow} :
    compile d b = .ok w ↔ (HeadSound d ∧ ∀ r ∈ d.rules, RuleSound r) ∧ ∃ params rules,
      defineParams contextVariables d.params = .ok params ∧
        d.rules.mapM (define (rulesCheck d b)) = .ok rules ∧
          w = ⟨d.id, d.name, ⟨d.path⟩, params, rules⟩ := by
  simp only [compile, bind_eq_ok, pure_eq_ok, defineRules_eq_mapM, rulesCheck]
  constructor
  · rintro ⟨_, valid, params, hparams, rules, hrules, rfl⟩
    exact ⟨validate_eq_ok.1 valid, params, rules, hparams, hrules, rfl⟩
  · rintro ⟨sound, params, rules, hparams, hrules, rfl⟩
    exact ⟨(), validate_eq_ok.2 sound, params, hparams, rules, hrules, rfl⟩

def Compiles (d : Document) (b : Builtins) : Prop := ∃ w, compile d b = .ok w

theorem compile_id {d : Document} {b : Builtins} {w : Workflow} (h : compile d b = .ok w) :
    w.id = d.id := by
  obtain ⟨-, params, rules, -, -, rfl⟩ := compile_eq_ok.1 h
  rfl

theorem compile_name {d : Document} {b : Builtins} {w : Workflow} (h : compile d b = .ok w) :
    w.name = d.name := by
  obtain ⟨-, params, rules, -, -, rfl⟩ := compile_eq_ok.1 h
  rfl

theorem defineParams_names {visible : List String} {ps : List Declaration} {defs : List Definition}
    (h : defineParams visible ps = .ok defs) : defs.map (·.name) = ps.map (·.name) := by
  induction ps generalizing visible defs with
  | nil =>
    cases h
    rfl
  | cons p ps ih =>
    obtain ⟨first, rest, here, after, rfl⟩ := defineParams_cons.1 h
    obtain ⟨tree, -, -, rfl⟩ := define_eq_ok.1 here
    simp [ih after]

theorem compile_params_names {d : Document} {b : Builtins} {w : Workflow}
    (h : compile d b = .ok w) : w.params.map (·.name) = d.params.map (·.name) := by
  obtain ⟨-, params, rules, hparams, -, rfl⟩ := compile_eq_ok.1 h
  exact defineParams_names hparams

theorem parse_eq_ok {source : String} {tokens : List Token} {e : Expr}
    (scanned : scan source = ⟨tokens, none⟩) (read : Expr.ofTokens tokens = .ok e) :
    Expr.parse source = .ok e := by
  simp only [Expr.parse, scanned, read]

def teamDocument : Document where
  id := 7
  name := "team area"
  path := "/team/*"
  params := [⟨"team", "$user.team"⟩]
  rules := [⟨"core team", "$team == core"⟩, ⟨"listed", "in(core)"⟩]

def teamWorkflow : Workflow where
  id := 7
  name := "team area"
  pattern := ⟨"/team/*"⟩
  params := [⟨"team", "$user.team", .member (.variable "user") (.identifier "team")⟩]
  rules :=
    [⟨"core team", "$team == core", .comparison .equal (.variable "team") (.identifier "core")⟩,
      ⟨"listed", "in(core)", .call (.identifier "in") [.identifier "core"]⟩]

def guest : DecisionInput := ⟨"GUEST", "10.0.0.1", "/team/1"⟩

theorem team_param : define (paramCheck contextVariables) ⟨"team", "$user.team"⟩ =
    .ok ⟨"team", "$user.team", .member (.variable "user") (.identifier "team")⟩ := by
  have scanned : scan "$user.team" =
      ⟨[⟨.variable, "$user", 0⟩, ⟨.dot, ".", 5⟩, ⟨.identifier, "team", 6⟩], none⟩ := by
    decide +kernel
  exact define_eq_ok.2 ⟨_, parse_eq_ok scanned rfl, rfl, rfl⟩

theorem team_core : define (rulesCheck teamDocument .standard) ⟨"core team", "$team == core"⟩ =
    .ok ⟨"core team", "$team == core",
      .comparison .equal (.variable "team") (.identifier "core")⟩ := by
  have scanned : scan "$team == core" = ⟨[⟨.variable, "$team", 0⟩, ⟨.equality, "==", 6⟩,
      ⟨.identifier, "core", 9⟩], none⟩ := by decide +kernel
  exact define_eq_ok.2 ⟨_, parse_eq_ok scanned rfl, rfl, rfl⟩

theorem team_listed : define (rulesCheck teamDocument .standard) ⟨"listed", "in(core)"⟩ =
    .ok ⟨"listed", "in(core)", .call (.identifier "in") [.identifier "core"]⟩ := by
  have scanned : scan "in(core)" = ⟨[⟨.identifier, "in", 0⟩, ⟨.openParen, "(", 2⟩,
      ⟨.identifier, "core", 3⟩, ⟨.closeParen, ")", 7⟩], none⟩ := by decide +kernel
  exact define_eq_ok.2 ⟨_, parse_eq_ok scanned rfl, rfl, rfl⟩

theorem team_compiles : compile teamDocument .standard = .ok teamWorkflow := by
  have valid : teamDocument.validate = .ok () := by rfl
  refine compile_eq_ok.2 ⟨validate_eq_ok.1 valid, _, _, ?_, ?_, rfl⟩
  · exact defineParams_cons.2 ⟨_, _, team_param, rfl, rfl⟩
  · exact mapM_eq_ok.2 (.cons team_core (.cons team_listed .nil))

end Gatekeeper.Workflow
