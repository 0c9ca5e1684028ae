import Gatekeeper.Proofs.Workflow.Order

/-!
# What resolving parameters leaves bound

A run over the parameters binds each name once and takes nothing back, so what it leaves is settled:
the context as it was, the parameters that the run got through, and each of them at the value that
its tree still has. That holds where the run ends as well as where it breaks. Over what it leaves, a
whole run changes nothing.
-/

set_option autoImplicit false

namespace Gatekeeper.Workflow

variable {b : Builtins} {bound : List String} {env final stuck : Environment}
  {ps before after : List Definition} {p : Definition} {e : Error}

/-- The context and the parameters are bound and nothing else is, the context to the two objects of
a decision and each parameter to the value of its own tree in this very environment. -/
structure Settled (ps : List Definition) (env : Environment) : Prop where
  names : ∀ name, env.bindings.contains name = true ↔
    name = "user" ∨ name = "request" ∨ ∃ p ∈ ps, p.name = name
  user : env.bindings.get? "user" = some (.object .user)
  request : env.bindings.get? "request" = some (.object .request)
  values : ∀ p ∈ ps, ∃ v, env.bindings.get? p.name = some v ∧ evaluate env p.tree = .ok v

theorem forDecision_get? (host : Host) (b : Builtins) (input : DecisionInput) (name : String) :
    (Environment.forDecision host b input).bindings.get? name =
      if "request" = name then some (.object .request)
      else if "user" = name then some (.object .user) else none := by
  show ((NameMap.empty.insert userVariable (Value.object .user)).insert requestVariable
    (Value.object .request)).get? name = _
  rw [NameMap.get?_insert, NameMap.get?_insert, NameMap.get?_empty]
  rfl

theorem Arranged.of_append (h : Arranged b bound (before ++ p :: after)) :
    Arranged b bound before where
  scope := h.scope.of_append
  distinct := by
    have whole : (bound ++ before.map (·.name) ++ (p :: after).map (·.name)).Nodup := by
      simpa using h.distinct
    exact (List.nodup_append.1 whole).1

/-- A solution that starts from the context alone is settled. -/
theorem Solves.settled {host : Host} {b' : Builtins} {input : DecisionInput}
    (arranged : Arranged b contextVariables ps)
    (solves : Solves (.forDecision host b' input) ps env) : Settled ps env where
  names name := by
    rw [NameMap.contains, Option.isSome_iff_exists]
    by_cases declared : name ∈ ps.map (·.name)
    · obtain ⟨p, hp, rfl⟩ := List.mem_map.1 declared
      obtain ⟨v, here, -⟩ := solves.value p hp
      exact iff_of_true ⟨v, here⟩ (.inr (.inr ⟨p, hp, rfl⟩))
    · have others : ¬ ∃ p ∈ ps, p.name = name := by
        rintro ⟨p, hp, same⟩
        exact declared (List.mem_map.2 ⟨p, hp, same⟩)
      rw [solves.rest name declared, forDecision_get?, or_iff_left others]
      by_cases request : "request" = name <;> by_cases user : "user" = name <;>
        simp [request, user, @eq_comm _ name]
  user := by
    rw [solves.rest "user" (arranged.unused (by decide)), forDecision_get?]
    rfl
  request := by
    rw [solves.rest "request" (arranged.unused (by decide)), forDecision_get?]
    rfl
  values := solves.value

/-- What a run has left solves the same parameters again, with nothing left to change. -/
theorem Solves.again (solves : Solves env ps final) : Solves final ps final where
  rebinds := ⟨final.bindings, rfl⟩
  value := solves.value
  rest _ _ := rfl

/-- Whatever the input and the functions at hand, the parameters of a compiled workflow either all
resolve, and then what is bound is settled and a second run over it ends where it began; or one of
them fails, and then what is bound before it is settled. -/
theorem params_settle {d : Document} {w : Workflow} (compiled : compile d b = .ok w) (host : Host)
    (b' : Builtins) (input : DecisionInput) :
    (∃ final, w.resolveParams (.forDecision host b' input) = ⟨final, .ok ()⟩ ∧
      Settled w.params final ∧ w.resolveParams final = ⟨final, .ok ()⟩) ∨
    ∃ before p after stuck e, w.params = before ++ p :: after ∧
      w.resolveParams (.forDecision host b' input) = ⟨stuck, .error e⟩ ∧
        evaluate stuck p.tree = .error e ∧ Settled before stuck := by
  have arranged : ∀ builtins : Builtins, Arranged builtins contextVariables w.params :=
    fun _ => compile_arranged compiled
  rcases binds_or_breaks (.forDecision host b' input) w.params with
    ⟨final, run⟩ | ⟨stuck, e, broken⟩
  · have solves := Solves.of_binds (arranged _) run
    have again : Binds final w.params final := solves.again.binds (arranged _)
    exact .inl ⟨final, bindParams_eq_ok.2 run, solves.settled (arranged b),
      bindParams_eq_ok.2 again⟩
  · have ends := bindParams_eq_error.2 broken
    obtain ⟨before, p, after, split, run, fault⟩ := broken
    have first : ∀ builtins : Builtins, Arranged builtins contextVariables before :=
      fun builtins => (split ▸ arranged builtins).of_append
    exact .inr ⟨before, p, after, stuck, e, split, ends, fault,
      (Solves.of_binds (first _) run).settled (first b)⟩

def leadDocument : Document :=
  { teamDocument with
    params := [⟨"team", "$user.team"⟩, ⟨"lead", "$team.lead"⟩, ⟨"role", "$user.role"⟩]
    rules := [] }

def leadWorkflow : Workflow :=
  { teamWorkflow with
    params :=
      [⟨"team", "$user.team", .member (.variable "user") (.identifier "team")⟩,
        ⟨"lead", "$team.lead", .member (.variable "team") (.identifier "lead")⟩,
        ⟨"role", "$user.role", .member (.variable "user") (.identifier "role")⟩]
    rules := [] }

theorem lead_compiles : compile leadDocument .standard = .ok leadWorkflow := by
  have valid : leadDocument.validate = .ok () := by rfl
  have lead : scan "$team.lead" =
      ⟨[⟨.variable, "$team", 0⟩, ⟨.dot, ".", 5⟩, ⟨.identifier, "lead", 6⟩], none⟩ := by
    decide +kernel
  have role : scan "$user.role" =
      ⟨[⟨.variable, "$user", 0⟩, ⟨.dot, ".", 5⟩, ⟨.identifier, "role", 6⟩], none⟩ := by
    decide +kernel
  refine compile_eq_ok.2 ⟨Document.validate_eq_ok.1 valid, _, _, ?_, rfl, rfl⟩
  refine defineParams_cons.2 ⟨_, _, team_param, ?_, rfl⟩
  refine defineParams_cons.2 ⟨_, _, define_eq_ok.2 ⟨_, parse_eq_ok lead rfl, rfl, rfl⟩, ?_, rfl⟩
  exact defineParams_cons.2 ⟨_, _, define_eq_ok.2 ⟨_, parse_eq_ok role rfl, rfl, rfl⟩, rfl, rfl⟩

/-- The second parameter reads a value that is not there. The first stays bound, and the third is
not reached. -/
theorem params_settle_lead : ∃ stuck,
    leadWorkflow.resolveParams (.forDecision .bare .standard guest) =
      ⟨stuck, .error (.execution (.unresolvedVariable "team"))⟩ ∧
    Settled (leadWorkflow.params.take 1) stuck := by
  let env := (Environment.forDecision .bare .standard guest).bind "team" .undefined
  have run : leadWorkflow.resolveParams (.forDecision .bare .standard guest) =
      ⟨env, .error (.execution (.unresolvedVariable "team"))⟩ := by rfl
  rcases params_settle lead_compiles .bare .standard guest with
    ⟨final, ends, -⟩ | ⟨before, p, after, stuck, e, split, ends, fault, settled⟩
  · rw [run] at ends
    cases ends
  · rw [run] at ends
    cases ends
    -- of the three parameters only the second has an error in what is bound at the end
    match before with
    | [] =>
      obtain ⟨rfl, -⟩ := List.cons.inj split
      cases fault
    | [_] =>
      obtain ⟨rfl, -⟩ := List.cons.inj split
      exact ⟨env, run, settled⟩
    | [_, _] =>
      obtain ⟨-, later⟩ := List.cons.inj split
      obtain ⟨rfl, -⟩ := List.cons.inj (List.cons.inj later).2
      cases fault
    | _ :: _ :: _ :: rest =>
      have length := congrArg List.length split
      simp [leadWorkflow] at length

end Gatekeeper.Workflow
