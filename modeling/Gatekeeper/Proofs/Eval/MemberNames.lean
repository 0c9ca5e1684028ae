import Gatekeeper.Proofs.Eval.Coincidence

/-!
# Registered words as names of members

What is registered under a word shows in a member of that name only if it is a text: then the text
is the key, and the member of that name is out of reach. Functions, numbers, truth values and
objects under the word leave it to name its own member.
-/

set_option autoImplicit false

namespace Gatekeeper

def mirror (b : Builtins) : Environment where
  host := { Host.bare with member := fun _ key => some (.string key) }
  builtins := b
  input := default
  bindings := NameMap.empty.insert "mirror" (.object (.native "mirror" 0))

theorem evaluate_mirror (b : Builtins) :
    evaluate (mirror b) (.variable "mirror") = .ok (.object (.native "mirror" 0)) := rfl

theorem step_mirror (b : Builtins) (key : String) :
    (mirror b).step (.object (.native "mirror" 0)) key = .ok (.string key) := rfl

/-- In the mirror a step shows its key, so a step by the word's own text is a step by its key. -/
theorem keyOf_of_step {b : Builtins} {name : String}
    (byName : evaluate (mirror b) (.member (.variable "mirror") (.identifier name)) =
      (mirror b).step (.object (.native "mirror" 0)) name) : b.keyOf name = name := by
  have byKey : evaluate (mirror b) (.member (.variable "mirror") (.identifier name)) =
      (mirror b).step (.object (.native "mirror" 0)) (b.keyOf name) := by
    rw [evaluate_member, evaluate_mirror]
    rfl
  rw [byKey, step_mirror, step_mirror] at byName
  simpa using byName

/-- A step to a member reads what stands under the key of its word, on whatever value it is taken.
The key is the word itself, whatever is registered under it, except where that is another text; and
words that only name members make no difference between two registries in which their keys are the
same. -/
theorem member_step_key (b : Builtins) (name : String) :
    (∀ env object target, env.builtins = b → evaluate env object = .ok target →
      evaluate env (.member object (.identifier name)) = env.step target (b.keyOf name)) ∧
    ((∀ env object target, env.builtins = b → evaluate env object = .ok target →
        evaluate env (.member object (.identifier name)) = env.step target name) ↔
      ∀ text, b.get? name = some (.string text) → text = name) ∧
    ∀ (e : Expr) (b' : Builtins), (∀ word, e.Speaks word → b.get? word = b'.get? word) →
      (∀ key, e.ReadsMember key → b.keyOf key = b'.keyOf key) →
        ∀ env : Environment,
          evaluate { env with builtins := b } e = evaluate { env with builtins := b' } e := by
  have step : ∀ env object target, env.builtins = b → evaluate env object = .ok target →
      evaluate env (.member object (.identifier name)) = env.step target (b.keyOf name) := by
    rintro env object target rfl value
    rw [evaluate_member, value]
    rfl
  refine ⟨step, ?_, fun e b' words keys env => ?_⟩
  · rw [← keyOf_eq_self]
    constructor
    · intro byName
      exact keyOf_of_step (byName _ _ _ rfl (evaluate_mirror b))
    · intro own env object target here value
      rw [step env object target here value, own]
  · have same : ReadsSame e { env with builtins := b } { env with builtins := b' } :=
      ⟨rfl, rfl, words, keys, fun _ _ => rfl⟩
    exact same.evaluate_eq

def visitor : DecisionInput := ⟨"GUEST", "10.0.0.1", "/desk/safe"⟩

def requestPath : Expr := .member (.variable "request") (.identifier "path")

def withPath (v : Value) : Builtins := Builtins.standard.insert "path" v

theorem withPath_keyOf (value : Number) : (withPath (.number value)).keyOf "path" = "path" := by
  rw [keyOf_eq_self]
  intro text registered
  rw [withPath, NameMap.get?_insert] at registered
  simp at registered

theorem requestPath_speaks (word : String) : ¬ requestPath.Speaks word := by
  rintro ⟨place, here, field⟩
  simp [requestPath, Expr.nodes] at here
  exact field (by rw [here.2]; rfl)

theorem requestPath_reads {key : String} (read : requestPath.ReadsMember key) : key = "path" := by
  obtain ⟨object, place, here⟩ := read
  simp [requestPath, Expr.nodes] at here
  exact here.1.2

/-- A text that is registered as `path` puts the path of a request out of reach. With a number there
the path is read, as it is with nothing there. -/
theorem member_step_key_request :
    evaluate (.forDecision .bare (withPath (.string "ipAddress")) visitor) requestPath =
        .ok (.string "10.0.0.1") ∧
      evaluate (.forDecision .bare (withPath (.number ⟨0⟩)) visitor) requestPath =
        .ok (.string "/desk/safe") ∧
      evaluate (.forDecision .bare (withPath (.number ⟨0⟩)) visitor) requestPath =
        evaluate (.forDecision .bare .standard visitor) requestPath := by
  obtain ⟨byKey, -, -⟩ := member_step_key (withPath (.string "ipAddress")) "path"
  obtain ⟨-, byName, unseen⟩ := member_step_key (withPath (.number ⟨0⟩)) "path"
  refine ⟨byKey _ _ (.object .request) rfl rfl, ?_, ?_⟩
  · exact byName.2 (keyOf_eq_self.1 (withPath_keyOf _)) _ _ (.object .request) rfl rfl
  · refine unseen requestPath .standard (fun word said => absurd said (requestPath_speaks word)) ?_
      (.forDecision .bare .standard visitor)
    intro key read
    rw [requestPath_reads read, withPath_keyOf]
    rfl

end Gatekeeper
