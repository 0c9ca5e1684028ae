import Gatekeeper.Proofs.Load.Outcome

/-!
# Compiling side by side

The sources are dealt out in consecutive parts, one to a thread. No part is empty and there are no
more of them than threads were asked for; put together again they are the list of sources. The
outcome is that of one thread which compiles the whole list.
-/

set_option autoImplicit false

namespace Gatekeeper
open Workflow

variable {α : Type}

def workParts (threads : Nat) (sources : List PolicySource) : List (List PolicySource) :=
  chunksOf (divideUp sources.length (max threads 1)) sources

theorem chunksOf_ne_nil {size : Nat} {xs chunk : List α} (h : chunk ∈ chunksOf size xs) :
    chunk ≠ [] := by
  induction xs using chunksOf.induct size with
  | case1 => simp [chunksOf] at h
  | case2 x rest ih =>
    rw [chunksOf, List.mem_cons] at h
    rcases h with rfl | later
    · exact List.cons_ne_nil _ _
    · exact ih later

/-- A list that fits into some chunks is not cut into more of them. -/
theorem chunksOf_length_le {size count : Nat} {xs : List α} (fits : xs.length ≤ count * size) :
    (chunksOf size xs).length ≤ count := by
  induction xs using chunksOf.induct size generalizing count with
  | case1 => simp [chunksOf]
  | case2 x rest ih =>
    cases count with
    | zero => simp at fits
    | succ count =>
      have later : (rest.drop (size - 1)).length ≤ count * size := by
        rw [Nat.succ_mul, List.length_cons] at fits
        rw [List.length_drop]
        omega
      rw [chunksOf, List.length_cons]
      exact Nat.succ_le_succ (ih later)

theorem le_mul_divideUp (n : Nat) {d : Nat} (positive : 0 < d) : n ≤ d * divideUp n d := by
  have division := Nat.div_add_mod (n + d - 1) d
  have remainder := Nat.mod_lt (n + d - 1) positive
  unfold divideUp
  omega

theorem workParts_length_le (threads : Nat) (sources : List PolicySource) :
    (workParts threads sources).length ≤ max threads 1 :=
  chunksOf_length_le (le_mul_divideUp sources.length (by omega))

theorem compileEach_eq_ok {b : Builtins} {sources : List PolicySource} {ws : List Workflow} :
    compileEach b sources = .ok ws ↔
      List.Forall₂ (fun s w => compile s.document b = .ok w) sources ws := by
  simp only [compileEach_eq_mapM, mapM_eq_ok, compile_source]

theorem compileEach_eq_error {b : Builtins} {sources : List PolicySource} {e : Error} :
    compileEach b sources = .error e ↔
      ∃ s cause, Reached (fun t => Compiles t.document b) sources s ∧
        compile s.document b = .error cause ∧ e = .inDocument s.origin cause := by
  rw [compileEach_eq_mapM, compileSources_eq_error]

/-- However many threads are asked for, the sources are dealt out to no more than these, each gets
a part of its own that is not empty, and the outcome is the one of compiling the list in order: all
workflows, or the error of the first source that fails, reported in its document. -/
theorem compileAll_as_in_order (b : Builtins) (threads : Nat) (sources : List PolicySource) :
    compileAll b threads sources = gather ((workParts threads sources).map (compileEach b)) ∧
    (workParts threads sources).flatten = sources ∧
    (∀ part ∈ workParts threads sources, part ≠ []) ∧
    (workParts threads sources).length ≤ max threads 1 ∧
    compileAll b threads sources = compileEach b sources ∧
    (∀ ws, compileAll b threads sources = .ok ws ↔
      List.Forall₂ (fun s w => compile s.document b = .ok w) sources ws) ∧
    ∀ e, compileAll b threads sources = .error e ↔
      ∃ s cause, Reached (fun t => Compiles t.document b) sources s ∧
        compile s.document b = .error cause ∧ e = .inDocument s.origin cause := by
  have inOrder : compileAll b threads sources = compileEach b sources := by
    rw [compileAll_eq_mapM, compileEach_eq_mapM]
  have together : (workParts threads sources).flatten = sources := chunksOf_flatten _ sources
  have filled : ∀ part ∈ workParts threads sources, part ≠ [] := fun part h => chunksOf_ne_nil h
  refine ⟨rfl, together, filled, workParts_length_le threads sources, inOrder, ?_, ?_⟩
  · intro ws
    rw [inOrder]
    exact compileEach_eq_ok
  · intro e
    rw [inOrder]
    exact compileEach_eq_error

end Gatekeeper
