import Parley.Proofs.Outcomes
import Parley.Prompt.Template.Basic

/-!
# What templates render to

One lemma for each kind of node: what it renders to, given what its expressions and its blocks come
to.  A repeated block is rendered for one element after the other (`render_each`), whatever a round
knows about its place.
-/

namespace Parley.Prompt.Node

variable {s : Scope} {e condition container : Expr} {v : Json}

theorem renderAll_nil : renderAll s [] = .ok "" := by rw [renderAll]

theorem render_text (t : String) : (text t).render s = .ok t := by rw [render]

theorem renderAll_cons {n : Node} {rest : List Node} {text texts : String}
    (hn : n.render s = .ok text) (hrest : renderAll s rest = .ok texts) :
    renderAll s (n :: rest) = .ok (text ++ texts) := by
  rw [renderAll, hn, hrest]
  rfl

theorem render_output (he : e.eval s = .ok v) : (output e).render s = .ok (valueText v) := by
  rw [render, he]
  rfl

theorem render_branch {holds : Bool} (hcondition : condition.verdict (condition.eval s) = .ok holds)
    (yes no : List Node) :
    (branch condition yes no).render s = renderAll s (if holds then yes else no) := by
  rw [render, hcondition]
  cases holds <;> rfl

/-- A block for every element of a list, of which there may be none. -/
theorem render_each {α : Type} {value : String} {as : List α} {write : α → Json} {body : List Node}
    {line : α → String} (hcontainer : container.eval s = .ok (.arr (as.map write)))
    (hbody : ∀ a ∈ as, ∀ info, renderAll ((value, write a) :: ("loop", info) :: s) body =
      .ok (line a)) :
    (each none value container body []).render s = .ok (String.join (as.map line)) := by
  have hrounds :
      rounds none value (.arr (as.map write)) = .ok (as.map fun a => [(value, write a)]) := by
    rw [rounds, List.map_map]
    rfl
  have hlines (count : Nat) : ((as.map fun a => [(value, write a)]).zipIdx.mapM fun (binding, i) =>
      renderAll (binding ++ ("loop", roundInfo count i) :: s) body) = .ok (as.map line) := by
    rw [List.zipIdx_map, List.mapM_map, mapM_eq_ok (g := fun p => line p.1)]
    · rw [← Function.comp_def line Prod.fst, ← List.map_map, List.zipIdx_map_fst]
    · exact fun p hp => hbody p.1 (List.fst_mem_of_mem_zipIdx hp) _
  rw [render, hcontainer]
  simp only [bind, Except.bind, hrounds]
  cases as with
  | nil => rfl
  | cons a as =>
    simp only [hlines]
    rfl

end Parley.Prompt.Node
