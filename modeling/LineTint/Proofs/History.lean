import Mathlib.Data.List.Basic

namespace LineTint

/-- What a step does to a state, what it writes there, and of what it finds there what it takes away. -/
structure WriteRule (σ ι ω : Type) where
  step : σ → ι → σ
  Writes : σ → ι → ω → Prop
  Removes : σ → ι → ω → Prop

theorem concat_eq_append_cons {α : Type} {l before after : List α} {a b : α}
    (h : l ++ [a] = before ++ b :: after) :
    (after = [] ∧ before = l ∧ b = a) ∨ ∃ rest, after = rest ++ [a] ∧ l = before ++ b :: rest := by
  rcases List.eq_nil_or_concat after with rfl | ⟨rest, x, rfl⟩
  · obtain ⟨rfl, hx⟩ := List.append_inj' h rfl
    exact Or.inl ⟨rfl, rfl, (List.cons.inj hx).1.symm⟩
  · rw [List.concat_eq_append, ← List.cons_append, ← List.append_assoc] at h
    obtain ⟨rfl, hx⟩ := List.append_inj' h rfl
    obtain rfl := (List.cons.inj hx).1
    exact Or.inr ⟨rest, List.concat_eq_append, rfl⟩

namespace WriteRule

variable {σ ι ω : Type} (r : WriteRule σ ι ω)

/-- The latest step to write wrote `w`, and no step since then has taken it away. -/
def Last (s : σ) (steps : List ι) (w : ω) : Prop :=
  ∃ before i after, steps = before ++ i :: after ∧ r.Writes (before.foldl r.step s) i w ∧
    ∀ mid j rest, after = mid ++ j :: rest →
      ¬ r.Removes ((before ++ i :: mid).foldl r.step s) j w ∧
        ∀ v, ¬ r.Writes ((before ++ i :: mid).foldl r.step s) j v

theorem last_nil (s : σ) (w : ω) : ¬ r.Last s [] w := by
  rintro ⟨before, i, after, h, -⟩
  exact absurd h.symm (by simp)

theorem last_concat {s : σ} {steps : List ι} {i : ι} {w : ω} :
    r.Last s (steps ++ [i]) w ↔
      r.Writes (steps.foldl r.step s) i w ∨
        ¬ r.Removes (steps.foldl r.step s) i w ∧ (∀ v, ¬ r.Writes (steps.foldl r.step s) i v) ∧
          r.Last s steps w := by
  constructor
  · rintro ⟨before, j, after, heq, hwrite, hsince⟩
    rcases concat_eq_append_cons heq with ⟨rfl, rfl, rfl⟩ | ⟨rest, rfl, rfl⟩
    · exact Or.inl hwrite
    · obtain ⟨hkeeps, hnone⟩ := hsince rest i [] rfl
      refine Or.inr ⟨hkeeps, hnone, before, j, rest, rfl, hwrite, ?_⟩
      rintro mid k more rfl
      exact hsince mid k (more ++ [i]) (by simp)
  · rintro (hwrite | ⟨hkeeps, hnone, before, j, after, rfl, hwrite, hsince⟩)
    · exact ⟨steps, i, [], rfl, hwrite, by simp⟩
    · refine ⟨before, j, after ++ [i], by simp, hwrite, ?_⟩
      intro mid k rest heq
      rcases concat_eq_append_cons heq with ⟨rfl, rfl, rfl⟩ | ⟨more, rfl, rfl⟩
      · exact ⟨hkeeps, hnone⟩
      · exact hsince mid k more rfl

end WriteRule
end LineTint
