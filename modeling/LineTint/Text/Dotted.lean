namespace LineTint.Text

def cutAtDot : List Char → Option (List Char × List Char)
  | [] => none
  | c :: cs =>
    match cutAtDot cs with
    | some (stem, suffix) => some (c :: stem, suffix)
    | none => if c = '.' then some ([], cs) else none

theorem cutAtDot_eq_none_iff {cs : List Char} : cutAtDot cs = none ↔ '.' ∉ cs := by
  induction cs with
  | nil => simp [cutAtDot]
  | cons c cs ih =>
      rw [cutAtDot, List.mem_cons, not_or, ← ih]
      cases hcs : cutAtDot cs with
      | some cut => simp
      | none => simp [eq_comm]

theorem cutAtDot_eq_some_iff {cs stem suffix : List Char} :
    cutAtDot cs = some (stem, suffix) ↔ cs = stem ++ '.' :: suffix ∧ '.' ∉ suffix := by
  induction cs generalizing stem with
  | nil => simp [cutAtDot]
  | cons c cs ih =>
      rw [cutAtDot]
      cases stem with
      | nil =>
          rw [List.nil_append, List.cons.injEq]
          have hnone := @cutAtDot_eq_none_iff cs
          cases hcs : cutAtDot cs with
          | some cut =>
              rw [hcs] at hnone
              simp only [Option.some.injEq, Prod.mk.injEq, reduceCtorEq, false_and, false_iff]
              rintro ⟨⟨-, rfl⟩, hsuffix⟩
              exact absurd (hnone.mpr hsuffix) nofun
          | none =>
              have hdot := hnone.mp hcs
              by_cases hc : c = '.'
              · simp only [hc, if_true, Option.some.injEq, Prod.mk.injEq, true_and]
                exact ⟨fun h => ⟨h, h ▸ hdot⟩, fun h => h.1⟩
              · simp [hc]
      | cons d stem =>
          rw [List.cons_append, List.cons.injEq, and_assoc, ← ih]
          cases hcs : cutAtDot cs with
          | some cut => simp [Prod.ext_iff, and_assoc]
          | none => by_cases hc : c = '.' <;> simp [hc]

end LineTint.Text
