import LineTint.Proofs.PathSteps
import Mathlib.Data.List.DropRight

namespace LineTint.FilePath

theorem slash_not_mem_of_mem_pieces {cs piece : List Char} (h : piece ∈ pieces cs) : '/' ∉ piece := by
  induction cs generalizing piece with
  | nil =>
      obtain rfl := List.mem_singleton.mp h
      exact List.not_mem_nil
  | cons c cs ih =>
      obtain ⟨first, more, hcs, heq⟩ := pieces_cons c cs
      rw [hcs] at ih
      rw [heq] at h
      split at h
      next =>
        rcases List.mem_cons.mp h with rfl | h
        · exact List.not_mem_nil
        · exact ih h
      next hc =>
        rcases List.mem_cons.mp h with rfl | h
        · exact List.not_mem_cons_of_ne_of_not_mem (Ne.symm hc) (ih List.mem_cons_self)
        · exact ih (List.mem_cons_of_mem first h)

theorem slash_not_mem_of_mem_steps {p : FilePath} {step : String} (h : step ∈ steps p) : '/' ∉ step.toList := by
  obtain ⟨piece, hpiece, rfl⟩ := List.mem_map.mp h
  rw [String.toList_ofList]
  exact slash_not_mem_of_mem_pieces hpiece

theorem intercalate_pieces (cs : List Char) : ['/'].intercalate (pieces cs) = cs := by
  induction cs with
  | nil => rfl
  | cons c cs ih =>
      obtain ⟨first, more, hcs, heq⟩ := pieces_cons c cs
      rw [hcs] at ih
      rw [heq]
      split
      next hc => rw [List.intercalate_cons_cons, ih, hc, List.nil_append, List.singleton_append]
      next =>
        cases more with
        | nil => rw [List.intercalate_singleton] at ih ⊢; rw [ih]
        | cons second more =>
            rw [List.intercalate_cons_cons] at ih ⊢
            rw [List.cons_append, List.cons_append, ih]

theorem intercalate_steps (p : FilePath) : "/".intercalate (steps p) = p := by
  have hpieces : (steps p).map String.toList = pieces p.toList := by
    rw [steps, List.map_map]
    simp [Function.comp_def]
  rw [← String.toList_inj, String.toList_intercalate, hpieces]
  exact intercalate_pieces p.toList

theorem intercalate_append {xs ys : List String} (hxs : xs ≠ []) (hys : ys ≠ []) :
    "/".intercalate (xs ++ ys) = "/".intercalate xs ++ "/" ++ "/".intercalate ys := by
  obtain ⟨y, ys, rfl⟩ := List.exists_cons_of_ne_nil hys
  induction xs with
  | nil => exact (hxs rfl).elim
  | cons x xs ih =>
      cases xs with
      | nil => simp
      | cons x' xs =>
          rw [List.cons_append, List.cons_append, String.intercalate_cons_cons, String.intercalate_cons_cons,
            ← List.cons_append, ih (List.cons_ne_nil x' xs)]
          simp only [String.append_assoc]

theorem steps_intercalate {names : List String} (hne : names ≠ []) (h : ∀ name ∈ names, '/' ∉ name.toList) :
    steps ("/".intercalate names) = names := by
  induction names with
  | nil => exact (hne rfl).elim
  | cons name names ih =>
      obtain ⟨hname, hnames⟩ := List.forall_mem_cons.mp h
      cases names with
      | nil => rw [String.intercalate_singleton, steps_of_not_mem hname]
      | cons name' names =>
          rw [String.intercalate_cons_cons, steps_append, steps_of_not_mem hname, ih (List.cons_ne_nil _ _) hnames,
            List.singleton_append]

theorem steps_slash_append (p : FilePath) : steps ("/" ++ p) = "" :: steps p := by
  have hempty : steps "" = [""] := steps_of_not_mem (by decide)
  have h := steps_append "" p
  rwa [String.empty_append, hempty] at h

theorem isAbsolute_iff_steps {p : FilePath} : p.isAbsolute = true ↔ ∃ q : FilePath, steps p = "" :: steps q := by
  rw [isAbsolute_iff, List.head?_eq_some_iff]
  constructor
  · rintro ⟨cs, hcs⟩
    refine ⟨String.ofList cs, ?_⟩
    have hp : p = "/" ++ String.ofList cs := by
      rw [← String.toList_inj, hcs, String.toList_append]
      exact (congrArg ('/' :: ·) String.toList_ofList).symm
    rw [hp, steps_slash_append]
  · rintro ⟨q, hq⟩
    refine ⟨q.toList, ?_⟩
    have hp : p = "/" ++ q := by
      rw [← intercalate_steps p, hq, ← steps_slash_append, intercalate_steps]
    rw [hp, String.toList_append]
    rfl

/-- The steps of a path as far as the last one that is not idle. -/
def front (steps : List String) : List String := steps.rdropWhile isIdle

theorem front_cons (step : String) (steps : List String) :
    front (step :: steps) = if front steps = [] then front [step] else step :: front steps := by
  unfold front List.rdropWhile
  rw [List.reverse_cons, List.dropWhile_append]
  simp only [List.isEmpty_iff, List.reverse_eq_nil_iff]
  split <;> simp

theorem exists_front_append (steps : List String) :
    ∃ idle, steps = front steps ++ idle ∧ ∀ step ∈ idle, isIdle step = true :=
  ⟨steps.rtakeWhile isIdle, List.rdropWhile_append_rtakeWhile.symm, fun _ => List.mem_rtakeWhile_imp⟩

theorem exists_concat_of_front {steps : List String} (h : front steps ≠ []) :
    ∃ before name, front steps = before ++ [name] ∧ isIdle name = false := by
  refine ⟨(front steps).dropLast, (front steps).getLast h, (List.dropLast_append_getLast h).symm, ?_⟩
  exact Bool.not_eq_true _ ▸ List.rdropWhile_last_not isIdle steps h

variable {p : FilePath} {before : List String} {name : String}

theorem parent?_of_name (hname : isIdle name = false)
    (hinner : (if p.isAbsolute then p.steps.tail else p.steps) = before ++ [name]) :
    p.parent? = some (if p.isAbsolute then "/" ++ "/".intercalate (front before) else "/".intercalate (front before)) := by
  have hdrop : (before ++ [name]).reverse.dropWhile isIdle = name :: before.reverse := by
    rw [List.reverse_append, List.reverse_singleton, List.singleton_append, List.dropWhile_cons, hname]
    rfl
  unfold parent?
  simp only [hinner, hdrop]
  rfl

theorem parent?_root : parent? "/" = none := by decide +kernel

theorem parent?_empty : parent? "" = none := by decide +kernel

/-- The path above one with a name is cut off behind the last step that is not idle. -/
theorem parent?_eq (hsteps : p.steps = before ++ [name]) (hname : isIdle name = false) :
    p.parent? = some (if front before = [] then (if p.isAbsolute then "/" else "")
      else "/".intercalate (front before)) := by
  cases habsolute : p.isAbsolute with
  | false =>
      have hinner : (if p.isAbsolute then p.steps.tail else p.steps) = before ++ [name] := by simp [habsolute, hsteps]
      rw [parent?_of_name hname hinner, habsolute]
      by_cases hfront : front before = []
      · simp [hfront]
      · simp [hfront]
  | true =>
      obtain ⟨q, hq⟩ := isAbsolute_iff_steps.mp habsolute
      obtain ⟨mid, rfl⟩ : ∃ mid, before = "" :: mid := by
        cases before with
        | nil =>
            obtain ⟨rfl, -⟩ := List.cons.inj (hsteps.symm.trans hq)
            cases hname
        | cons step mid =>
            obtain ⟨rfl, -⟩ := List.cons.inj (hsteps.symm.trans hq)
            exact ⟨mid, rfl⟩
      have hinner : (if p.isAbsolute then p.steps.tail else p.steps) = mid ++ [name] := by
        simp [habsolute, hsteps]
      have hnone : front [""] = [] := by decide
      rw [parent?_of_name hname hinner, habsolute, front_cons, hnone]
      by_cases hfront : front mid = []
      · simp [hfront]
      · obtain ⟨step, steps, heq⟩ := List.exists_cons_of_ne_nil hfront
        simp [heq, String.intercalate_cons_cons]

theorem exists_above (hsteps : p.steps = before ++ [name]) (hname : isIdle name = false) (hfront : front before ≠ []) :
    ∃ q, p.parent? = some q ∧ q.steps = front before ∧ q.isEmpty = false ∧ q.isAbsolute = p.isAbsolute ∧
      ∃ rest, p.toList = q.toList ++ rest := by
  obtain ⟨idle, hbefore, -⟩ := exists_front_append before
  have hq : steps ("/".intercalate (front before)) = front before := by
    refine steps_intercalate hfront fun step hstep => slash_not_mem_of_mem_steps (p := p) ?_
    rw [hsteps, hbefore]
    simp [hstep]
  have hp : p = "/".intercalate (front before) ++ "/" ++ "/".intercalate (idle ++ [name]) := by
    rw [← intercalate_append hfront (by simp), ← List.append_assoc, ← hbefore, ← hsteps, intercalate_steps]
  have hne : "/".intercalate (front before) ≠ "" := by
    intro hempty
    obtain ⟨before', last, heq, hlast⟩ := exists_concat_of_front hfront
    rw [hempty] at hq
    have hone : [""] = before' ++ [last] := (steps_of_not_mem (by decide)).symm.trans (hq.trans heq)
    obtain rfl := List.singleton_inj.mp (List.append_inj' (show [] ++ [""] = before' ++ [last] from hone) rfl).2
    cases hlast
  have hpre : p.toList = ("/".intercalate (front before)).toList ++ ("/" ++ "/".intercalate (idle ++ [name])).toList := by
    rw [← String.toList_append, ← String.append_assoc, ← hp]
  refine ⟨_, by rw [parent?_eq hsteps hname, if_neg hfront], hq, ?_, ?_, _, hpre⟩
  · rwa [← Bool.not_eq_true, String.isEmpty_iff]
  · rw [Bool.eq_iff_iff, isAbsolute_iff, isAbsolute_iff, hpre,
      List.head?_append_of_ne_nil _ (mt String.toList_eq_nil_iff.mp hne)]

end LineTint.FilePath
