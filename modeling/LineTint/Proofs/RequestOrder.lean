import LineTint.Proofs.FirstOffer
import LineTint.Proofs.OwnQuery
import LineTint.Proofs.SingleCalls
import Mathlib.Data.List.Nodup

namespace LineTint

namespace Table

variable {κ α : Type} [DecidableEq κ]

theorem size_eq_of_get?_eq {t u : Table κ α} (h : ∀ k, t.get? k = u.get? k) : t.size = u.size := by
  apply List.Perm.length_eq
  rw [List.perm_ext_iff_of_nodup (List.Nodup.of_map _ t.nodup) (List.Nodup.of_map _ u.nodup)]
  rintro ⟨k, a⟩
  rw [← get?_eq_some_iff, ← get?_eq_some_iff, h]

end Table

namespace Highlighter

variable {P Tree Query : Type} [SyntaxParser P Tree]

def askAll (e : Engine Tree Query) (h : Highlighter P Query) : List (LineId × Span) →
    List (LineId × Except HighlightError (List Token)) × Highlighter P Query
  | [] => ([], h)
  | (line, span) :: requests =>
    let (answer, next) := h.tokensForLine e line span
    let (answers, last) := next.askAll e requests
    ((line, answer) :: answers, last)

/-- The two do not differ once they are prepared, but for the entries of other lines. -/
structure Agree (e : Engine Tree Query) (line : LineId) (h k : Highlighter P Query) : Prop where
  prepared : (h.prepare e).clear = (k.prepare e).clear
  entry : h.cache.find? line = k.cache.find? line

variable {e : Engine Tree Query} {h k : Highlighter P Query} {line l : LineId} {span s : Span}

theorem prepare_prepare (e : Engine Tree Query) (h : Highlighter P Query) :
    (h.prepare e).prepare e = h.prepare e := by
  have hslot : (h.prepare e).slot.prepare e.compile h.grammar? = (h.prepare e).slot := by
    refine (QuerySlot.prepare_prepare h.grammar? h.grammar?).trans ?_
    rw [Option.or_self]
    rfl
  exact congrArg (fun slot => { h with slot }) hslot

theorem clear_prepare_tokensForLine :
    ((h.tokensForLine e l s).2.prepare e).clear = (h.prepare e).clear := by
  have hnext := congrArg (Highlighter.prepare e) (clear_tokensForLine (e := e) (h := h) l s)
  exact hnext.trans (congrArg clear (prepare_prepare e h))

theorem Agree.of_other (hl : line ≠ l) : Agree e line (h.tokensForLine e l s).2 h where
  prepared := clear_prepare_tokensForLine
  entry := find?_tokensForLine hl

theorem Agree.generation_eq (ha : Agree e line h k) : (h.prepare e).generation = (k.prepare e).generation := by
  have hgen := congrArg generation ha.prepared
  exact hgen

theorem Agree.fetch_eq (ha : Agree e line h k) : (h.prepare e).fetch line = (k.prepare e).fetch line := by
  apply Option.ext
  intro tokens
  rw [fetch_eq_some_iff, fetch_eq_some_iff, ha.generation_eq]
  change h.cache.find? line = _ ↔ k.cache.find? line = _
  rw [ha.entry]

theorem Agree.tokensForLine_eq (ha : Agree e line h k) (span : Span) :
    (h.tokensForLine e line span).1 = (k.tokensForLine e line span).1 ∧
      (h.tokensForLine e line span).2.cache.find? line = (k.tokensForLine e line span).2.cache.find? line := by
  have hcomputed : (h.prepare e).computed e span = (k.prepare e).computed e span := by
    have hclear := congrArg (computed e · span) ha.prepared
    exact hclear
  rw [Highlighter.tokensForLine_eq, Highlighter.tokensForLine_eq, ha.fetch_eq, hcomputed]
  split
  next => exact ⟨rfl, ha.entry⟩
  next =>
    split
    next tokens _ =>
      refine ⟨rfl, ?_⟩
      change (Cache.store _ line tokens (h.prepare e).generation).find? line =
        (Cache.store _ line tokens (k.prepare e).generation).find? line
      rw [Cache.find?_store, Cache.find?_store, if_pos rfl, if_pos rfl, ha.generation_eq]
    next => exact ⟨rfl, ha.entry⟩

variable {requests permuted : List (LineId × Span)}

theorem ne_of_nodup_cons (hnodup : (((l, s) :: requests).map Prod.fst).Nodup)
    (hmem : (line, span) ∈ requests) : line ≠ l := by
  intro heq
  exact (List.nodup_cons.mp hnodup).1 (List.mem_map.mpr ⟨_, hmem, heq⟩)

theorem askAll_cons (e : Engine Tree Query) (h : Highlighter P Query) (l : LineId) (s : Span)
    (requests : List (LineId × Span)) :
    h.askAll e ((l, s) :: requests) =
      ((l, (h.tokensForLine e l s).1) :: ((h.tokensForLine e l s).2.askAll e requests).1,
        ((h.tokensForLine e l s).2.askAll e requests).2) := rfl

/-- Each line is answered as if it were the only one. -/
theorem askAll_fst (e : Engine Tree Query) (h : Highlighter P Query)
    (hnodup : (requests.map Prod.fst).Nodup) :
    (h.askAll e requests).1 = requests.map fun r => (r.1, (h.tokensForLine e r.1 r.2).1) := by
  induction requests generalizing h with
  | nil => rfl
  | cons request requests ih =>
      obtain ⟨l, s⟩ := request
      rw [List.map_cons, askAll_cons, ih _ (List.nodup_cons.mp hnodup).2]
      apply congrArg (List.cons _)
      -- What is left is that the call for `l` does not show in the answers for the other lines.
      apply List.map_congr_left
      rintro ⟨line, span⟩ hmem
      have hagree : Agree e line (h.tokensForLine e l s).2 h := .of_other (ne_of_nodup_cons hnodup hmem)
      exact congrArg (Prod.mk line) (hagree.tokensForLine_eq span).1

theorem clear_askAll (e : Engine Tree Query) (h : Highlighter P Query) (requests : List (LineId × Span)) :
    (h.askAll e requests).2.clear = if requests = [] then h.clear else (h.prepare e).clear := by
  induction requests generalizing h with
  | nil => rfl
  | cons request requests ih =>
      obtain ⟨l, s⟩ := request
      rw [if_neg (List.cons_ne_nil _ _), askAll_cons, ih, clear_tokensForLine, clear_prepare_tokensForLine, ite_self]

theorem find?_askAll_of_not_mem (e : Engine Tree Query) (h : Highlighter P Query)
    (hline : line ∉ requests.map Prod.fst) :
    (h.askAll e requests).2.cache.find? line = h.cache.find? line := by
  induction requests generalizing h with
  | nil => rfl
  | cons request requests ih =>
      obtain ⟨l, s⟩ := request
      obtain ⟨hl, hrest⟩ : line ≠ l ∧ line ∉ requests.map Prod.fst := by
        simpa only [List.map_cons, List.mem_cons, not_or] using hline
      exact (ih _ hrest).trans (find?_tokensForLine hl)

theorem find?_askAll_of_mem (e : Engine Tree Query) (h : Highlighter P Query)
    (hnodup : (requests.map Prod.fst).Nodup) (hmem : (line, span) ∈ requests) :
    (h.askAll e requests).2.cache.find? line = (h.tokensForLine e line span).2.cache.find? line := by
  induction requests generalizing h with
  | nil => cases hmem
  | cons request requests ih =>
      obtain ⟨l, s⟩ := request
      obtain ⟨hl, hrest⟩ := List.nodup_cons.mp hnodup
      rcases List.mem_cons.mp hmem with heq | hmem
      · obtain ⟨rfl, rfl⟩ := Prod.mk.inj heq
        exact find?_askAll_of_not_mem e _ hl
      · have hagree : Agree e line (h.tokensForLine e l s).2 h := .of_other (ne_of_nodup_cons hnodup hmem)
        exact (ih _ hrest hmem).trans (hagree.tokensForLine_eq span).2

theorem find?_askAll_of_perm (e : Engine Tree Query) (h : Highlighter P Query)
    (hnodup : (requests.map Prod.fst).Nodup) (hperm : permuted.Perm requests) (line : LineId) :
    (h.askAll e permuted).2.cache.find? line = (h.askAll e requests).2.cache.find? line := by
  have hlines : (permuted.map Prod.fst).Perm (requests.map Prod.fst) := hperm.map _
  by_cases hline : line ∈ requests.map Prod.fst
  · obtain ⟨⟨line, span⟩, hmem, rfl⟩ := List.mem_map.mp hline
    rw [find?_askAll_of_mem e h hnodup hmem,
      find?_askAll_of_mem e h (hlines.nodup_iff.mpr hnodup) (hperm.mem_iff.mpr hmem)]
  · rw [find?_askAll_of_not_mem e h hline, find?_askAll_of_not_mem e h (hlines.mem_iff.not.mpr hline)]

/-- The order in which lines are asked for changes nothing: not what is answered for each, and of the
state after it neither the query nor anything that is found. -/
theorem askAll_perm (e : Engine Tree Query) (h : Highlighter P Query)
    (hnodup : (requests.map Prod.fst).Nodup) (hperm : permuted.Perm requests) :
    (h.askAll e permuted).1.Perm (h.askAll e requests).1 ∧
      (h.askAll e requests).1 = requests.map (fun r => (r.1, (h.tokensForLine e r.1 r.2).1)) ∧
      (h.askAll e permuted).2.generation = (h.askAll e requests).2.generation ∧
      (h.askAll e permuted).2.slot = (h.askAll e requests).2.slot ∧
      (h.askAll e permuted).2.cachedLines = (h.askAll e requests).2.cachedLines ∧
      ∀ line, (h.askAll e permuted).2.fetch line = (h.askAll e requests).2.fetch line := by
  have hnodup' : (permuted.map Prod.fst).Nodup := (hperm.map _).nodup_iff.mpr hnodup
  have hclear : (h.askAll e permuted).2.clear = (h.askAll e requests).2.clear := by
    simp only [clear_askAll, ← List.length_eq_zero_iff, hperm.length_eq]
  have hslot : (h.askAll e permuted).2.slot = (h.askAll e requests).2.slot := by
    have hsame := congrArg slot hclear
    exact hsame
  have hentry := find?_askAll_of_perm e h hnodup hperm
  refine ⟨?_, askAll_fst e h hnodup, congrArg QuerySlot.generation hslot, hslot,
    Table.size_eq_of_get?_eq hentry, ?_⟩
  · rw [askAll_fst e h hnodup, askAll_fst e h hnodup']
    exact hperm.map _
  · intro line
    apply Option.ext
    intro tokens
    rw [fetch_eq_some_iff, fetch_eq_some_iff, hentry, generation, hslot]
    rfl

def unprepared : Highlighter (IncrementalParser Unit) Grammar where
  policy := fun _ => { font := { bold := true } }
  parser := some (IncrementalParser.parse rustOnly { grammar := { language := .rust } } "fn f\nfn g")
  cache := Cache.empty.store 0 [] 0

theorem askAll_perm_unprepared :
    let requests : List (LineId × Span) := [(0, ⟨0, 4⟩), (1, ⟨5, 4⟩), (7, ⟨0, 0⟩)]
    let permuted : List (LineId × Span) := [(7, ⟨0, 0⟩), (1, ⟨5, 4⟩), (0, ⟨0, 4⟩)]
    (requests.map Prod.fst).Nodup ∧ permuted.Perm requests ∧
      unprepared.fetch 0 = some [] ∧ (unprepared.prepare rustOnly).fetch 0 = none ∧
      (unprepared.askAll rustOnly permuted).1.Perm (unprepared.askAll rustOnly requests).1 ∧
      (unprepared.askAll rustOnly permuted).2.cachedLines = (unprepared.askAll rustOnly requests).2.cachedLines ∧
      ∀ line, (unprepared.askAll rustOnly permuted).2.fetch line =
        (unprepared.askAll rustOnly requests).2.fetch line := by
  intro requests permuted
  have hnodup : (requests.map Prod.fst).Nodup := by decide
  have hperm : permuted.Perm requests := by decide
  obtain ⟨hanswers, -, -, -, hcached, hfetch⟩ := askAll_perm rustOnly unprepared hnodup hperm
  exact ⟨hnodup, hperm, rfl, rfl, hanswers, hcached, hfetch⟩

end Highlighter
end LineTint
