import LineTint.Proofs.Entry
import Mathlib.Order.Interval.Set.LinearOrder

namespace LineTint

namespace Span

def closed (s : Span) : Set Nat := Set.Icc s.start.toNat (min (s.start.toNat + s.len.toNat) Offset.last.toNat)

theorem closed_eq (s : Span) : s.closed = Set.Icc s.start.toNat s.stop.toNat := by
  rw [closed, toNat_stop]

theorem touches_iff {s t : Span} : s.touches t = true ↔ (s.closed ∩ t.closed).Nonempty := by
  have hs := UInt64.le_iff_toNat_le.mp s.start_le_stop
  have ht := UInt64.le_iff_toNat_le.mp t.start_le_stop
  rw [touches, Bool.and_eq_true, decide_eq_true_eq, decide_eq_true_eq, UInt64.le_iff_toNat_le,
    UInt64.le_iff_toNat_le, closed_eq, closed_eq, Set.Icc_inter_Icc, Set.nonempty_Icc, sup_le_iff, le_inf_iff,
    le_inf_iff]
  omega

/-- The two begin or end at one offset, or one begins where the other ends. -/
def SharesBoundary (s t : Span) : Prop :=
  s.start = t.start ∨ s.start = t.stop ∨ s.stop = t.start ∨ s.stop = t.stop

theorem SharesBoundary.meets {s t : Span} (h : s.SharesBoundary t) : (s.closed ∩ t.closed).Nonempty := by
  have hs := UInt64.le_iff_toNat_le.mp s.start_le_stop
  have ht := UInt64.le_iff_toNat_le.mp t.start_le_stop
  rw [closed_eq, closed_eq]
  rcases h with h | h | h | h
  · exact ⟨t.start.toNat, ⟨by rw [h], by rwa [← h]⟩, le_rfl, ht⟩
  · exact ⟨t.stop.toNat, ⟨by rw [h], by rwa [← h]⟩, ht, le_rfl⟩
  · exact ⟨t.start.toNat, ⟨by rwa [← h], by rw [h]⟩, le_rfl, ht⟩
  · exact ⟨t.stop.toNat, ⟨by rwa [← h], by rw [h]⟩, ht, le_rfl⟩

end Span

namespace Highlighter

variable {P Tree Query : Type} {changes more : List Span} {lines lines' : List (LineId × Span)} {line : LineId}

/-- The line is listed with a span that has an offset in common with a change, the ends included. -/
def Touched (changes : List Span) (lines : List (LineId × Span)) (line : LineId) : Prop :=
  ∃ span, (line, span) ∈ lines ∧ ∃ c ∈ changes, (c.closed ∩ span.closed).Nonempty

theorem touched_iff_met : Touched changes lines line ↔ Met changes lines line := by
  simp only [Touched, Met, Span.touches_iff]

instance (changes : List Span) (lines : List (LineId × Span)) (line : LineId) :
    Decidable (Touched changes lines line) :=
  decidable_of_iff _ touched_iff_met.symm

theorem Touched.mono (h : Touched changes lines line) (hsub : changes ⊆ more) : Touched more lines line := by
  obtain ⟨span, hmem, c, hc, hmeet⟩ := h
  exact ⟨span, hmem, c, hsub hc, hmeet⟩

theorem touched_perm (hlines : lines'.Perm lines) (hchanges : more.Perm changes) :
    Touched more lines' line ↔ Touched changes lines line := by
  simp only [Touched, hlines.mem_iff, hchanges.mem_iff]

variable [SyntaxParser P Tree] {h : Highlighter P Query} {p : P}

theorem changes_cases (h : Highlighter P Query) :
    (h.parser = none ∨ ∃ p, h.parser = some p ∧ SyntaxParser.changes? p = none) ∨
      ∃ p changes, h.parser = some p ∧ SyntaxParser.changes? p = some changes := by
  cases hp : h.parser with
  | none => exact Or.inl (Or.inl rfl)
  | some p =>
      cases hc : SyntaxParser.changes? p with
      | none => exact Or.inl (Or.inr ⟨p, rfl, hc⟩)
      | some changes => exact Or.inr ⟨p, changes, rfl, hc⟩

theorem reparsed_of_changes (lines : List (LineId × Span)) (hp : h.parser = some p)
    (hc : SyntaxParser.changes? p = some changes) :
    h.reparsed lines = { h with cache := h.cache.restrict fun line => ¬ Touched changes lines line } := by
  have hknown : h.parser.bind SyntaxParser.changes? = some changes := by rw [hp, Option.bind_some, hc]
  have hkeep (l : LineId) : ¬ Met changes lines l ↔ ¬ Touched changes lines l := not_congr touched_iff_met.symm
  rw [reparsed_eq_restrict lines hknown, h.cache.restrict_congr hkeep]

theorem reparsed_of_no_changes (lines : List (LineId × Span))
    (h' : h.parser = none ∨ ∃ p, h.parser = some p ∧ SyntaxParser.changes? p = none) :
    h.reparsed lines = { h with cache := {} } := by
  apply reparsed_of_unknown
  rcases h' with hp | ⟨p, hp, hc⟩
  · rw [hp, Option.bind_none]
  · rw [hp, Option.bind_some, hc]

theorem find?_reparsed {entry : Cache.Entry} (hp : h.parser = some p) (hc : SyntaxParser.changes? p = some changes) :
    (h.reparsed lines).cache.find? line = some entry ↔
      h.cache.find? line = some entry ∧ ¬ Touched changes lines line := by
  rw [reparsed_of_changes lines hp hc]
  exact Cache.find?_restrict

theorem reparsed_perm (h : Highlighter P Query) (hlines : lines'.Perm lines) : h.reparsed lines' = h.reparsed lines := by
  rcases h.changes_cases with hnone | ⟨p, changes, hp, hc⟩
  · rw [reparsed_of_no_changes lines' hnone, reparsed_of_no_changes lines hnone]
  · have hkeep (l : LineId) : ¬ Touched changes lines' l ↔ ¬ Touched changes lines l :=
      not_congr (touched_perm hlines (List.Perm.refl changes))
    rw [reparsed_of_changes lines' hp hc, reparsed_of_changes lines hp hc, h.cache.restrict_congr hkeep]

theorem reparsed_reparsed (h : Highlighter P Query) (lines : List (LineId × Span)) :
    (h.reparsed lines).reparsed lines = h.reparsed lines := by
  rcases h.changes_cases with hnone | ⟨p, changes, hp, hc⟩
  · rw [reparsed_of_no_changes lines hnone]
    exact reparsed_of_no_changes lines hnone
  · have hkeep (l : LineId) : (¬ Touched changes lines l ∧ ¬ Touched changes lines l) ↔ ¬ Touched changes lines l :=
      and_self_iff
    rw [reparsed_of_changes lines hp hc]
    refine (reparsed_of_changes (h := { h with cache := h.cache.restrict _ }) lines hp hc).trans ?_
    rw [Cache.restrict_restrict, h.cache.restrict_congr hkeep]

/-- After a new parse the cache has the entries that it had, but for the lines that are listed with a span
that meets a change; where the changes are not known it has none. All else stays as it is. So neither the
order of the lines nor that of the changes matters, and of more changes no fewer entries are dropped. -/
theorem reparsed_drops_touched (h : Highlighter P Query) (lines : List (LineId × Span)) :
    (∀ p changes, h.parser = some p → SyntaxParser.changes? p = some changes →
      h.reparsed lines = { h with cache := h.cache.restrict fun line => ¬ Touched changes lines line } ∧
      (∀ line entry, (h.reparsed lines).cache.find? line = some entry ↔
        h.cache.find? line = some entry ∧ ¬ Touched changes lines line) ∧
      ∀ line span, (line, span) ∈ lines → ∀ c ∈ changes, c.SharesBoundary span →
        (h.reparsed lines).cache.find? line = none) ∧
    (h.parser = none ∨ (∃ p, h.parser = some p ∧ SyntaxParser.changes? p = none) →
      h.reparsed lines = { h with cache := {} }) ∧
    (∀ lines', lines'.Perm lines → h.reparsed lines' = h.reparsed lines) ∧
    (h.reparsed lines).reparsed lines = h.reparsed lines ∧
    ∀ (p p' : P) (changes changes' : List Span),
      SyntaxParser.changes? p = some changes → SyntaxParser.changes? p' = some changes' →
      (changes'.Perm changes →
        ({ h with parser := some p' }.reparsed lines).cache = ({ h with parser := some p }.reparsed lines).cache) ∧
      (changes ⊆ changes' → ∀ line entry,
        ({ h with parser := some p' }.reparsed lines).cache.find? line = some entry →
          ({ h with parser := some p }.reparsed lines).cache.find? line = some entry) := by
  refine ⟨fun p changes hp hc => ⟨reparsed_of_changes lines hp hc, fun line entry => find?_reparsed hp hc, ?_⟩,
    reparsed_of_no_changes lines, fun lines' => h.reparsed_perm, h.reparsed_reparsed lines, ?_⟩
  · intro line span hline c hc' hshares
    rw [Option.eq_none_iff_forall_ne_some]
    intro entry hentry
    exact ((find?_reparsed hp hc).mp hentry).2 ⟨span, hline, c, hc', hshares.meets⟩
  · intro p p' changes changes' hc hc'
    constructor
    · intro hperm
      have hkeep (l : LineId) : ¬ Touched changes' lines l ↔ ¬ Touched changes lines l :=
        not_congr (touched_perm (List.Perm.refl lines) hperm)
      rw [reparsed_of_changes (p := p') lines rfl hc', reparsed_of_changes (p := p) lines rfl hc]
      exact h.cache.restrict_congr hkeep
    · intro hsub line entry hentry
      obtain ⟨hold, hfree⟩ := (find?_reparsed (p := p') rfl hc').mp hentry
      exact (find?_reparsed (p := p) rfl hc).mpr ⟨hold, fun ht => hfree (ht.mono hsub)⟩

end Highlighter
end LineTint
