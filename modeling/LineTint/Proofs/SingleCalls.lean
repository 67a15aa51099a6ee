import LineTint.Proofs.Entry

namespace LineTint.Highlighter

variable {P Tree Query : Type} [SyntaxParser P Tree]

def singleCalls (e : Engine Tree Query) (h : Highlighter P Query) (line : LineId) (span : Span) :
    Except HighlightError (List Token) × Highlighter P Query :=
  let h := h.prepare e
  match h.fetch line with
  | some tokens => (.ok tokens, h)
  | none =>
    match h.captures e span with
    | .error cause => (.error cause, h)
    | .ok captures =>
      let tokens := h.attributes captures span
      (.ok tokens, (h.store line tokens h.generation).2)

/-- What there is not. A tree is missed only where there is a parser, and the query only where there is
a tree too. -/
def Lacks (h : Highlighter P Query) : HighlightError → Prop
  | .noParser => h.parser = none
  | .noTree => ∃ p, h.parser = some p ∧ SyntaxParser.tree? p = none
  | .noQuery => ∃ p tree, h.parser = some p ∧ SyntaxParser.tree? p = some tree ∧ h.slot.query? = none

theorem captures_eq_error_iff {e : Engine Tree Query} {h : Highlighter P Query} {span : Span}
    {cause : HighlightError} : h.captures e span = .error cause ↔ h.Lacks cause := by
  unfold captures
  cases hp : h.parser with
  | none => cases cause <;> simp [Lacks, hp]
  | some p =>
      cases ht : SyntaxParser.tree? p with
      | none => cases cause <;> simp [Lacks, hp, ht]
      | some tree =>
          cases hq : h.slot.query? with
          | none => cases cause <;> simp [Lacks, hp, ht, hq]
          | some q => cases cause <;> simp [Lacks, hp, ht, hq]

theorem store_current (h : Highlighter P Query) (line : LineId) (tokens : List Token) :
    h.store line tokens h.generation = (true, { h with cache := h.cache.store line tokens h.generation }) :=
  if_pos rfl

variable {e : Engine Tree Query} {h : Highlighter P Query} {line : LineId} {span : Span}

theorem tokensForLine_of_fetch {tokens : List Token} (hf : (h.prepare e).fetch line = some tokens) :
    h.tokensForLine e line span = (.ok tokens, h.prepare e) := by
  rw [tokensForLine_eq, hf]

theorem tokensForLine_of_error {cause : HighlightError} (hf : (h.prepare e).fetch line = none)
    (hc : (h.prepare e).captures e span = .error cause) :
    h.tokensForLine e line span = (.error cause, h.prepare e) := by
  rw [tokensForLine_eq, hf, computed, hc]
  rfl

theorem tokensForLine_of_captures {captures : List Capture} (hf : (h.prepare e).fetch line = none)
    (hc : (h.prepare e).captures e span = .ok captures) :
    h.tokensForLine e line span = (.ok ((h.prepare e).attributes captures span),
      ((h.prepare e).store line ((h.prepare e).attributes captures span) (h.prepare e).generation).2) := by
  rw [tokensForLine_eq, hf, computed, hc, store_current]
  rfl

theorem tokensForLine_cases (e : Engine Tree Query) (h : Highlighter P Query) (line : LineId) (span : Span) :
    (∃ tokens, (h.prepare e).fetch line = some tokens ∧
        h.tokensForLine e line span = (.ok tokens, h.prepare e)) ∨
      (h.prepare e).fetch line = none ∧
        ((∃ cause, (h.prepare e).captures e span = .error cause ∧
            h.tokensForLine e line span = (.error cause, h.prepare e)) ∨
          ∃ captures, (h.prepare e).captures e span = .ok captures ∧
            h.tokensForLine e line span = (.ok ((h.prepare e).attributes captures span),
              ((h.prepare e).store line ((h.prepare e).attributes captures span)
                (h.prepare e).generation).2)) := by
  cases hf : (h.prepare e).fetch line with
  | some tokens => exact Or.inl ⟨tokens, rfl, tokensForLine_of_fetch hf⟩
  | none =>
      refine Or.inr ⟨rfl, ?_⟩
      cases hc : (h.prepare e).captures e span with
      | error cause => exact Or.inl ⟨cause, rfl, tokensForLine_of_error hf hc⟩
      | ok captures => exact Or.inr ⟨captures, rfl, tokensForLine_of_captures hf hc⟩

theorem tokensForLine_eq_singleCalls : h.tokensForLine e line span = h.singleCalls e line span := by
  obtain ⟨tokens, hf, heq⟩ | ⟨hf, ⟨cause, hc, heq⟩ | ⟨captures, hc, heq⟩⟩ := h.tokensForLine_cases e line span
  · simp only [heq, singleCalls, hf]
  · simp only [heq, singleCalls, hf, hc]
  · simp only [heq, singleCalls, hf, hc]

theorem tokensForLine_eq_error_iff {cause : HighlightError} :
    (h.tokensForLine e line span).1 = .error cause ↔
      (h.prepare e).fetch line = none ∧ (h.prepare e).Lacks cause := by
  rw [← @captures_eq_error_iff _ _ _ _ e _ span]
  obtain ⟨tokens, hf, heq⟩ | ⟨hf, ⟨cause, hc, heq⟩ | ⟨captures, hc, heq⟩⟩ := h.tokensForLine_cases e line span
  · simp [heq, hf]
  · simp [heq, hf, hc]
  · simp [heq, hf, hc]

theorem tokensForLine_state_of_error {cause : HighlightError}
    (herror : (h.tokensForLine e line span).1 = .error cause) :
    (h.tokensForLine e line span).2 = h.prepare e := by
  obtain ⟨hf, hlacks⟩ := tokensForLine_eq_error_iff.mp herror
  rw [tokensForLine_of_error hf (captures_eq_error_iff.mpr hlacks)]

theorem fetch_tokensForLine {tokens : List Token} (hok : (h.tokensForLine e line span).1 = .ok tokens) :
    (h.tokensForLine e line span).2.fetch line = some tokens := by
  obtain ⟨found, hf, heq⟩ | ⟨-, ⟨cause, -, heq⟩ | ⟨captures, -, heq⟩⟩ := h.tokensForLine_cases e line span
  · rw [heq] at hok ⊢
    rw [hf, Except.ok.inj hok]
  · rw [heq] at hok
    cases hok
  · rw [heq] at hok ⊢
    rw [store_current, Except.ok.inj hok, fetch_eq_some_iff]
    exact (Cache.find?_store _ line line tokens _).trans (if_pos rfl)

theorem find?_tokensForLine {l : LineId} (hl : l ≠ line) :
    (h.tokensForLine e line span).2.cache.find? l = h.cache.find? l := by
  obtain ⟨found, -, heq⟩ | ⟨-, ⟨cause, -, heq⟩ | ⟨captures, -, heq⟩⟩ := h.tokensForLine_cases e line span
  · rw [heq]; rfl
  · rw [heq]; rfl
  · rw [heq, store_current]
    exact (Cache.find?_store _ line l _ _).trans (if_neg hl.symm)

/-- Asking for the tokens of a line is the same as the single calls. What is found is answered, whatever
the span and the parser; a failure says what there is not, and leaves behind what preparing the query
alone does, every entry included. -/
theorem tokensForLine_by_single_calls (e : Engine Tree Query) (h : Highlighter P Query) (line : LineId)
    (span : Span) :
    h.tokensForLine e line span = h.singleCalls e line span ∧
      (∀ tokens, (h.prepare e).fetch line = some tokens →
        h.tokensForLine e line span = (.ok tokens, h.prepare e)) ∧
      (∀ cause, (h.tokensForLine e line span).1 = .error cause ↔
        (h.prepare e).fetch line = none ∧ (h.prepare e).Lacks cause) ∧
      (∀ cause, (h.tokensForLine e line span).1 = .error cause →
        (h.tokensForLine e line span).2 = h.prepare e ∧ (h.tokensForLine e line span).2.cache = h.cache) ∧
      (∀ tokens, (h.tokensForLine e line span).1 = .ok tokens →
        (h.tokensForLine e line span).2.fetch line = some tokens) ∧
      ∀ l, l ≠ line → (h.tokensForLine e line span).2.cache.find? l = h.cache.find? l := by
  refine ⟨tokensForLine_eq_singleCalls, ?_, ?_, ?_, ?_, ?_⟩
  · intro tokens hf
    exact tokensForLine_of_fetch hf
  · intro cause
    exact tokensForLine_eq_error_iff
  · intro cause herror
    have hstate := tokensForLine_state_of_error herror
    exact ⟨hstate, by rw [hstate]; rfl⟩
  · intro tokens hok
    exact fetch_tokensForLine hok
  · intro l hl
    exact find?_tokensForLine hl

end LineTint.Highlighter
