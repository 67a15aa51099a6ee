import LineTint.Highlighter

namespace LineTint

namespace Table

variable {κ α : Type} [DecidableEq κ]

theorem get?_filter (p : κ → α → Bool) (t : Table κ α) (k : κ) :
    (t.filter p).get? k = (t.get? k).filter (p k) := by
  apply Option.ext
  intro a
  simp only [Option.filter_eq_some_iff, get?_eq_some_iff, filter, List.mem_filter]

theorem mem_keys_iff {t : Table κ α} {k : κ} : k ∈ t.keys ↔ ∃ a, t.get? k = some a := by
  constructor
  · intro h
    obtain ⟨⟨k, a⟩, hmem, rfl⟩ := List.mem_map.mp h
    exact ⟨a, get?_eq_some_iff.mpr hmem⟩
  · rintro ⟨a, h⟩
    exact List.mem_map.mpr ⟨(k, a), mem_of_get? h, rfl⟩

end Table

namespace Cache

theorem find?_empty (line : LineId) : (Cache.find? {} line) = none := rfl

theorem find?_invalidate (c : Cache) (line l : LineId) :
    (c.invalidate line).find? l = if line = l then none else c.find? l :=
  Table.get?_erase c.table line l

theorem find?_store (c : Cache) (line l : LineId) (tokens : List Token) (g : Generation) :
    (c.store line tokens g).find? l = if line = l then some ⟨g, tokens⟩ else c.find? l :=
  Table.get?_insert c.table line l ⟨g, tokens⟩

theorem find?_retain (c : Cache) (g : Generation) (line : LineId) :
    (c.retain g).find? line = (c.find? line).filter (·.generation = g) :=
  Table.get?_filter _ c.table line

def restrict (c : Cache) (keep : LineId → Prop) [DecidablePred keep] : Cache :=
  ⟨c.table.filter fun line _ => keep line⟩

theorem find?_restrict {c : Cache} {keep : LineId → Prop} [DecidablePred keep] {line : LineId} {entry : Entry} :
    (c.restrict keep).find? line = some entry ↔ c.find? line = some entry ∧ keep line := by
  have h := Table.get?_filter (fun line _ => decide (keep line)) c.table line
  change (c.restrict keep).find? line = _ at h
  rw [h, Option.filter_eq_some_iff, decide_eq_true_eq]
  rfl

theorem restrict_restrict (c : Cache) (keep keep' : LineId → Prop) [DecidablePred keep] [DecidablePred keep'] :
    (c.restrict keep).restrict keep' = c.restrict fun line => keep' line ∧ keep line := by
  simp only [restrict, Table.filter, List.filter_filter, Bool.decide_and]

theorem restrict_congr (c : Cache) {keep keep' : LineId → Prop} [DecidablePred keep] [DecidablePred keep']
    (h : ∀ line, keep line ↔ keep' line) : c.restrict keep = c.restrict keep' := by
  simp only [restrict, h]

theorem restrict_of_forall (c : Cache) {keep : LineId → Prop} [DecidablePred keep] (h : ∀ line, keep line) :
    c.restrict keep = c := by
  obtain ⟨⟨entries, nodup⟩⟩ := c
  simp [restrict, Table.filter, h]

theorem fetch_eq_some_iff {c : Cache} {line : LineId} {g : Generation} {tokens : List Token} :
    c.fetch line g = some tokens ↔ c.find? line = some ⟨g, tokens⟩ := by
  unfold fetch
  cases c.find? line with
  | none => simp
  | some entry =>
      obtain ⟨g', tokens'⟩ := entry
      by_cases hg : g' = g <;> simp [hg]

end Cache

namespace Highlighter

variable {P Tree Query : Type}

theorem fetch_eq_some_iff {h : Highlighter P Query} {line : LineId} {tokens : List Token} :
    h.fetch line = some tokens ↔ h.cache.find? line = some ⟨h.generation, tokens⟩ :=
  Cache.fetch_eq_some_iff

variable [SyntaxParser P Tree]

def Installs (e : Engine Tree Query) (h : Highlighter P Query) : Prop :=
  h.slot.query? = none ∧ (h.prepare e).slot.query?.isSome

theorem prepare_cases (e : Engine Tree Query) (h : Highlighter P Query) :
    (h.Installs e ∧ (h.prepare e).generation = h.generation + 1) ∨
      (¬ h.Installs e ∧ (h.prepare e).generation = h.generation ∧
        (h.prepare e).slot.query? = h.slot.query?) := by
  unfold Installs prepare QuerySlot.prepare QuerySlot.prepareM generation
  cases hs : h.slot.state with
  | ready q | failed => right; simp [QuerySlot.query?, hs]
  | unprepared =>
      cases hg : h.parser.bind SyntaxParser.grammar? with
      | none => right; simp [QuerySlot.query?, hs]
      | some g =>
          cases hc : e.compile g with
          | none => right; simp [QuerySlot.query?, hs, hc]
          | some q => left; simp [QuerySlot.query?, hs, hc]

/-- The tokens of a line computed anew, without a look at the cache. -/
def computed (e : Engine Tree Query) (h : Highlighter P Query) (span : Span) :
    Except HighlightError (List Token) :=
  (h.captures e span).map (h.attributes · span)

theorem tokensForLine_eq (e : Engine Tree Query) (h : Highlighter P Query) (line : LineId) (span : Span) :
    h.tokensForLine e line span =
      match (h.prepare e).fetch line with
      | some tokens => (.ok tokens, h.prepare e)
      | none =>
        match (h.prepare e).computed e span with
        | .ok tokens => (.ok tokens, { h.prepare e with
            cache := (h.prepare e).cache.store line tokens (h.prepare e).generation })
        | .error cause => (.error cause, h.prepare e) := by
  simp only [tokensForLine, Cache.getOrInsertM, fetch, computed]
  cases (h.prepare e).cache.fetch line (h.prepare e).generation with
  | some tokens => rfl
  | none =>
      cases hc : ((h.prepare e).captures e span).map ((h.prepare e).attributes · span) with
      | ok tokens | error cause => rfl

def Met (changes : List Span) (lines : List (LineId × Span)) (line : LineId) : Prop :=
  ∃ span, (line, span) ∈ lines ∧ ∃ c ∈ changes, c.touches span = true

theorem met_cons {changes : List Span} {line l : LineId} {span : Span} {lines : List (LineId × Span)} :
    Met changes ((line, span) :: lines) l ↔
      (l = line ∧ changes.any (·.touches span) = true) ∨ Met changes lines l := by
  simp only [Met, List.mem_cons, Prod.mk.injEq, List.any_eq_true]
  constructor
  · rintro ⟨s, ⟨rfl, rfl⟩ | hs, ht⟩
    · exact Or.inl ⟨rfl, ht⟩
    · exact Or.inr ⟨s, hs, ht⟩
  · rintro (⟨rfl, ht⟩ | ⟨s, hs, ht⟩)
    · exact ⟨span, Or.inl ⟨rfl, rfl⟩, ht⟩
    · exact ⟨s, Or.inr hs, ht⟩

theorem reparsed_of_unknown {h : Highlighter P Query} (lines : List (LineId × Span))
    (hc : h.parser.bind SyntaxParser.changes? = none) : h.reparsed lines = h.clear := by
  simp [reparsed, hc, treeReplaced]

theorem reparsed_cons {h : Highlighter P Query} {changes : List Span} (line : LineId) (span : Span)
    (lines : List (LineId × Span)) (hc : h.parser.bind SyntaxParser.changes? = some changes) :
    h.reparsed ((line, span) :: lines) =
      if changes.any (·.touches span) then (h.invalidate line).reparsed lines else h.reparsed lines := by
  by_cases ht : changes.any (·.touches span)
  · have hc' : (h.invalidate line).parser.bind SyntaxParser.changes? = some changes := hc
    simp only [reparsed, hc, hc', ht, if_true, List.foldl_cons]
  · simp only [reparsed, hc, ht, if_false, List.foldl_cons, Bool.false_eq_true]

instance (changes : List Span) (lines : List (LineId × Span)) (line : LineId) : Decidable (Met changes lines line) :=
  decidable_of_iff (∃ request ∈ lines, request.1 = line ∧ ∃ c ∈ changes, c.touches request.2 = true) (by
    constructor
    · rintro ⟨⟨l, span⟩, hmem, rfl, hmeet⟩
      exact ⟨span, hmem, hmeet⟩
    · rintro ⟨span, hmem, hmeet⟩
      exact ⟨(line, span), hmem, rfl, hmeet⟩)

/-- Where the changes are known, the entries of the lines that meet one go, and nothing else. -/
theorem reparsed_eq_restrict {h : Highlighter P Query} {changes : List Span} (lines : List (LineId × Span))
    (hc : h.parser.bind SyntaxParser.changes? = some changes) :
    h.reparsed lines = { h with cache := h.cache.restrict fun line => ¬ Met changes lines line } := by
  induction lines generalizing h with
  | nil =>
      have hall (line : LineId) : ¬ Met changes [] line := fun ⟨_, hmem, _⟩ => nomatch hmem
      rw [h.cache.restrict_of_forall hall]
      simp [reparsed, hc]
  | cons request lines ih =>
      obtain ⟨line, span⟩ := request
      rw [reparsed_cons line span lines hc]
      split
      next ht =>
        have hkeep (l : LineId) : (¬ Met changes lines l ∧ l ≠ line) ↔ ¬ Met changes ((line, span) :: lines) l := by
          rw [met_cons, not_or, and_comm]
          simp [ht]
        have hinvalidate : (h.invalidate line).cache = h.cache.restrict (· ≠ line) := rfl
        rw [ih (h := h.invalidate line) hc, hinvalidate, Cache.restrict_restrict, h.cache.restrict_congr hkeep]
        rfl
      next ht =>
        have hkeep (l : LineId) : ¬ Met changes lines l ↔ ¬ Met changes ((line, span) :: lines) l := by
          rw [met_cons]
          simp [ht]
        rw [ih hc, h.cache.restrict_congr hkeep]

theorem reparsed_of_known {h : Highlighter P Query} {changes : List Span} (lines : List (LineId × Span))
    (hc : h.parser.bind SyntaxParser.changes? = some changes) :
    ∃ cache, h.reparsed lines = { h with cache } ∧
      ∀ l entry, cache.find? l = some entry ↔ h.cache.find? l = some entry ∧ ¬ Met changes lines l :=
  ⟨_, reparsed_eq_restrict lines hc, fun _ _ => Cache.find?_restrict⟩

end Highlighter
end LineTint
