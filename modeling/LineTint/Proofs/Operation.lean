import LineTint.Proofs.Entry

namespace LineTint

inductive Operation (P : Type) where
  | store (line : LineId) (tokens : List Token) (generation : Generation)
  | fetch (line : LineId)
  | tokensForLine (line : LineId) (span : Span)
  | captures (span : Span)
  | prepare
  | reset
  | clear
  | invalidate (line : LineId)
  | pruneStale
  | treeReplaced
  | reparsed (lines : List (LineId × Span))
  | setParser (parser : Option P)
  | setPolicy (policy : StylePolicy)
  | mapParser (change : P → P)

namespace Highlighter

variable {P Tree Query : Type}

/-- Without a query every entry has the current stamp. A query that is installed leaves the entries
from before it one generation behind, and no entry falls further back. -/
def Stamped (h : Highlighter P Query) : Prop :=
  ∀ line entry, h.cache.find? line = some entry →
    entry.generation = h.generation ∨
      (h.slot.query?.isSome ∧ entry.generation + 1 = h.generation)

theorem Stamped.of_empty {h : Highlighter P Query} (hc : h.cache = {}) : h.Stamped := by
  intro line entry hentry
  rw [hc, Cache.find?_empty] at hentry
  cases hentry

theorem Stamped.of_subset {h k : Highlighter P Query} (hs : h.Stamped) (hslot : k.slot = h.slot)
    (hsub : ∀ line entry, k.cache.find? line = some entry → h.cache.find? line = some entry) :
    k.Stamped := by
  intro line entry hentry
  simpa only [generation, hslot] using hs line entry (hsub line entry hentry)

theorem Stamped.store {h : Highlighter P Query} (hs : h.Stamped) (line : LineId) (tokens : List Token) :
    Stamped { h with cache := h.cache.store line tokens h.generation } := by
  intro l entry hentry
  change (h.cache.store line tokens h.generation).find? l = some entry at hentry
  rw [Cache.find?_store] at hentry
  split at hentry
  next => cases hentry; exact Or.inl rfl
  next => exact hs l entry hentry

variable [SyntaxParser P Tree]

def perform (e : Engine Tree Query) (h : Highlighter P Query) : Operation P → Highlighter P Query
  | .store line tokens g => (h.store line tokens g).2
  | .fetch _ | .captures _ => h
  | .tokensForLine line span => (h.tokensForLine e line span).2
  | .prepare => h.prepare e
  | .reset => h.reset
  | .clear => h.clear
  | .invalidate line => h.invalidate line
  | .pruneStale => h.pruneStale
  | .treeReplaced => h.treeReplaced
  | .reparsed lines => h.reparsed lines
  | .setParser parser => h.setParser parser
  | .setPolicy policy => h.setPolicy policy
  | .mapParser change => h.mapParser change

def run (e : Engine Tree Query) (h : Highlighter P Query) (ops : List (Operation P)) :
    Highlighter P Query :=
  ops.foldl (perform e) h

theorem run_append (e : Engine Tree Query) (h : Highlighter P Query) (ops more : List (Operation P)) :
    h.run e (ops ++ more) = (h.run e ops).run e more :=
  List.foldl_append

theorem Stamped.prepare {h : Highlighter P Query} (hs : h.Stamped) (e : Engine Tree Query) :
    (h.prepare e).Stamped := by
  intro line entry hentry
  have hold := hs line entry hentry
  rcases prepare_cases e h with ⟨⟨hnone, hsome⟩, hgen⟩ | ⟨-, hgen, hquery⟩
  · rw [hnone] at hold
    right
    refine ⟨hsome, ?_⟩
    rcases hold with hold | hold
    · rw [hold, hgen]
    · cases hold.1
  · rwa [hgen, hquery]

theorem Stamped.tokensForLine {h : Highlighter P Query} (hs : h.Stamped) (e : Engine Tree Query)
    (line : LineId) (span : Span) : (h.tokensForLine e line span).2.Stamped := by
  rw [tokensForLine_eq]
  split
  next => exact hs.prepare e
  next =>
    split
    next tokens _ => exact (hs.prepare e).store line tokens
    next => exact hs.prepare e

theorem Stamped.reparsed {h : Highlighter P Query} (hs : h.Stamped) (lines : List (LineId × Span)) :
    (h.reparsed lines).Stamped := by
  cases hc : h.parser.bind SyntaxParser.changes? with
  | none =>
      rw [reparsed_of_unknown lines hc]
      exact .of_empty rfl
  | some changes =>
      obtain ⟨cache, heq, hentry⟩ := reparsed_of_known lines hc
      rw [heq]
      exact hs.of_subset rfl (fun l entry h => ((hentry l entry).mp h).1)

theorem Stamped.perform {h : Highlighter P Query} (hs : h.Stamped) (e : Engine Tree Query)
    (op : Operation P) : (h.perform e op).Stamped := by
  cases op with
  | store line tokens g =>
      simp only [Highlighter.perform, Highlighter.store]
      split
      next hg => subst g; exact hs.store line tokens
      next => exact hs
  | fetch | captures => exact hs
  | tokensForLine line span => exact hs.tokensForLine e line span
  | prepare => exact hs.prepare e
  | reset | clear | treeReplaced | setParser | setPolicy => exact .of_empty rfl
  | invalidate line =>
      refine hs.of_subset rfl (fun l entry hentry => ?_)
      change (h.cache.invalidate line).find? l = some entry at hentry
      rw [Cache.find?_invalidate] at hentry
      split at hentry
      next => cases hentry
      next => exact hentry
  | pruneStale =>
      refine hs.of_subset rfl (fun l entry hentry => ?_)
      change (h.cache.retain h.generation).find? l = some entry at hentry
      rw [Cache.find?_retain, Option.filter_eq_some_iff] at hentry
      exact hentry.1
  | reparsed lines => exact hs.reparsed lines
  | mapParser change => exact hs

theorem Stamped.run {h : Highlighter P Query} (hs : h.Stamped) (e : Engine Tree Query)
    (ops : List (Operation P)) : (h.run e ops).Stamped := by
  induction ops generalizing h with
  | nil => exact hs
  | cons op ops ih => exact ih (hs.perform e op)

/-- A query that is installed makes every entry stale; else preparing is of no consequence. -/
theorem Stamped.fetch_prepare {h : Highlighter P Query} (hs : h.Stamped) (e : Engine Tree Query)
    {line : LineId} {tokens : List Token} :
    (h.prepare e).fetch line = some tokens ↔ ¬ h.Installs e ∧ h.fetch line = some tokens := by
  simp only [fetch_eq_some_iff]
  change h.cache.find? line = some ⟨(h.prepare e).generation, tokens⟩ ↔ _
  rcases prepare_cases e h with ⟨hinst, hgen⟩ | ⟨hinst, hgen, -⟩
  · refine ⟨fun hentry => ?_, fun hn => absurd hinst hn.1⟩
    have hstamp := hs line _ hentry
    rw [hinst.1, hgen] at hstamp
    simp at hstamp
  · simp [hgen, hinst]

end Highlighter
end LineTint
