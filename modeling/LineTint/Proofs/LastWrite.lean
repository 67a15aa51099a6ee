import LineTint.Proofs.History
import LineTint.Proofs.Operation
import Mathlib.Data.List.Induction

namespace LineTint.Highlighter

variable {P Tree Query : Type} [SyntaxParser P Tree]

def Writes (e : Engine Tree Query) (h : Highlighter P Query) (op : Operation P) (line : LineId)
    (tokens : List Token) : Prop :=
  match op with
  | .store l ts g => l = line ∧ ts = tokens ∧ (h.store l ts g).1 = true
  | .tokensForLine l span =>
      l = line ∧ (h.prepare e).fetch l = none ∧ (h.tokensForLine e l span).1 = .ok tokens
  | _ => False

/-- The call makes the highlighter forget what it had for the line; `tokensForLine` does so before
it writes. -/
def Forgets (e : Engine Tree Query) (h : Highlighter P Query) (op : Operation P) (line : LineId) : Prop :=
  match op with
  | .invalidate l => l = line
  | .clear | .treeReplaced | .reset | .setPolicy _ | .setParser _ => True
  | .reparsed lines =>
      match h.parser.bind SyntaxParser.changes? with
      | none => True
      | some changes => Met changes lines line
  | .prepare | .tokensForLine _ _ => h.Installs e
  | _ => False

theorem fetch_pruneStale (h : Highlighter P Query) (line : LineId) : h.pruneStale.fetch line = h.fetch line := by
  apply Option.ext
  intro tokens
  rw [fetch_eq_some_iff, fetch_eq_some_iff]
  change (h.cache.retain h.generation).find? line = some ⟨h.generation, tokens⟩ ↔ _
  rw [Cache.find?_retain, Option.filter_eq_some_iff]
  simp

theorem fetch_perform_store (h : Highlighter P Query) (e : Engine Tree Query) (l : LineId) (ts : List Token)
    (g : Generation) (line : LineId) (tokens : List Token) :
    (h.perform e (.store l ts g)).fetch line = some tokens ↔
      h.Writes e (.store l ts g) line tokens ∨
        (∀ ts', ¬ h.Writes e (.store l ts g) line ts') ∧ h.fetch line = some tokens := by
  by_cases hg : g = h.generation
  · subst g
    have hp : h.perform e (.store l ts h.generation) =
        { h with cache := h.cache.store l ts h.generation } := by simp [perform, store]
    rw [hp, fetch_eq_some_iff, fetch_eq_some_iff]
    change (h.cache.store l ts h.generation).find? line = some ⟨h.generation, tokens⟩ ↔ _
    rw [Cache.find?_store]
    by_cases hl : l = line <;> simp [Writes, store, hl]
  · simp [perform, Writes, store, hg]

theorem fetch_perform_tokensForLine {h : Highlighter P Query} (hs : h.Stamped) (e : Engine Tree Query)
    (l : LineId) (span : Span) (line : LineId) (tokens : List Token) :
    (h.perform e (.tokensForLine l span)).fetch line = some tokens ↔
      h.Writes e (.tokensForLine l span) line tokens ∨
        ¬ h.Installs e ∧ (∀ ts', ¬ h.Writes e (.tokensForLine l span) line ts') ∧
          h.fetch line = some tokens := by
  have hkept := @hs.fetch_prepare _ _ _ _ _ e line tokens
  simp only [perform, Writes, tokensForLine_eq]
  cases hf : (h.prepare e).fetch l with
  | some found => simp [hkept]
  | none =>
      cases hc : (h.prepare e).computed e span with
      | error cause => simp [hkept]
      | ok ts =>
          rw [fetch_eq_some_iff]
          change ((h.prepare e).cache.store l ts (h.prepare e).generation).find? line =
            some ⟨(h.prepare e).generation, tokens⟩ ↔ _
          rw [Cache.find?_store]
          by_cases hl : l = line
          · simp [hl]
          · simp [hl, ← fetch_eq_some_iff, hkept]

theorem fetch_perform_iff {h : Highlighter P Query} (hs : h.Stamped) (e : Engine Tree Query)
    (op : Operation P) (line : LineId) (tokens : List Token) :
    (h.perform e op).fetch line = some tokens ↔
      h.Writes e op line tokens ∨
        ¬ h.Forgets e op line ∧ (∀ ts, ¬ h.Writes e op line ts) ∧ h.fetch line = some tokens := by
  cases op with
  | store l ts g => simpa [Forgets] using fetch_perform_store h e l ts g line tokens
  | tokensForLine l span => exact fetch_perform_tokensForLine hs e l span line tokens
  | fetch | captures | mapParser => simp [Writes, Forgets, perform, mapParser, fetch, generation]
  | prepare => simpa [Writes, Forgets, perform] using hs.fetch_prepare e
  | reset | clear | treeReplaced | setParser | setPolicy =>
      simp [Writes, Forgets, perform, reset, clear, treeReplaced, setParser, setPolicy, fetch,
        Cache.fetch, Cache.find?_empty]
  | invalidate l =>
      rw [fetch_eq_some_iff, fetch_eq_some_iff]
      change (h.cache.invalidate l).find? line = some ⟨h.generation, tokens⟩ ↔ _
      rw [Cache.find?_invalidate]
      by_cases hl : l = line <;> simp [Writes, Forgets, hl]
  | pruneStale => simp [Writes, Forgets, perform, fetch_pruneStale]
  | reparsed lines =>
      cases hc : h.parser.bind SyntaxParser.changes? with
      | none =>
          simp [Writes, Forgets, perform, hc, reparsed_of_unknown, clear, fetch, Cache.fetch, Cache.find?_empty]
      | some changes =>
          obtain ⟨cache, heq, hentry⟩ := reparsed_of_known lines hc
          have hp : h.perform e (.reparsed lines) = { h with cache } := heq
          rw [hp, fetch_eq_some_iff, fetch_eq_some_iff]
          change cache.find? line = some ⟨h.generation, tokens⟩ ↔ _
          rw [hentry]
          simp [Writes, Forgets, hc, and_comm]

/-- The latest call to write for the line wrote these tokens, and no call since then has made the
highlighter forget them. -/
def LastWrote (e : Engine Tree Query) (h : Highlighter P Query) (ops : List (Operation P)) (line : LineId)
    (tokens : List Token) : Prop :=
  ∃ before op after, ops = before ++ op :: after ∧ (h.run e before).Writes e op line tokens ∧
    ∀ mid op' rest, after = mid ++ op' :: rest →
      ¬ (h.run e (before ++ op :: mid)).Forgets e op' line ∧
        ∀ ts, ¬ (h.run e (before ++ op :: mid)).Writes e op' line ts

theorem lastWrote_concat {e : Engine Tree Query} {h : Highlighter P Query} {ops : List (Operation P)}
    {op : Operation P} {line : LineId} {tokens : List Token} :
    LastWrote e h (ops ++ [op]) line tokens ↔
      (h.run e ops).Writes e op line tokens ∨
        ¬ (h.run e ops).Forgets e op line ∧ (∀ ts, ¬ (h.run e ops).Writes e op line ts) ∧
          LastWrote e h ops line tokens :=
  WriteRule.last_concat {
    step := perform e
    Writes := fun h op => h.Writes e op line
    Removes := fun h op _ => h.Forgets e op line }

def Quiet (h : Highlighter P Query) : Operation P → Prop
  | .fetch _ | .captures _ | .pruneStale => True
  | .store line tokens g => (h.store line tokens g).1 = false
  | _ => False

theorem run_concat (e : Engine Tree Query) (h : Highlighter P Query) (ops : List (Operation P))
    (op : Operation P) : h.run e (ops ++ [op]) = (h.run e ops).perform e op := by
  rw [run_append]
  rfl

/-- The law of the last write. The start is a highlighter of which nothing has been asked; generations
may wrap any number of times in the calls that follow. -/
theorem fetch_run_iff_lastWrote (e : Engine Tree Query) (policy : StylePolicy) (parser : Option P)
    (ops : List (Operation P)) (line : LineId) :
    (∀ tokens, (run e { policy, parser } ops).fetch line = some tokens ↔
        LastWrote e { policy, parser } ops line tokens) ∧
      ∀ op, (run e { policy, parser } ops).Quiet op →
        (run e { policy, parser } (ops ++ [op])).fetch line = (run e { policy, parser } ops).fetch line := by
  have hstart : Stamped ({ policy, parser } : Highlighter P Query) := .of_empty rfl
  constructor
  · intro tokens
    induction ops using List.reverseRecOn with
    | nil => simp [run, fetch, Cache.fetch, Cache.find?_empty, LastWrote]
    | append_singleton ops op ih =>
        rw [run_concat, fetch_perform_iff (hstart.run e ops), lastWrote_concat, ih]
  · intro op hquiet
    rw [run_concat]
    apply Option.ext
    intro tokens
    rw [fetch_perform_iff (hstart.run e ops)]
    cases op <;> simp_all [Quiet, Writes, Forgets]

end LineTint.Highlighter
