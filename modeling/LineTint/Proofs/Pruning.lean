import LineTint.Proofs.LastWrite

namespace LineTint

namespace Operation

variable {P : Type}

def isPrune : Operation P → Bool
  | .pruneStale => true
  | _ => false

def Resets : Operation P → Prop
  | .reset | .setParser _ | .setPolicy _ => True
  | _ => False

end Operation

inductive Answer where
  | done
  | stored (accepted : Bool)
  | found (tokens : Option (List Token))
  | tokens (result : Except HighlightError (List Token))
  | captures (result : Except HighlightError (List Capture))

namespace Highlighter

variable {P Tree Query : Type}

/-- The two differ in their caches alone, and find the same there. -/
structure Alike (h k : Highlighter P Query) : Prop where
  clear_eq : h.clear = k.clear
  fetch_eq : ∀ line, h.fetch line = k.fetch line

section
variable {h k l : Highlighter P Query}

theorem Alike.refl (h : Highlighter P Query) : h.Alike h := ⟨rfl, fun _ => rfl⟩

theorem Alike.symm (hk : h.Alike k) : k.Alike h := ⟨hk.clear_eq.symm, fun line => (hk.fetch_eq line).symm⟩

theorem Alike.trans (hk : h.Alike k) (hl : k.Alike l) : h.Alike l :=
  ⟨hk.clear_eq.trans hl.clear_eq, fun line => (hk.fetch_eq line).trans (hl.fetch_eq line)⟩

theorem Alike.congr {α : Type} (hk : h.Alike k) (F : Highlighter P Query → α) (hF : ∀ l, F l = F l.clear) :
    F h = F k := by
  rw [hF h, hk.clear_eq, ← hF k]

theorem Alike.generation_eq (hk : h.Alike k) : h.generation = k.generation :=
  hk.congr generation fun _ => rfl

theorem store_fst (h : Highlighter P Query) (line : LineId) (tokens : List Token) (g : Generation) :
    (h.store line tokens g).1 = decide (g = h.generation) := by
  unfold store
  split
  next hg => exact (decide_eq_true hg).symm
  next hg => exact (decide_eq_false hg).symm

end

variable [SyntaxParser P Tree]

def answer (e : Engine Tree Query) (h : Highlighter P Query) : Operation P → Answer
  | .store line tokens g => .stored (h.store line tokens g).1
  | .fetch line => .found (h.fetch line)
  | .tokensForLine line span => .tokens (h.tokensForLine e line span).1
  | .captures span => .captures (h.captures e span)
  | _ => .done

/-- What is seen of a run: each answer, with the generation and whether there is something to
highlight after the call. Pruning answers nothing. -/
def observe (e : Engine Tree Query) (h : Highlighter P Query) :
    List (Operation P) → List (Answer × Generation × Bool)
  | [] => []
  | op :: ops =>
    if op.isPrune then (h.perform e op).observe e ops
    else (h.answer e op, (h.perform e op).generation, (h.perform e op).canHighlight) ::
      (h.perform e op).observe e ops

variable {e : Engine Tree Query} {h k : Highlighter P Query}

theorem clear_tokensForLine (line : LineId) (span : Span) :
    (h.tokensForLine e line span).2.clear = (h.prepare e).clear := by
  rw [tokensForLine_eq]
  split
  next => rfl
  next => split <;> rfl

theorem clear_reparsed (lines : List (LineId × Span)) : (h.reparsed lines).clear = h.clear := by
  cases hc : h.parser.bind SyntaxParser.changes? with
  | none => rw [reparsed_of_unknown lines hc]; rfl
  | some changes =>
      obtain ⟨cache, heq, -⟩ := reparsed_of_known lines hc
      rw [heq]
      rfl

theorem clear_perform (op : Operation P) : (h.perform e op).clear = (h.clear.perform e op).clear := by
  cases op with
  | store line tokens g =>
      simp only [perform, store]
      split <;> split <;> rfl
  | tokensForLine line span => exact (clear_tokensForLine line span).trans (clear_tokensForLine line span).symm
  | reparsed lines => exact (clear_reparsed lines).trans (clear_reparsed (h := h.clear) lines).symm
  | fetch | captures | prepare | reset | clear | invalidate | pruneStale | treeReplaced | setParser
  | setPolicy | mapParser => rfl

theorem Alike.prepare (hk : h.Alike k) (hs : h.Stamped) (ks : k.Stamped) :
    (h.prepare e).Alike (k.prepare e) := by
  have hinst : h.Installs e = k.Installs e := hk.congr (Installs e) fun _ => rfl
  refine ⟨congrArg (Highlighter.prepare e) hk.clear_eq, fun line => ?_⟩
  apply Option.ext
  intro tokens
  rw [hs.fetch_prepare, ks.fetch_prepare, hinst, hk.fetch_eq]

theorem Alike.tokensForLine_eq (hk : h.Alike k) (hs : h.Stamped) (ks : k.Stamped) (line : LineId)
    (span : Span) : (h.tokensForLine e line span).1 = (k.tokensForLine e line span).1 := by
  have hp := hk.prepare (e := e) hs ks
  have hcomputed : (h.prepare e).computed e span = (k.prepare e).computed e span :=
    hp.congr (computed e · span) fun _ => rfl
  rw [Highlighter.tokensForLine_eq, Highlighter.tokensForLine_eq, hp.fetch_eq, hcomputed]
  split
  next => rfl
  next => split <;> rfl

theorem Alike.answer_eq (hk : h.Alike k) (hs : h.Stamped) (ks : k.Stamped) (op : Operation P) :
    h.answer e op = k.answer e op := by
  cases op with
  | store line tokens g => simp only [answer, store_fst, hk.generation_eq]
  | fetch line => exact congrArg Answer.found (hk.fetch_eq line)
  | tokensForLine line span => exact congrArg Answer.tokens (hk.tokensForLine_eq hs ks line span)
  | captures span => exact congrArg Answer.captures (hk.congr (Highlighter.captures e · span) fun _ => rfl)
  | prepare | reset | clear | invalidate | pruneStale | treeReplaced | reparsed | setParser | setPolicy
  | mapParser => rfl

theorem Alike.writes_iff (hk : h.Alike k) (hs : h.Stamped) (ks : k.Stamped) (op : Operation P)
    (line : LineId) (tokens : List Token) : h.Writes e op line tokens ↔ k.Writes e op line tokens := by
  cases op with
  | store l ts g => simp only [Writes, store_fst, hk.generation_eq]
  | tokensForLine l span =>
      simp only [Writes, hk.tokensForLine_eq hs ks, (hk.prepare hs ks).fetch_eq]
  | fetch | captures | prepare | reset | clear | invalidate | pruneStale | treeReplaced | reparsed | setParser
  | setPolicy | mapParser => exact Iff.rfl

theorem Alike.forgets_eq (hk : h.Alike k) (op : Operation P) (line : LineId) :
    h.Forgets e op line = k.Forgets e op line :=
  hk.congr (Forgets e · op line) fun _ => by cases op <;> rfl

theorem Alike.perform (hk : h.Alike k) (hs : h.Stamped) (ks : k.Stamped) (op : Operation P) :
    (h.perform e op).Alike (k.perform e op) := by
  constructor
  · rw [clear_perform, hk.clear_eq, ← clear_perform]
  · intro line
    apply Option.ext
    intro tokens
    simp only [fetch_perform_iff hs, fetch_perform_iff ks, hk.writes_iff hs ks, hk.forgets_eq, hk.fetch_eq]

theorem Alike.of_prune (h : Highlighter P Query) {op : Operation P} (hop : op.isPrune = true) :
    (h.perform e op).Alike h := by
  cases op with
  | pruneStale => exact ⟨rfl, fetch_pruneStale h⟩
  | _ => cases hop

/-- A run and the same run without its prunes look the same, and go on to. -/
theorem Alike.filter (hk : h.Alike k) (hs : h.Stamped) (ks : k.Stamped) (ops : List (Operation P)) :
    h.observe e ops = k.observe e (ops.filter (!·.isPrune)) ∧
      (h.run e ops).Alike (k.run e (ops.filter (!·.isPrune))) := by
  induction ops generalizing h k with
  | nil => exact ⟨rfl, hk⟩
  | cons op ops ih =>
      by_cases hop : op.isPrune
      -- Only the first run takes this step, and it stays alike what it was.
      · rw [List.filter_cons_of_neg (by simp [hop]), observe, if_pos hop]
        exact ih ((Alike.of_prune h hop).trans hk) (hs.perform e op) ks
      · have hnext := hk.perform (e := e) hs ks op
        obtain ⟨hobserve, hrun⟩ := ih hnext (hs.perform e op) (ks.perform e op)
        rw [List.filter_cons_of_pos (by simp [hop]), observe, observe, if_neg hop, if_neg hop, hobserve,
          hk.answer_eq hs ks, hnext.generation_eq]
        have hcan : (h.perform e op).canHighlight = (k.perform e op).canHighlight :=
          hnext.congr canHighlight fun _ => rfl
        rw [hcan]
        exact ⟨rfl, hrun⟩

theorem slot_perform_of_ready (hready : h.slot.query?.isSome) {op : Operation P} (hop : ¬ op.Resets) :
    (h.perform e op).slot = h.slot := by
  have hprepare : (h.prepare e).slot = h.slot := QuerySlot.prepare_of_ready hready _ _
  cases op with
  | store line tokens g =>
      simp only [Highlighter.perform, store]
      split <;> rfl
  | tokensForLine line span =>
      have hslot := congrArg slot (clear_tokensForLine (e := e) (h := h) line span)
      exact hslot.trans hprepare
  | prepare => exact hprepare
  | reparsed lines =>
      have hslot := congrArg slot (clear_reparsed (h := h) lines)
      exact hslot
  | reset | setParser | setPolicy => exact absurd trivial hop
  | fetch | captures | clear | invalidate | pruneStale | treeReplaced | mapParser => rfl

theorem slot_run_of_ready (hready : h.slot.query?.isSome) {ops : List (Operation P)}
    (hops : ∀ op ∈ ops, ¬ op.Resets) : (h.run e ops).slot = h.slot := by
  induction ops generalizing h with
  | nil => rfl
  | cons op ops ih =>
      obtain ⟨hop, hops⟩ := List.forall_mem_cons.mp hops
      have hslot := slot_perform_of_ready (e := e) hready hop
      exact (ih (h := h.perform e op) (by rwa [hslot]) hops).trans hslot

theorem cache_perform_of_resets {op : Operation P} (hop : op.Resets) : (h.perform e op).cache = {} := by
  cases op with
  | reset | setParser | setPolicy => rfl
  | _ => exact hop.elim

/-- A stale entry is one generation behind the query that is installed, which only a reset changes. -/
theorem Stamped.generation_run_ne (hs : h.Stamped) {line : LineId} {entry : Cache.Entry}
    (hentry : h.cache.find? line = some entry) (hstale : entry.generation ≠ h.generation)
    {ops : List (Operation P)} (hops : ∀ op ∈ ops, ¬ op.Resets) :
    entry.generation ≠ (h.run e ops).generation := by
  obtain ⟨hready, -⟩ := (hs line entry hentry).resolve_left hstale
  have hslot := slot_run_of_ready (e := e) hready hops
  rwa [generation, hslot]

/-- Without a query all entries are current, and with one they are at most one generation behind. So a
stale entry stays stale until a reset has removed it, and nothing that is seen of a run depends on
where in it stale entries are pruned. -/
theorem stamps_of_run (e : Engine Tree Query) (policy : StylePolicy) (parser : Option P)
    (ops : List (Operation P)) :
    let start : Highlighter P Query := { policy, parser }
    let h := start.run e ops
    (∀ line entry, h.cache.find? line = some entry →
      (h.slot.query? = none → entry.generation = h.generation) ∧
      (entry.generation = h.generation ∨ entry.generation + 1 = h.generation) ∧
      (entry.generation ≠ h.generation → ∀ more, (∀ op ∈ more, ¬ op.Resets) →
        entry.generation ≠ (h.run e more).generation)) ∧
      (∀ op : Operation P, op.Resets → (h.perform e op).cache = {}) ∧
      ∀ pruned, pruned.filter (!·.isPrune) = ops.filter (!·.isPrune) →
        start.observe e pruned = start.observe e ops ∧ (start.run e pruned).Alike h := by
  intro start h
  have hstart : start.Stamped := .of_empty rfl
  have hs : h.Stamped := hstart.run e ops
  refine ⟨fun line entry hentry => ⟨?_, ?_, ?_⟩, ?_, ?_⟩
  · intro hnone
    rcases hs line entry hentry with hgen | ⟨hsome, -⟩
    · exact hgen
    · rw [hnone] at hsome
      cases hsome
  · exact (hs line entry hentry).imp_right And.right
  · intro hstale more hmore
    exact hs.generation_run_ne hentry hstale hmore
  · intro op hop
    exact cache_perform_of_resets hop
  · intro pruned hsame
    obtain ⟨hpruned, halike⟩ := (Alike.refl start).filter hstart hstart pruned
    obtain ⟨hobserve, halike'⟩ := (Alike.refl start).filter hstart hstart ops
    rw [hsame] at hpruned halike
    exact ⟨hpruned.trans hobserve.symm, halike.trans halike'.symm⟩

/-- The number of cached lines may differ: here the first entry is stale once there is a query. -/
theorem stamps_of_run_pruned :
    let e : Engine Unit Unit := {
      compile := fun _ => some ()
      parse := fun _ _ _ => ()
      differences := fun _ _ _ => []
      captures := fun _ _ _ _ => [] }
    let start : Highlighter (IncrementalParser Unit) Unit := {
      policy := fun _ => {}
      parser := some { grammar := { language := .rust } } }
    let ops := [.store 0 [] 0, .prepare, .fetch 0]
    let pruned := [.store 0 [] 0, .prepare, .pruneStale, .fetch 0]
    start.observe e pruned = start.observe e ops ∧
      (start.run e ops).cachedLines = 1 ∧ (start.run e pruned).cachedLines = 0 := by
  intro e start ops pruned
  exact ⟨((stamps_of_run e start.policy start.parser ops).2.2 pruned rfl).1, rfl, rfl⟩

end Highlighter
end LineTint
