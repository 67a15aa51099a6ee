import LineTint.Proofs.Pruning

namespace LineTint

namespace QuerySlot

variable {Query : Type} {compile : Grammar → Option Query} {grammar : Option Grammar} {s : QuerySlot Query}

def Settled (compile : Grammar → Option Query) (grammar : Option Grammar) (s : QuerySlot Query) : Prop :=
  match s.state with
  | .unprepared => True
  | .ready q => ∃ g, grammar = some g ∧ compile g = some q
  | .failed => ∃ g, grammar = some g ∧ compile g = none

theorem Settled.reset (compile : Grammar → Option Query) (grammar : Option Grammar) (s : QuerySlot Query) :
    s.reset.Settled compile grammar := trivial

theorem Settled.prepare (hs : s.Settled compile grammar) : (s.prepare compile grammar).Settled compile grammar := by
  obtain ⟨state, generation⟩ := s
  cases state with
  | ready q | failed => exact hs
  | unprepared =>
      cases grammar with
      | none => trivial
      | some g =>
          cases hc : compile g with
          | none => simp [Settled, QuerySlot.prepare, prepareM, hc]
          | some q => simp [Settled, QuerySlot.prepare, prepareM, hc]

/-- Whatever was tried before, preparing ends with the query of the grammar, or with none where that does
not compile. -/
theorem Settled.query?_prepare (hs : s.Settled compile grammar) :
    (s.prepare compile grammar).query? = grammar.bind compile := by
  obtain ⟨state, generation⟩ := s
  cases state with
  | ready q | failed =>
      obtain ⟨g, rfl, hc⟩ := hs
      exact hc.symm
  | unprepared =>
      cases grammar with
      | none => rfl
      | some g => cases hc : compile g <;> simp [QuerySlot.prepare, prepareM, query?, hc]

theorem Settled.of_query? (hs : s.Settled compile grammar) {q : Query} (hq : s.query? = some q) :
    ∃ g, grammar = some g ∧ compile g = some q := by
  obtain ⟨state, generation⟩ := s
  cases state with
  | ready q' =>
      obtain rfl := Option.some.inj hq
      exact hs
  | unprepared | failed => cases hq

theorem Settled.of_hasFailed (hs : s.Settled compile grammar) (hf : s.hasFailed = true) :
    ∃ g, grammar = some g ∧ compile g = none := by
  obtain ⟨state, generation⟩ := s
  cases state with
  | failed => exact hs
  | unprepared | ready => cases hf

end QuerySlot

namespace Operation

variable {P : Type}

def Prepares : Operation P → Prop
  | .prepare | .tokensForLine _ _ => True
  | _ => False

theorem Prepares.not_resets {op : Operation P} (hop : op.Prepares) : ¬ op.Resets := by
  cases op with
  | prepare | tokensForLine => exact not_false
  | _ => exact hop.elim

end Operation

namespace Highlighter

variable {P Tree Query : Type} [SyntaxParser P Tree]

def grammar? (h : Highlighter P Query) : Option Grammar := h.parser.bind SyntaxParser.grammar?

/-- Work on the parser leaves it the grammar that it has. -/
def KeepsGrammar (h : Highlighter P Query) : Operation P → Prop
  | .mapParser change => (h.mapParser change).grammar? = h.grammar?
  | _ => True

def RunKeepsGrammar (e : Engine Tree Query) (h : Highlighter P Query) : List (Operation P) → Prop
  | [] => True
  | op :: ops => h.KeepsGrammar op ∧ (h.perform e op).RunKeepsGrammar e ops

def Settled (e : Engine Tree Query) (h : Highlighter P Query) : Prop := h.slot.Settled e.compile h.grammar?

variable {e : Engine Tree Query} {h k : Highlighter P Query} {op : Operation P}

theorem slot_perform_cases (e : Engine Tree Query) (h : Highlighter P Query) (op : Operation P) :
    (op.Resets ∧ (h.perform e op).slot = h.slot.reset) ∨
      (op.Prepares ∧ (h.perform e op).slot = (h.prepare e).slot) ∨
        (¬ op.Resets ∧ (h.perform e op).slot = h.slot) := by
  cases op with
  | reset | setParser | setPolicy => exact Or.inl ⟨trivial, rfl⟩
  | prepare => exact Or.inr (Or.inl ⟨trivial, rfl⟩)
  | tokensForLine line span =>
      have hslot := congrArg slot (clear_tokensForLine (e := e) (h := h) line span)
      exact Or.inr (Or.inl ⟨trivial, hslot⟩)
  | reparsed lines =>
      have hslot := congrArg slot (clear_reparsed (h := h) lines)
      exact Or.inr (Or.inr ⟨not_false, hslot⟩)
  | store line tokens g =>
      refine Or.inr (Or.inr ⟨not_false, ?_⟩)
      simp only [perform, store]
      split <;> rfl
  | fetch | captures | clear | invalidate | pruneStale | treeReplaced | mapParser =>
      exact Or.inr (Or.inr ⟨not_false, rfl⟩)

theorem grammar?_perform (hop : h.KeepsGrammar op) (hreset : ¬ op.Resets) :
    (h.perform e op).grammar? = h.grammar? := by
  cases op with
  | reset | setParser | setPolicy => exact absurd trivial hreset
  | mapParser change => exact hop
  | tokensForLine line span =>
      have hparser := congrArg parser (clear_tokensForLine (e := e) (h := h) line span)
      exact congrArg (Option.bind · SyntaxParser.grammar?) hparser
  | reparsed lines =>
      have hparser := congrArg parser (clear_reparsed (h := h) lines)
      exact congrArg (Option.bind · SyntaxParser.grammar?) hparser
  | store line tokens g =>
      simp only [perform, store]
      split <;> rfl
  | fetch | captures | prepare | clear | invalidate | pruneStale | treeReplaced => rfl

theorem Settled.perform (hs : h.Settled e) (hop : h.KeepsGrammar op) : (h.perform e op).Settled e := by
  unfold Settled at *
  obtain ⟨-, hslot⟩ | ⟨hprep, hslot⟩ | ⟨hreset, hslot⟩ := slot_perform_cases e h op
  · rw [hslot]
    exact .reset _ _ _
  · rw [hslot, grammar?_perform hop hprep.not_resets]
    exact hs.prepare
  · rw [hslot, grammar?_perform hop hreset]
    exact hs

theorem Settled.run (hs : h.Settled e) {ops : List (Operation P)} (hops : h.RunKeepsGrammar e ops) :
    (h.run e ops).Settled e := by
  induction ops generalizing h with
  | nil => exact hs
  | cons op ops ih => exact ih (hs.perform hops.1) hops.2

def OwnCaptures (e : Engine Tree Query) (h : Highlighter P Query) (span : Span) (cs : List Capture) : Prop :=
  ∃ p g tree q, h.parser = some p ∧ SyntaxParser.grammar? p = some g ∧ SyntaxParser.tree? p = some tree ∧
    e.compile g = some q ∧ cs = (e.captures q tree (SyntaxParser.text p) span).filter (!isPrivate ·)

theorem captures_eq_ok_iff {span : Span} {cs : List Capture} :
    h.captures e span = .ok cs ↔ ∃ p tree q, h.parser = some p ∧ SyntaxParser.tree? p = some tree ∧
      h.slot.query? = some q ∧ cs = (e.captures q tree (SyntaxParser.text p) span).filter (!isPrivate ·) := by
  unfold Highlighter.captures
  cases hp : h.parser with
  | none => simp
  | some p =>
      cases ht : SyntaxParser.tree? p with
      | none => simp [ht]
      | some tree => cases hq : h.slot.query? <;> simp [ht, eq_comm]

theorem Settled.ownCaptures (hs : h.Settled e) {span : Span} {cs : List Capture}
    (hcs : h.captures e span = .ok cs) : h.OwnCaptures e span cs := by
  obtain ⟨p, tree, q, hp, ht, hq, rfl⟩ := captures_eq_ok_iff.mp hcs
  obtain ⟨g, hg, hc⟩ := QuerySlot.Settled.of_query? hs hq
  rw [grammar?, hp] at hg
  exact ⟨p, g, tree, q, hp, hg, ht, hc, rfl⟩

theorem Settled.ownCaptures_of_computed (hs : h.Settled e) {line : LineId} {span : Span} {tokens : List Token}
    (hmiss : (h.prepare e).fetch line = none) (hok : (h.tokensForLine e line span).1 = .ok tokens) :
    ∃ cs, h.OwnCaptures e span cs ∧ tokens = h.attributes cs span := by
  have hprepared : (h.prepare e).Settled e := QuerySlot.Settled.prepare hs
  rw [tokensForLine_eq, hmiss] at hok
  unfold computed at hok
  cases hcs : (h.prepare e).captures e span with
  | error cause => simp [hcs, Except.map] at hok
  | ok cs =>
      simp only [hcs, Except.map, Except.ok.injEq] at hok
      exact ⟨cs, hprepared.ownCaptures hcs, hok.symm⟩

/-- Where there is no query, only a call that prepares brings one in. -/
theorem exists_installs {ops : List (Operation P)} (hnone : h.slot.query? = none)
    (hready : (h.run e ops).slot.query?.isSome) :
    ∃ before op after, ops = before ++ op :: after ∧ op.Prepares ∧ (h.run e before).Installs e := by
  induction ops generalizing h with
  | nil =>
      rw [show h.run e [] = h from rfl, hnone] at hready
      cases hready
  | cons op ops ih =>
      by_cases hinst : op.Prepares ∧ h.Installs e
      · exact ⟨[], op, ops, rfl, hinst⟩
      · have hnext : (h.perform e op).slot.query? = none := by
          obtain ⟨-, hslot⟩ | ⟨hprep, hslot⟩ | ⟨-, hslot⟩ := slot_perform_cases e h op
          · rw [hslot]
            rfl
          · rw [hslot]
            by_contra hsome
            exact hinst ⟨hprep, hnone, Option.isSome_iff_ne_none.mpr hsome⟩
          · rw [hslot, hnone]
        obtain ⟨before, op', after, rfl, hop', hinst'⟩ := ih hnext hready
        exact ⟨op :: before, op', after, rfl, hop', hinst'⟩

theorem exists_installs_of_captures {ops : List (Operation P)} {span : Span} {cs : List Capture}
    (hreset : op.Resets) (hcs : ((h.perform e op).run e ops).captures e span = .ok cs) :
    ∃ before op' after, ops = before ++ op' :: after ∧ op'.Prepares ∧
      ((h.perform e op).run e before).Installs e := by
  have hnone : (h.perform e op).slot.query? = none := by
    cases op with
    | reset | setParser | setPolicy => rfl
    | _ => exact hreset.elim
  obtain ⟨p, tree, q, -, -, hq, -⟩ := captures_eq_ok_iff.mp hcs
  exact exists_installs hnone (by rw [hq]; rfl)

/-- In every run the query belongs to the parser's grammar, and so does a failure. Captures and tokens
come from that query alone, a failure of one grammar is no obstacle to another parser, and after a reset
nothing is captured until the query has been compiled again. -/
theorem query_of_own_grammar (e : Engine Tree Query) (policy : StylePolicy) (parser : Option P)
    (ops : List (Operation P)) (hops : RunKeepsGrammar e { policy, parser } ops) :
    let h : Highlighter P Query := run e { policy, parser } ops
    (∀ q, h.slot.query? = some q →
      ∃ p g, h.parser = some p ∧ SyntaxParser.grammar? p = some g ∧ e.compile g = some q) ∧
      (h.slot.hasFailed = true →
        ∃ p g, h.parser = some p ∧ SyntaxParser.grammar? p = some g ∧ e.compile g = none) ∧
      (∀ span cs, h.captures e span = .ok cs → h.OwnCaptures e span cs) ∧
      (∀ line span tokens, (h.prepare e).fetch line = none → (h.tokensForLine e line span).1 = .ok tokens →
        ∃ cs, h.OwnCaptures e span cs ∧ tokens = h.attributes cs span) ∧
      (h.prepare e).slot.query? = h.grammar?.bind e.compile ∧
      (∀ p : P, ((h.setParser (some p)).prepare e).slot.query? = (SyntaxParser.grammar? p).bind e.compile) ∧
      ∀ op : Operation P, op.Resets → ∀ more span cs,
        ((h.perform e op).run e more).captures e span = .ok cs →
          ∃ before op' after, more = before ++ op' :: after ∧ op'.Prepares ∧
            ((h.perform e op).run e before).Installs e := by
  intro h
  have hstart : Settled e ({ policy, parser } : Highlighter P Query) := trivial
  have hs : h.Settled e := hstart.run hops
  have hparser {g : Grammar} (hg : h.grammar? = some g) :
      ∃ p, h.parser = some p ∧ SyntaxParser.grammar? p = some g := Option.bind_eq_some_iff.mp hg
  refine ⟨fun q hq => ?_, fun hf => ?_, ?_, ?_, ?_, ?_, ?_⟩
  · obtain ⟨g, hg, hc⟩ := QuerySlot.Settled.of_query? hs hq
    obtain ⟨p, hp, hpg⟩ := hparser hg
    exact ⟨p, g, hp, hpg, hc⟩
  · obtain ⟨g, hg, hc⟩ := QuerySlot.Settled.of_hasFailed hs hf
    obtain ⟨p, hp, hpg⟩ := hparser hg
    exact ⟨p, g, hp, hpg, hc⟩
  · intro span cs hcs
    exact hs.ownCaptures hcs
  · intro line span tokens hmiss hok
    exact hs.ownCaptures_of_computed hmiss hok
  · exact QuerySlot.Settled.query?_prepare hs
  · intro p
    have hset : (h.setParser (some p)).Settled e := trivial
    exact QuerySlot.Settled.query?_prepare hset
  · intro op hop more span cs hcs
    exact exists_installs_of_captures hop hcs

def rustOnly : Engine Unit Grammar where
  compile g := if g.language = .rust then some g else none
  parse _ _ _ := ()
  differences _ _ _ := []
  captures _ _ _ span := [⟨"keyword", span⟩]

def unsetParser : Highlighter (IncrementalParser Unit) Grammar where
  policy := fun _ => { font := { bold := true } }

def changeOfParsers : List (Operation (IncrementalParser Unit)) :=
  [.setParser (some { grammar := { language := .python } }), .prepare,
    .setParser (some { grammar := { language := .rust } }), .mapParser (·.parse rustOnly "fn"),
    .tokensForLine 0 ⟨0, 2⟩]

theorem query_of_own_grammar_changed :
    RunKeepsGrammar rustOnly unsetParser changeOfParsers ∧
      (unsetParser.run rustOnly (changeOfParsers.take 2)).slot.hasFailed = true ∧
      (unsetParser.run rustOnly changeOfParsers).slot.query? = some { language := .rust } ∧
      ∃ p g, (unsetParser.run rustOnly changeOfParsers).parser = some p ∧ SyntaxParser.grammar? p = some g ∧
        rustOnly.compile g = some { language := .rust } := by
  have hops : RunKeepsGrammar rustOnly unsetParser changeOfParsers :=
    ⟨trivial, trivial, trivial, rfl, trivial, trivial⟩
  have hquery : (unsetParser.run rustOnly changeOfParsers).slot.query? = some { language := .rust } := rfl
  exact ⟨hops, rfl, hquery,
    (query_of_own_grammar rustOnly unsetParser.policy none changeOfParsers hops).1 _ hquery⟩

end Highlighter
end LineTint
