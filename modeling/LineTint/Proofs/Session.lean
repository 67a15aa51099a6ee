import LineTint.Proofs.LastWrite

namespace LineTint

structure Session (P Query : Type) where
  highlighter : Highlighter P Query
  document : Table LineId Span
  gone : List LineId := []

inductive Report where
  | treeReplaced
  | reparsed

inductive Action (P : Type) where
  | tokensForLine (line : LineId)
  | fetch (line : LineId)
  | prepare
  | reset
  | clear
  | invalidate (line : LineId)
  | pruneStale
  | setPolicy (policy : StylePolicy)
  | setParser (parser : Option P) (document : Table LineId Span)
  | edit (text : String) (document : Table LineId Span) (report : Report)

namespace Action

variable {P Tree Query : Type}

def operations (parse : P → String → P) (s : Session P Query) : Action P → List (Operation P)
  | .tokensForLine line =>
      match s.document.get? line with
      | some span => [.tokensForLine line span]
      | none => []
  | .fetch line => [.fetch line]
  | .prepare => [.prepare]
  | .reset => [.reset]
  | .clear => [.clear]
  | .invalidate line => [.invalidate line]
  | .pruneStale => [.pruneStale]
  | .setPolicy policy => [.setPolicy policy]
  | .setParser parser _ => [.setParser parser]
  | .edit text _ .treeReplaced => [.mapParser (parse · text), .treeReplaced]
  | .edit text document .reparsed => [.mapParser (parse · text), .reparsed document.entries]

def document (s : Session P Query) : Action P → Table LineId Span
  | .setParser _ document | .edit _ document _ => document
  | _ => s.document

/-- No line comes back that has left the document. -/
def KeepsIds (s : Session P Query) : Action P → Prop
  | .setParser _ document | .edit _ document _ => ∀ line ∈ document.keys, line ∉ s.gone
  | _ => True

/-- Where the parser knows the changes of an edit, a line that is there before and after, and meets
none of them, has the tokens from the new tree that it had from the old one. -/
def KeepsTokens [SyntaxParser P Tree] (e : Engine Tree Query) (parse : P → String → P)
    (s : Session P Query) : Action P → Prop
  | .edit text document _ =>
      ∀ changes, (s.highlighter.mapParser (parse · text)).parser.bind SyntaxParser.changes? = some changes →
      ∀ line span span', s.document.get? line = some span → document.get? line = some span' →
        (∀ c ∈ changes, c.touches span' = false) →
      ∀ tokens, s.highlighter.computed e span = .ok tokens →
        (s.highlighter.mapParser (parse · text)).computed e span' = .ok tokens
  | _ => True

end Action

namespace Session

variable {P Tree Query : Type} [SyntaxParser P Tree]

def act (e : Engine Tree Query) (parse : P → String → P) (s : Session P Query) (a : Action P) :
    Session P Query where
  highlighter := s.highlighter.run e (a.operations parse s)
  document := a.document s
  gone := s.gone ++ s.document.keys.filter (· ∉ (a.document s).keys)

inductive Reachable (e : Engine Tree Query) (parse : P → String → P) : Session P Query → Prop
  | start (policy : StylePolicy) (parser : Option P) (document : Table LineId Span) :
      Reachable e parse { highlighter := { policy, parser }, document }
  | act {s : Session P Query} (a : Action P) (hs : Reachable e parse s) (hids : a.KeepsIds s)
      (htokens : a.KeepsTokens e parse s) : Reachable e parse (s.act e parse a)

structure Current (e : Engine Tree Query) (s : Session P Query) : Prop where
  stamped : s.highlighter.Stamped
  /-- Tokens are found for no line that has never been in the document. -/
  known : ∀ line tokens, s.highlighter.fetch line = some tokens →
    line ∈ s.document.keys ∨ line ∈ s.gone
  current : ∀ line span tokens, s.document.get? line = some span →
    s.highlighter.fetch line = some tokens → s.highlighter.computed e span = .ok tokens

theorem computed_congr (e : Engine Tree Query) {h k : Highlighter P Query} (hpolicy : k.policy = h.policy)
    (hparser : k.parser = h.parser) (hquery : k.slot.query? = h.slot.query?) (span : Span) :
    k.computed e span = h.computed e span := by
  simp only [Highlighter.computed, Highlighter.captures, Highlighter.attributes, hpolicy, hparser, hquery]

theorem Current.of_found {e : Engine Tree Query} {parse : P → String → P} {s : Session P Query}
    {a : Action P} (hs : s.Current e)
    (hknown : ∀ line tokens, (s.act e parse a).highlighter.fetch line = some tokens →
      line ∈ s.document.keys ∨ line ∈ s.gone)
    (hcurrent : ∀ line span tokens, (a.document s).get? line = some span →
      (s.act e parse a).highlighter.fetch line = some tokens →
      (s.act e parse a).highlighter.computed e span = .ok tokens) :
    (s.act e parse a).Current e where
  stamped := hs.stamped.run e _
  known line tokens hfound := by
    by_cases hline : line ∈ (a.document s).keys
    · exact Or.inl hline
    · right
      apply List.mem_append.mpr
      rcases hknown line tokens hfound with hold | hgone
      · exact Or.inr (List.mem_filter.mpr ⟨hold, by simpa using hline⟩)
      · exact Or.inl hgone
  current := hcurrent

theorem Current.of_fetch_none {e : Engine Tree Query} {s : Session P Query} (hs : s.highlighter.Stamped)
    (hnone : ∀ line tokens, ¬ s.highlighter.fetch line = some tokens) : s.Current e where
  stamped := hs
  known line tokens hfound := absurd hfound (hnone line tokens)
  current line _ tokens _ hfound := absurd hfound (hnone line tokens)

theorem computed_tokensForLine (e : Engine Tree Query) (h : Highlighter P Query) (line : LineId)
    (s span : Span) : (h.tokensForLine e line s).2.computed e span = (h.prepare e).computed e span := by
  rw [Highlighter.tokensForLine_eq]
  split
  next => rfl
  next => split <;> rfl

/-- A call that does not make the highlighter forget a line leaves all behind that the line's tokens
are computed from, unless it works on the parser. -/
theorem computed_perform {e : Engine Tree Query} {h : Highlighter P Query} {op : Operation P} {line : LineId}
    (hmap : ∀ change, op ≠ .mapParser change) (hkept : ¬ h.Forgets e op line) (span : Span) :
    (h.perform e op).computed e span = h.computed e span := by
  have hprepare (hi : ¬ h.Installs e) : (h.prepare e).computed e span = h.computed e span := by
    rcases Highlighter.prepare_cases e h with ⟨hinst, -⟩ | ⟨-, -, hquery⟩
    · exact absurd hinst hi
    · exact computed_congr e (h := h) (k := h.prepare e) rfl rfl hquery span
  cases op with
  | fetch | captures | invalidate | pruneStale | clear | treeReplaced => rfl
  | reset | setParser | setPolicy => exact absurd trivial hkept
  | mapParser change => exact absurd rfl (hmap change)
  | prepare => exact hprepare hkept
  | store l ts g =>
      simp only [Highlighter.perform, Highlighter.store]
      split <;> rfl
  | tokensForLine l s =>
      rw [← hprepare hkept]
      exact computed_tokensForLine e h l s span
  | reparsed lines =>
      cases hc : h.parser.bind SyntaxParser.changes? with
      | none => simp [Highlighter.Forgets, hc] at hkept
      | some changes =>
          obtain ⟨cache, heq, -⟩ := Highlighter.reparsed_of_known lines hc
          simp only [Highlighter.perform, heq]
          rfl

theorem computed_of_writes {e : Engine Tree Query} {h : Highlighter P Query} {l line : LineId} {span : Span}
    {tokens : List Token} (hw : h.Writes e (.tokensForLine l span) line tokens) :
    (h.perform e (.tokensForLine l span)).computed e span = .ok tokens := by
  obtain ⟨rfl, hmiss, hok⟩ := hw
  rw [Highlighter.tokensForLine_eq, hmiss] at hok
  refine (computed_tokensForLine e h l span span).trans ?_
  cases hc : (h.prepare e).computed e span with
  | error cause => simp [hc] at hok
  | ok ts => simpa [hc] using hok

theorem Current.call {e : Engine Tree Query} {parse : P → String → P} {s : Session P Query} {a : Action P}
    {op : Operation P} (hs : s.Current e) (hop : a.operations parse s = [op])
    (hdoc : a.document s = s.document) (hmap : ∀ change, op ≠ .mapParser change)
    (hwrites : ∀ line tokens, s.highlighter.Writes e op line tokens →
      ∃ span, s.document.get? line = some span ∧ (s.highlighter.perform e op).computed e span = .ok tokens) :
    (s.act e parse a).Current e := by
  have hact : (s.act e parse a).highlighter = s.highlighter.perform e op := by
    simp only [act, hop]
    rfl
  apply hs.of_found
  · intro line tokens hfound
    rw [hact, Highlighter.fetch_perform_iff hs.stamped] at hfound
    rcases hfound with hw | ⟨-, -, hold⟩
    · obtain ⟨span, hspan, -⟩ := hwrites line tokens hw
      exact Or.inl (Table.mem_keys_iff.mpr ⟨span, hspan⟩)
    · exact hs.known line tokens hold
  · intro line span tokens hspan hfound
    rw [hdoc] at hspan
    rw [hact] at hfound ⊢
    rw [Highlighter.fetch_perform_iff hs.stamped] at hfound
    rcases hfound with hw | ⟨hkept, -, hold⟩
    · obtain ⟨span', hspan', hcomputed⟩ := hwrites line tokens hw
      cases hspan.symm.trans hspan'
      exact hcomputed
    · rw [computed_perform hmap hkept]
      exact hs.current line span tokens hspan hold

theorem Current.edit {e : Engine Tree Query} {parse : P → String → P} {s : Session P Query} {text : String}
    {document : Table LineId Span} {report : Report} {op : Operation P} (hs : s.Current e)
    (hids : (Action.edit text document report).KeepsIds s)
    (htokens : (Action.edit text document report).KeepsTokens e parse s)
    (hop : (Action.edit text document report).operations parse s = [.mapParser (parse · text), op])
    (hreport : op = .treeReplaced ∨ op = .reparsed document.entries) :
    (s.act e parse (.edit text document report)).Current e := by
  let edited := s.highlighter.mapParser (parse · text)
  have hact : (s.act e parse (.edit text document report)).highlighter = edited.perform e op := by
    simp only [Session.act, hop]
    rfl
  have hstamped : edited.Stamped := hs.stamped
  have hwrites (line : LineId) (tokens : List Token) : ¬ edited.Writes e op line tokens := by
    rcases hreport with rfl | rfl <;> exact not_false
  have hfound {line : LineId} {tokens : List Token}
      (h : (s.act e parse (.edit text document report)).highlighter.fetch line = some tokens) :
      ¬ edited.Forgets e op line ∧ s.highlighter.fetch line = some tokens := by
    rw [hact, Highlighter.fetch_perform_iff hstamped] at h
    rcases h with hw | ⟨hkept, -, hold⟩
    · exact absurd hw (hwrites line tokens)
    · exact ⟨hkept, hold⟩
  apply hs.of_found
  · intro line tokens h
    exact hs.known line tokens (hfound h).2
  · intro line span tokens hspan h
    obtain ⟨hkept, hold⟩ := hfound h
    -- A line that is new to the document has never had tokens, for its id is new too.
    have hline : line ∈ s.document.keys :=
      (hs.known line tokens hold).resolve_right
        (hids line (Table.mem_keys_iff.mpr ⟨span, hspan⟩))
    obtain ⟨before, hbefore⟩ := Table.mem_keys_iff.mp hline
    have hcomputed := hs.current line before tokens hbefore hold
    rw [hact, computed_perform (by rcases hreport with rfl | rfl <;> simp) hkept]
    rcases hreport with rfl | rfl
    · exact absurd trivial hkept
    · cases hc : edited.parser.bind SyntaxParser.changes? with
      | none => simp [Highlighter.Forgets, hc] at hkept
      | some changes =>
          have hmet : ¬ Highlighter.Met changes document.entries line := by
            simpa [Highlighter.Forgets, hc] using hkept
          refine htokens changes hc line before span hbefore hspan ?_ tokens hcomputed
          intro c hcmem
          by_contra htouch
          exact hmet ⟨span, Table.get?_eq_some_iff.mp hspan, c, hcmem, by simpa using htouch⟩

theorem Current.act {e : Engine Tree Query} {parse : P → String → P} {s : Session P Query}
    (hs : s.Current e) (a : Action P) (hids : a.KeepsIds s) (htokens : a.KeepsTokens e parse s) :
    (s.act e parse a).Current e := by
  cases a with
  | tokensForLine line =>
      cases hspan : s.document.get? line with
      | none =>
          have hact : (s.act e parse (.tokensForLine line)).highlighter = s.highlighter := by
            simp only [Session.act, Action.operations, hspan]
            rfl
          apply hs.of_found <;> rw [hact]
          · exact hs.known
          · exact hs.current
      | some span =>
          have hop : (Action.tokensForLine line).operations parse s = [.tokensForLine line span] := by
            simp only [Action.operations, hspan]
          apply hs.call hop rfl (by simp)
          intro l tokens hw
          obtain rfl := hw.1
          exact ⟨span, hspan, computed_of_writes hw⟩
  | fetch | prepare | reset | clear | invalidate | pruneStale | setPolicy =>
      exact hs.call rfl rfl (by simp) (fun _ _ hw => hw.elim)
  | setParser parser document =>
      have hnone (line : LineId) (tokens : List Token) :
          ¬ (s.act e parse (.setParser parser document)).highlighter.fetch line = some tokens := by
        change ¬ (s.highlighter.perform e (.setParser parser)).fetch line = some tokens
        rw [Highlighter.fetch_perform_iff hs.stamped]
        simp [Highlighter.Writes, Highlighter.Forgets]
      exact .of_fetch_none (hs.stamped.run e _) hnone
  | edit text document report =>
      cases report with
      | treeReplaced => exact hs.edit hids htokens rfl (Or.inl rfl)
      | reparsed => exact hs.edit hids htokens rfl (Or.inr rfl)

theorem Reachable.current {e : Engine Tree Query} {parse : P → String → P} {s : Session P Query}
    (h : Reachable e parse s) : s.Current e := by
  induction h with
  | start policy parser document =>
      have hnone (line : LineId) (tokens : List Token) :
          ¬ ({ policy, parser } : Highlighter P Query).fetch line = some tokens := by
        simp [Highlighter.fetch, Cache.fetch, Cache.find?_empty]
      exact .of_fetch_none (.of_empty rfl) hnone
  | act a _ hids htokens ih => exact ih.act a hids htokens

/-- No token is ever out of date: what is found for a line of the document is what would be computed
for it now, and so is what the highlighter answers when it is asked for the line. -/
theorem tokens_current {e : Engine Tree Query} {parse : P → String → P} {s : Session P Query}
    (h : Reachable e parse s) {line : LineId} {span : Span} (hline : s.document.get? line = some span) :
    (∀ tokens, s.highlighter.fetch line = some tokens → s.highlighter.computed e span = .ok tokens) ∧
      (s.highlighter.tokensForLine e line span).1 = (s.highlighter.prepare e).computed e span := by
  refine ⟨fun tokens hfound => h.current.current line span tokens hline hfound, ?_⟩
  have hprepared : (s.act e parse .prepare).Current e := h.current.act .prepare trivial trivial
  rw [Highlighter.tokensForLine_eq]
  cases hf : (s.highlighter.prepare e).fetch line with
  | some tokens => exact (hprepared.current line span tokens hline hf).symm
  | none => cases (s.highlighter.prepare e).computed e span <;> rfl

def wholeSpan : Engine Unit Unit where
  compile _ := some ()
  parse _ _ _ := ()
  differences _ _ _ := []
  captures _ _ _ span := [⟨"keyword", span⟩]

def twoLines (length : Offset) : Table LineId Span := .ofList [(0, ⟨0, 2⟩), (1, ⟨3, length⟩)]

theorem twoLines_get? {length : Offset} {line : LineId} {span : Span}
    (h : (twoLines length).get? line = some span) :
    line = 0 ∧ span = ⟨0, 2⟩ ∨ line = 1 ∧ span = ⟨3, length⟩ := by
  rw [Table.get?_eq_some_iff] at h
  change (line, span) ∈ [((1 : LineId), (⟨3, length⟩ : Span)), (0, ⟨0, 2⟩)] at h
  simp only [List.mem_cons, Prod.mk.injEq, List.not_mem_nil, or_false] at h
  exact h.symm

def unparsed : Session (IncrementalParser Unit) Unit where
  highlighter := {
    policy := fun _ => { font := { bold := true } }
    parser := some { grammar := { language := .rust } } }
  document := .empty

def painted : Session (IncrementalParser Unit) Unit :=
  [.edit "ab\ncd" (twoLines 2) .reparsed, .tokensForLine 0, .tokensForLine 1].foldl
    (act wholeSpan (IncrementalParser.parse wholeSpan)) unparsed

def grown : Session (IncrementalParser Unit) Unit :=
  painted.act wholeSpan (IncrementalParser.parse wholeSpan) (.edit "ab\ncde" (twoLines 3) .reparsed)

theorem painted_reachable : Reachable wholeSpan (IncrementalParser.parse wholeSpan) painted := by
  have hstart : Reachable wholeSpan (IncrementalParser.parse wholeSpan) unparsed := .start _ _ _
  have hparsed := hstart.act (.edit "ab\ncd" (twoLines 2) .reparsed)
    (by intro line _; exact List.not_mem_nil) (fun _ hc => nomatch hc)
  exact (hparsed.act (.tokensForLine 0) trivial trivial).act (.tokensForLine 1) trivial trivial

theorem grown_reachable : Reachable wholeSpan (IncrementalParser.parse wholeSpan) grown := by
  refine painted_reachable.act _ (by intro line _; exact List.not_mem_nil) ?_
  intro changes hc line before span hbefore hspan hmeet tokens hcomputed
  have hknown : (painted.highlighter.mapParser (IncrementalParser.parse wholeSpan · "ab\ncde")).parser.bind
      SyntaxParser.changes? = some [⟨5, 1⟩] := by decide +kernel
  obtain rfl := Option.some.inj (hknown.symm.trans hc)
  rcases twoLines_get? hspan with ⟨rfl, rfl⟩ | ⟨rfl, rfl⟩
  · obtain ⟨-, rfl⟩ | ⟨hne, -⟩ := twoLines_get? hbefore
    · exact hcomputed
    · cases hne
  · exact absurd (hmeet _ (List.mem_singleton.mpr rfl)) (by decide)

theorem tokens_current_grown :
    grown.document.get? 0 = some ⟨0, 2⟩ ∧
      grown.highlighter.fetch 0 = some [⟨⟨0, 2⟩, none, { bold := true }⟩] ∧
      grown.highlighter.computed wholeSpan ⟨0, 2⟩ = .ok [⟨⟨0, 2⟩, none, { bold := true }⟩] := by
  have hline : grown.document.get? 0 = some ⟨0, 2⟩ := by decide
  have hfound : grown.highlighter.fetch 0 = some [⟨⟨0, 2⟩, none, { bold := true }⟩] := by decide +kernel
  exact ⟨hline, hfound, (tokens_current grown_reachable hline).1 _ hfound⟩

end Session
end LineTint
