import LineTint.Parser
import LineTint.Proofs.EditParts
import LineTint.Proofs.LineCut

namespace LineTint

open Text

def BreakAt (text : String) (a b : Nat) : Prop :=
  ∃ front c back, text.toList = front ++ c :: back ∧ isBreak c = true ∧ byteLength front = a ∧
    a + c.utf8Size = b

structure Span.Stays (edit : Edit) (old new : String) (s r : Span) : Prop where
  mem : s ∈ lineSpans old
  len : s.len = r.len
  slice : s.slice (bytes old) = r.slice (bytes new)
  place : (r.stop.toNat < edit.start ∧ s.start = r.start) ∨
    (edit.newEnd < r.start.toNat ∧
      s.start.toNat + (bytes new).length = r.start.toNat + (bytes old).length)

/-- The edit begins within the break behind the line, and there was no break in its place. -/
def Span.TornAfter (edit : Edit) (old new : String) (r : Span) : Prop :=
  (∃ b, BreakAt new r.stop.toNat b ∧ r.stop.toNat < edit.start ∧ edit.start < b) ∧
    ∀ b, ¬ BreakAt old r.stop.toNat b

/-- The edit ends within the break before the line, and there was no break in its place. -/
def Span.TornBefore (edit : Edit) (old new : String) (r : Span) : Prop :=
  (∃ a, BreakAt new a r.start.toNat ∧ a < edit.newEnd ∧ edit.newEnd < r.start.toNat) ∧
    ∀ a b, b + (bytes new).length = r.start.toNat + (bytes old).length → ¬ BreakAt old a b

theorem BreakAt.isBreak_of_start {text : String} {front back : List Char} {c : Char} {a b : Nat}
    (h : BreakAt text a b) (htext : text.toList = front ++ c :: back) (ha : byteLength front = a) :
    isBreak c = true := by
  obtain ⟨front', c', back', htext', hc', ha', -⟩ := h
  obtain ⟨-, hback⟩ := append_inj_of_byteLength (htext.symm.trans htext') (ha.trans ha'.symm)
  rwa [(List.cons.inj hback).1]

theorem BreakAt.isBreak_of_end {text : String} {front back : List Char} {c : Char} {a b : Nat}
    (h : BreakAt text a b) (htext : text.toList = front ++ [c] ++ back)
    (hb : byteLength (front ++ [c]) = b) : isBreak c = true := by
  obtain ⟨front', c', back', htext', hc', ha', hb'⟩ := h
  rw [List.append_cons] at htext'
  obtain ⟨hfront, -⟩ := append_inj_of_byteLength (htext.symm.trans htext')
    (by rw [hb, byteLength_concat, ha', hb'])
  rwa [List.singleton_inj.mp (List.append_inj' hfront rfl).2]

variable {edit : Edit} {old new : String} {before content after : List Char}
  {front removed added back : List UInt8}

theorem before_edit (hcut : LineCut new.toList before content after)
    (hparts : edit.Parts (bytes old) (bytes new) front removed added back)
    (hlt : byteLength before + byteLength content < edit.start) :
    ∃ c cs d ds, after = c :: cs ∧ isBreak c = true ∧ old.toList = before ++ content ++ d :: ds ∧
      (edit.start < byteLength before + byteLength content + c.utf8Size ∨ c = d) ∧
      (d.toNat < 128 → c = d) := by
  have hnew := hparts.new_eq
  have hold := hparts.old_eq
  have hlen := hcut.length_bytes
  rw [hparts.start, ← byteLength_append] at hlt
  rw [hnew, List.append_assoc, List.length_append] at hlen
  rcases hcut.ends with rfl | ⟨c, cs, rfl, hc⟩
  · rw [byteLength_append] at hlt
    rw [byteLength_nil] at hlen
    omega
  rw [bytes, hcut.text_eq, List.append_assoc front] at hnew
  rw [List.append_assoc] at hold
  obtain ⟨d, ds, hds, hd⟩ := encode_shared_front hnew hold hlt
  rw [byteLength_append, ← hparts.start] at hd
  exact ⟨c, cs, d, ds, rfl, hc, hds, hd⟩

theorem behind_edit (hcut : LineCut new.toList before content after)
    (hparts : edit.Parts (bytes old) (bytes new) front removed added back)
    (hlt : edit.newEnd < byteLength before) :
    ∃ c cs d ds, before = cs ++ [c] ∧ isBreak c = true ∧ ¬ (c = '\r' ∧ ∃ es, content ++ after = '\n' :: es) ∧
      old.toList = ds ++ [d] ++ content ++ after ∧ (byteLength cs < edit.newEnd ∨ c = d) ∧
      (d.toNat < 128 → c = d) := by
  have hnew := hparts.new_eq
  have hlen := hcut.length_bytes
  rw [hnew, List.length_append, List.length_append, ← hparts.newEnd] at hlen
  rcases hcut.starts with rfl | ⟨cs, c, rfl, hc, hcrlf⟩
  · exact absurd hlt (Nat.not_lt_zero _)
  rw [bytes, hcut.text_eq, List.append_assoc, ← List.append_cons] at hnew
  obtain ⟨d, ds, hds, hd⟩ := encode_shared_back hnew hparts.old_eq
    (by rw [byteLength_append]; omega)
  refine ⟨c, cs, d, ds, rfl, hc, hcrlf, ?_, ?_, hd.2⟩
  · rw [hds, List.append_cons, ← List.append_assoc]
  · rw [byteLength_append] at hd
    rw [byteLength_concat] at hlen
    exact hd.1.imp_left (by omega)

theorem exists_same_slice {r : Span} {before' after' : List Char} (hcut : LineCut new.toList before content after)
    (hr : Measures r before content) (hcutOld : LineCut old.toList before' content after')
    (hold : (bytes old).length ≤ Offset.last.toNat) :
    ∃ s ∈ lineSpans old, s.start.toNat = byteLength before' ∧ s.len = r.len ∧
      s.slice (bytes old) = r.slice (bytes new) := by
  obtain ⟨s, hs, hmeasures⟩ := exists_mem_of_cut hcutOld hold
  exact ⟨s, hs, hmeasures.start, UInt64.toNat_inj.mp (hmeasures.len.trans hr.len.symm),
    (hcutOld.slice hmeasures).trans (hcut.slice hr).symm⟩

section
variable {r : Span} (hold : (bytes old).length ≤ Offset.last.toNat)
  (hparts : edit.Parts (bytes old) (bytes new) front removed added back)
include hold hparts

theorem stays_before_edit (hcut : LineCut new.toList before content after)
    (hr : Measures r before content) (hlt : r.stop.toNat < edit.start)
    (htorn : ¬ r.TornAfter edit old new) : ∃ s : Span, s.Stays edit old new r := by
  obtain ⟨c, cs, d, ds, rfl, hc, hds, hcd, hascii⟩ := before_edit hcut hparts (hr.stop ▸ hlt)
  have hd : isBreak d = true := by
    by_contra hd
    refine htorn ⟨⟨r.stop.toNat + c.utf8Size, ?_, hlt, ?_⟩, ?_⟩
    · exact ⟨before ++ content, c, cs, hcut.text_eq, hc, by rw [hr.stop, byteLength_append], rfl⟩
    · rw [hr.stop]
      exact hcd.resolve_right fun h => hd (h ▸ hc)
    · intro b hb
      exact hd (hb.isBreak_of_start hds (by rw [hr.stop, byteLength_append]))
  have hstarts : LineStart before (content ++ d :: ds) := by
    refine hcut.starts.of_rest fun es hes => ?_
    cases content with
    | nil =>
        obtain ⟨rfl, -⟩ := List.cons.inj hes
        exact ⟨cs, by rw [hascii (by decide)]; rfl⟩
    | cons x content => exact ⟨content ++ c :: cs, by rw [(List.cons.inj hes).1]; rfl⟩
  have hcutOld : LineCut old.toList before content (d :: ds) :=
    ⟨hds, hstarts, hcut.bare, Or.inr ⟨d, ds, rfl, hd⟩⟩
  obtain ⟨s, hs, hstart, hlen, hslice⟩ := exists_same_slice hcut hr hcutOld hold
  exact ⟨s, hs, hlen, hslice, Or.inl ⟨hlt, UInt64.toNat_inj.mp (hstart.trans hr.start.symm)⟩⟩

theorem stays_behind_edit (hcut : LineCut new.toList before content after)
    (hr : Measures r before content) (hlt : edit.newEnd < r.start.toNat)
    (htorn : ¬ r.TornBefore edit old new) : ∃ s : Span, s.Stays edit old new r := by
  obtain ⟨c, cs, d, ds, rfl, hc, hcrlf, hds, hcd, hascii⟩ := behind_edit hcut hparts (hr.start ▸ hlt)
  have holdLen : (bytes old).length = byteLength (ds ++ [d]) + byteLength content + byteLength after := by
    rw [length_bytes, hds, byteLength_append, byteLength_append]
  have hnewLen := hcut.length_bytes
  have hd : isBreak d = true := by
    by_contra hd
    refine htorn ⟨⟨byteLength cs, ?_, ?_, hlt⟩, ?_⟩
    · refine ⟨cs, c, content ++ after, ?_, hc, rfl, by rw [hr.start, byteLength_concat]⟩
      rw [hcut.text_eq, List.append_assoc, ← List.append_cons]
    · exact hcd.resolve_right fun h => hd (h ▸ hc)
    · intro a b hb hbreak
      rw [List.append_assoc] at hds
      refine hd (hbreak.isBreak_of_end hds ?_)
      have := hr.start
      omega
  have hcutOld : LineCut old.toList (ds ++ [d]) content after := by
    refine ⟨hds, Or.inr ⟨ds, d, rfl, hd, ?_⟩, hcut.bare, hcut.ends⟩
    rintro ⟨rfl, hlf⟩
    exact hcrlf ⟨hascii (by decide), hlf⟩
  obtain ⟨s, hs, hstart, hlen, hslice⟩ := exists_same_slice hcut hr hcutOld hold
  refine ⟨s, hs, hlen, hslice, Or.inr ⟨hlt, ?_⟩⟩
  have := hr.start
  omega

theorem not_torn_of_stays {s : Span} (h : s.Stays edit old new r) :
    ¬ (r.TornBefore edit old new ∨ r.TornAfter edit old new) := by
  obtain ⟨before, content, after, hcut, hs⟩ := exists_cut_of_mem h.mem hold
  have hle := UInt64.le_iff_toNat_le.mp r.start_le_stop
  have hparted := hparts.start_le
  have hlen := hcut.length_bytes
  rcases h.place with ⟨hlt, hstart⟩ | ⟨hlt, hshift⟩
  · have hsame : s.stop = r.stop := congrArg₂ Offset.addCapped hstart h.len
    rintro (⟨⟨a, -, -, hbehind⟩, -⟩ | ⟨-, hnone⟩)
    · omega
    · rcases hcut.ends with rfl | ⟨c, cs, rfl, hc⟩
      · have hstop := hs.stop
        have hfront := hparts.start_le_length
        rw [hsame] at hstop
        rw [byteLength_nil] at hlen
        omega
      · exact hnone _ ⟨before ++ content, c, cs, hcut.text_eq, hc,
          by rw [← hsame, hs.stop, byteLength_append], rfl⟩
  · rintro (⟨-, hnone⟩ | ⟨⟨b, -, hfront, -⟩, -⟩)
    · rcases hcut.starts with rfl | ⟨cs, c, rfl, hc, -⟩
      · have hzero : s.start.toNat = 0 := hs.start
        have hback := hparts.length_le
        omega
      · refine hnone (byteLength cs) _ hshift ⟨cs, c, content ++ after, ?_, hc, rfl, ?_⟩
        · rw [hcut.text_eq, List.append_assoc, ← List.append_cons]
        · rw [hs.start, byteLength_concat]
    · omega

end

/-- After a parse of another text, the changes that it reports leave alone only lines that have been
lines before, at their place or moved by the difference in length, unless the edit has torn apart a
break of more than one byte beside the line. -/
theorem kept_line_stays_iff {Tree Query : Type} (e : Engine Tree Query) (p : IncrementalParser Tree)
    (new : String) (hne : p.source ≠ new) (htree : p.tree.isSome)
    (hold : (bytes p.source).length ≤ Offset.last.toNat) (hnew : (bytes new).length ≤ Offset.last.toNat) :
    ∃ edit changes, Edit.between (bytes p.source) (bytes new) = some edit ∧
      (p.parse e new).changes = some changes ∧
      ∀ r ∈ lineSpans new, (∀ c ∈ changes, c.touches r = false) →
        ((∃ s : Span, s.Stays edit p.source new r) ↔
          ¬ (r.TornBefore edit p.source new ∨ r.TornAfter edit p.source new)) := by
  obtain ⟨edit, hedit⟩ := Edit.exists_between fun h => hne (bytes_injective h)
  obtain ⟨front, removed, added, back, hparts⟩ := Edit.between_parts hedit
  obtain ⟨tree, htree⟩ := Option.isSome_iff_exists.mp htree
  refine ⟨edit, edit.span :: e.differences tree edit (e.parse p.grammar (some (tree, edit)) new), hedit, ?_, ?_⟩
  · rw [IncrementalParser.parse, htree]
    simp only [hedit]
  · intro r hr hkept
    obtain ⟨before, content, after, hcut, hmeasures⟩ := exists_cut_of_mem hr hnew
    have hclear := (Edit.span_touches_eq_false_iff hparts.start_le (Nat.le_trans hparts.newEnd_le hnew)).mp
      (hkept edit.span List.mem_cons_self)
    constructor
    · rintro ⟨s, hs⟩
      exact not_torn_of_stays hold hparts hs
    · intro htorn
      rw [not_or] at htorn
      rcases hclear with hlt | hlt
      · exact stays_before_edit hold hparts hcut hmeasures hlt htorn.2
      · exact stays_behind_edit hold hparts hcut hmeasures hlt htorn.1

def uniform : Engine Unit Unit where
  compile _ := some ()
  parse _ _ _ := ()
  differences _ _ _ := []
  captures _ _ _ _ := []

def parsedAs (source : String) : IncrementalParser Unit :=
  { grammar := { language := .rust }, tree := some (), source }

theorem kept_line_stays_iff_nel :
    (parsedAs "ab\u00a0cd\nef").source ≠ "ab\u0085cd\nef" ∧ (parsedAs "ab\u00a0cd\nef").tree.isSome ∧
      (bytes "ab\u00a0cd\nef").length ≤ Offset.last.toNat ∧
      (bytes "ab\u0085cd\nef").length ≤ Offset.last.toNat ∧
      ∃ edit changes, Edit.between (bytes "ab\u00a0cd\nef") (bytes "ab\u0085cd\nef") = some edit ∧
        ((parsedAs "ab\u00a0cd\nef").parse uniform "ab\u0085cd\nef").changes = some changes ∧
        ∀ r ∈ lineSpans "ab\u0085cd\nef", (∀ c ∈ changes, c.touches r = false) →
          ((∃ s : Span, s.Stays edit "ab\u00a0cd\nef" "ab\u0085cd\nef" r) ↔
            ¬ (r.TornBefore edit "ab\u00a0cd\nef" "ab\u0085cd\nef" ∨
              r.TornAfter edit "ab\u00a0cd\nef" "ab\u0085cd\nef")) :=
  ⟨by decide, rfl, by decide, by decide,
    kept_line_stays_iff uniform (parsedAs "ab\u00a0cd\nef") "ab\u0085cd\nef" (by decide) rfl (by decide)
      (by decide)⟩

/-- A no-break space has become NEL, which begins with the same byte. The first of the two lines meets
no change, but nothing in the old version, which is one line, has its bytes. -/
theorem kept_line_newly_split :
    ((parsedAs "ab\u00a0cd").parse uniform "ab\u0085cd").changes = some [⟨3, 1⟩] ∧
      (⟨0, 2⟩ : Span) ∈ lineSpans "ab\u0085cd" ∧ (⟨3, 1⟩ : Span).touches ⟨0, 2⟩ = false ∧
      ∀ s ∈ lineSpans "ab\u00a0cd",
        s.slice (bytes "ab\u00a0cd") ≠ (⟨0, 2⟩ : Span).slice (bytes "ab\u0085cd") := by
  decide

end LineTint
