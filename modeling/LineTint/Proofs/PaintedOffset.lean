import LineTint.Painting
import LineTint.Proofs.SpanPart

namespace LineTint

/-- The tag of the capture has a visible style, and the byte at the offset lies in the capture and on
the line. The byte is counted in natural numbers, so it may lie behind every span. -/
def Capture.ShowsAt (policy : StylePolicy) (line : Span) (o : Offset) (c : Capture) : Prop :=
  ((policy c.tag).color.isSome ∨ (policy c.tag).font.bold ∨ (policy c.tag).font.italic) ∧
    c.span.Covers (line.start.toNat + o.toNat) ∧ line.Covers (line.start.toNat + o.toNat)

theorem Style.isVisible_iff {s : Style} : s.isVisible ↔ s.color.isSome ∨ s.font.bold ∨ s.font.italic := by
  obtain ⟨color, ⟨bold, italic⟩⟩ := s
  cases color <;> cases bold <;> cases italic <;> simp [Style.isVisible, FontStyle.isPlain]

theorem Capture.paint_eq_some_iff {policy : StylePolicy} {line : Span} {c : Capture} {t : Token} :
    c.paint policy line = some t ↔
      (policy c.tag).isVisible ∧ c.span.clip line = some t.span ∧ t.color = (policy c.tag).color ∧
        t.font = (policy c.tag).font := by
  unfold Capture.paint
  cases c.span.clip line with
  | none => simp
  | some span =>
      obtain ⟨span', color, font⟩ := t
      by_cases hv : (policy c.tag).isVisible
      · simp [hv, eq_comm]
      · simp [hv]

theorem Capture.showsAt_iff {policy : StylePolicy} {line : Span} {o : Offset} {c : Capture} :
    c.ShowsAt policy line o ↔ ∃ t, c.paint policy line = some t ∧ t.span.contains o = true := by
  have hclip := Span.clip_covers_iff c.span line o.toNat
  simp only [Capture.ShowsAt, ← hclip, ← Style.isVisible_iff, Capture.paint_eq_some_iff, Span.contains_iff]
  constructor
  · rintro ⟨hv, r, hr, ho⟩
    exact ⟨⟨r, (policy c.tag).color, (policy c.tag).font⟩, ⟨hv, hr, rfl, rfl⟩, ho⟩
  · rintro ⟨t, ⟨hv, hr, -, -⟩, ho⟩
    exact ⟨hv, t.span, hr, ho⟩

theorem tokenAt_append (ts us : List Token) (o : Offset) :
    tokenAt (ts ++ us) o = (tokenAt us o).or (tokenAt ts o) := by
  simp only [tokenAt, List.reverse_append, List.find?_append]

theorem tokenAt_paint_eq_none_iff {policy : StylePolicy} {line : Span} {captures : List Capture} {o : Offset} :
    tokenAt (paint policy line captures) o = none ↔ ∀ c ∈ captures, ¬ c.ShowsAt policy line o := by
  simp only [tokenAt, List.find?_eq_none, List.mem_reverse, paint, List.mem_filterMap, Capture.showsAt_iff]
  constructor
  · rintro h c hc ⟨t, ht, ho⟩
    exact h t ⟨c, hc, ht⟩ ho
  · rintro h t ⟨c, hc, ht⟩ ho
    exact h c hc ⟨t, ht, ho⟩

theorem tokenAt_paint_of_last {policy : StylePolicy} {line : Span} {before after : List Capture} {c : Capture}
    {o : Offset} (hc : c.ShowsAt policy line o) (hlast : ∀ d ∈ after, ¬ d.ShowsAt policy line o) :
    tokenAt (paint policy line (before ++ c :: after)) o = c.paint policy line := by
  obtain ⟨t, ht, ho⟩ := Capture.showsAt_iff.mp hc
  have hafter : tokenAt (paint policy line after) o = none := tokenAt_paint_eq_none_iff.mpr hlast
  have hpaint : paint policy line (before ++ c :: after) =
      (paint policy line before ++ [t]) ++ paint policy line after := by
    simp [paint, ht]
  rw [hpaint, tokenAt_append, tokenAt_append, hafter, ht]
  simp [tokenAt, ho]

/-- The law of painting. -/
theorem tokenAt_paint (policy : StylePolicy) (line : Span) (captures : List Capture) (o : Offset) :
    ((tokenAt (paint policy line captures) o).isSome ↔ ∃ c ∈ captures, c.ShowsAt policy line o) ∧
      (∀ before c after, captures = before ++ c :: after → c.ShowsAt policy line o →
        (∀ d ∈ after, ¬ d.ShowsAt policy line o) →
        ∃ t, tokenAt (paint policy line captures) o = some t ∧ t.color = (policy c.tag).color ∧
          t.font = (policy c.tag).font ∧ c.span.IsPart line t.span) ∧
      (line.len ≤ o → tokenAt (paint policy line captures) o = none) := by
  refine ⟨?_, ?_, ?_⟩
  · rw [Option.isSome_iff_ne_none, ne_eq, tokenAt_paint_eq_none_iff]
    simp
  · rintro before c after rfl hc hlast
    obtain ⟨t, ht, -⟩ := Capture.showsAt_iff.mp hc
    obtain ⟨-, hclip, hcolor, hfont⟩ := Capture.paint_eq_some_iff.mp ht
    refine ⟨t, by rw [tokenAt_paint_of_last hc hlast, ht], hcolor, hfont, ?_⟩
    rcases Span.clip_cases c.span line with ⟨hnone, -⟩ | ⟨r, hsome, hpart⟩
    · rw [hnone] at hclip
      cases hclip
    · rw [hsome] at hclip
      cases hclip
      exact hpart
  · intro hlen
    apply tokenAt_paint_eq_none_iff.mpr
    rintro c - ⟨-, -, hline⟩
    have hlt := hline.lt_len
    rw [UInt64.le_iff_toNat_le] at hlen
    omega

end LineTint
