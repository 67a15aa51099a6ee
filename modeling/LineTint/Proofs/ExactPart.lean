import LineTint.Proofs.SpanPart

namespace LineTint

namespace Offset

def sub? (a b : Offset) : Option Offset := if b ≤ a then some (a - b) else none

theorem sub?_of_le {a b : Offset} (h : b ≤ a) : sub? a b = some (a - b) := if_pos h

theorem subFloored_of_le {a b : Offset} (h : b ≤ a) : subFloored a b = a - b := if_pos h

end Offset

namespace Span

/-- Clipping with differences that fail where they would be negative. -/
def clipChecked (s line : Span) : Option (Option Span) :=
  let start := max s.start line.start
  let stop := min s.stop line.stop
  if stop ≤ start then some none
  else do
    let first ← start.sub? line.start
    let last ← stop.sub? line.start
    let len ← last.sub? first
    return some ⟨first, len⟩

def onText (line r : Span) : Span := ⟨line.start + r.start, r.len⟩

theorem clipChecked_eq (s line : Span) : s.clipChecked line = some (s.clip line) := by
  have hmax := toNat_max s.start line.start
  have hmin := toNat_min s.stop line.stop
  rw [clipChecked, clip]
  by_cases h : min s.stop line.stop ≤ max s.start line.start
  · rw [if_pos h, if_pos h]
  · have hlt : max s.start.toNat line.start.toNat < min s.stop.toNat line.stop.toNat := by
      rw [UInt64.le_iff_toNat_le, hmax, hmin] at h
      omega
    have hstart : line.start ≤ max s.start line.start := by
      rw [UInt64.le_iff_toNat_le, hmax]
      omega
    have hstop : line.start ≤ min s.stop line.stop := by
      rw [UInt64.le_iff_toNat_le, hmin]
      omega
    have hlen : max s.start line.start - line.start ≤ min s.stop line.stop - line.start := by
      rw [UInt64.le_iff_toNat_le, UInt64.toNat_sub_of_le _ _ hstart, UInt64.toNat_sub_of_le _ _ hstop, hmax, hmin]
      omega
    rw [if_neg h, if_neg h, ofBounds, Offset.subFloored_of_le hlen]
    simp only [Offset.sub?_of_le hstart, Offset.sub?_of_le hstop, Option.bind_eq_bind, Option.bind_some,
      Offset.sub?_of_le hlen, Option.pure_def]

variable {s line r : Span}

theorem clip_eq_none_iff_disjoint : s.clip line = none ↔ ¬ ∃ o, s.contains o = true ∧ line.contains o = true := by
  simp only [clip_eq_none_iff, contains_iff, Covers]
  constructor
  · rintro hle ⟨o, hs, hline⟩
    omega
  · intro hnone
    -- Of two spans that meet, the later start lies in both.
    refine Nat.le_of_not_lt fun hlt => hnone ⟨max s.start line.start, ?_⟩
    rw [toNat_max]
    omega

theorem toNat_add_of_lt {a b : Offset} (h : a.toNat + b.toNat < UInt64.size) :
    (a + b).toNat = a.toNat + b.toNat := by
  rw [UInt64.toNat_add, Nat.mod_eq_of_lt h]

theorem IsPart.le_len (h : s.IsPart line r) : r.start.toNat + r.len.toNat ≤ line.len.toNat := by
  have hstop := h.stop
  have hline := toNat_stop line
  omega

theorem Covers.lt_size {n : Nat} (h : s.Covers n) : n < UInt64.size :=
  Nat.lt_trans h.2 (UInt64.toNat_lt_size s.stop)

theorem IsPart.contains_iff (h : s.IsPart line r) (o : Offset) :
    r.contains o = true ↔ line.start.toNat + o.toNat < UInt64.size ∧ s.contains (line.start + o) = true ∧
      line.contains (line.start + o) = true := by
  rw [Span.contains_iff, Span.contains_iff, Span.contains_iff, h.covers_iff]
  constructor
  · rintro ⟨hs, hline⟩
    rw [toNat_add_of_lt hs.lt_size]
    exact ⟨hs.lt_size, hs, hline⟩
  · rintro ⟨hlt, hs, hline⟩
    rw [toNat_add_of_lt hlt] at hs hline
    exact ⟨hs, hline⟩

theorem IsPart.onText_bounds (h : s.IsPart line r) :
    (line.onText r).start.toNat = max s.start.toNat line.start.toNat ∧
      (line.onText r).stop.toNat = min s.stop.toNat line.stop.toNat := by
  have hstart : (line.onText r).start.toNat = line.start.toNat + r.start.toNat := by
    have := h.nonempty
    have := h.stop
    have := UInt64.toNat_lt_size line.stop
    exact toNat_add_of_lt (by omega)
  have hstop := toNat_stop (line.onText r)
  have hlast := toNat_stop line
  have := h.start
  have := h.stop
  change (line.onText r).stop.toNat = min ((line.onText r).start.toNat + r.len.toNat) _ at hstop
  omega

theorem IsPart.clip_onText (h : s.IsPart line r) : (line.onText r).clip line = s.clip line := by
  obtain ⟨hstart, hstop⟩ := h.onText_bounds
  apply clip_eq_of_shift
  · omega
  · omega

/-- Nothing is left exactly where no offset lies in both the span and the line. Otherwise what is left has
a length, ends where the line does at the latest, and has the offsets that lie in both and no others; to
clip it once more changes nothing. No difference that is taken for it is negative. -/
theorem clip_exact (s line : Span) :
    s.clipChecked line = some (s.clip line) ∧
    (s.clip line = none ↔ ¬ ∃ o, s.contains o = true ∧ line.contains o = true) ∧
    ∀ r, s.clip line = some r →
      0 < r.len ∧ r.start.toNat + r.len.toNat ≤ line.len.toNat ∧
      (∀ o : Offset, r.contains o = true ↔ line.start.toNat + o.toNat < UInt64.size ∧
        s.contains (line.start + o) = true ∧ line.contains (line.start + o) = true) ∧
      (line.onText r).clip line = some r := by
  refine ⟨clipChecked_eq s line, clip_eq_none_iff_disjoint, fun r hr => ?_⟩
  obtain ⟨hnone, -⟩ | ⟨r', hr', hpart⟩ := clip_cases s line
  · cases hnone.symm.trans hr
  · obtain rfl := Option.some.inj (hr'.symm.trans hr)
    refine ⟨UInt64.lt_iff_toNat_lt.mpr hpart.nonempty, hpart.le_len, hpart.contains_iff, ?_⟩
    rw [hpart.clip_onText, hr]

-- The end of the first span would pass the last offset, and so would that of the line.
example : (⟨Offset.last - 1, 5⟩ : Span).clip ⟨Offset.last - 4, 10⟩ = some ⟨3, 1⟩ := by decide

end Span
end LineTint
