import LineTint.Span

namespace LineTint.Span

def Covers (s : Span) (n : Nat) : Prop := s.start.toNat ≤ n ∧ n < s.stop.toNat

theorem contains_iff {s : Span} {o : Offset} : s.contains o = true ↔ s.Covers o.toNat := by
  simp only [contains, Covers, Bool.and_eq_true, decide_eq_true_eq, UInt64.le_iff_toNat_le, UInt64.lt_iff_toNat_lt]

theorem toNat_stop_ofBounds (a b : Offset) : (ofBounds a b).stop.toNat = max a.toNat b.toNat := by
  have ha := UInt64.toNat_lt a
  have hb := UInt64.toNat_lt b
  rw [toNat_stop]
  change min (a.toNat + (b.subFloored a).toNat) _ = _
  rw [Offset.toNat_subFloored, Offset.toNat_last]
  omega

/-- What `s` and `line` have in common is `r`, counted from the start of `line`. -/
structure IsPart (s line r : Span) : Prop where
  nonempty : 0 < r.len.toNat
  start : line.start.toNat + r.start.toNat = max s.start.toNat line.start.toNat
  stop : line.start.toNat + r.start.toNat + r.len.toNat = min s.stop.toNat line.stop.toNat

theorem toNat_max (a b : Offset) : (max a b).toNat = max a.toNat b.toNat := by
  change (if a ≤ b then b else a).toNat = _
  split
  next h => rw [UInt64.le_iff_toNat_le] at h; omega
  next h => rw [UInt64.le_iff_toNat_le] at h; omega

theorem toNat_min (a b : Offset) : (min a b).toNat = min a.toNat b.toNat := by
  change (if a ≤ b then a else b).toNat = _
  split
  next h => rw [UInt64.le_iff_toNat_le] at h; omega
  next h => rw [UInt64.le_iff_toNat_le] at h; omega

theorem clip_cases (s line : Span) :
    (s.clip line = none ∧ min s.stop.toNat line.stop.toNat ≤ max s.start.toNat line.start.toNat) ∨
      ∃ r, s.clip line = some r ∧ s.IsPart line r := by
  have hmax := toNat_max s.start line.start
  have hmin := toNat_min s.stop line.stop
  by_cases h : min s.stop line.stop ≤ max s.start line.start
  · left
    refine ⟨if_pos h, ?_⟩
    rwa [UInt64.le_iff_toNat_le, hmax, hmin] at h
  · right
    refine ⟨_, if_neg h, ?_⟩
    rw [UInt64.le_iff_toNat_le, hmax, hmin] at h
    have hstart : (max s.start line.start - line.start).toNat =
        max s.start.toNat line.start.toNat - line.start.toNat := by
      rw [UInt64.toNat_sub_of_le, hmax]
      rw [UInt64.le_iff_toNat_le, hmax]; omega
    have hstop : (min s.stop line.stop - line.start).toNat =
        min s.stop.toNat line.stop.toNat - line.start.toNat := by
      rw [UInt64.toNat_sub_of_le, hmin]
      rw [UInt64.le_iff_toNat_le, hmin]; omega
    have hlen := Offset.toNat_subFloored (min s.stop line.stop - line.start) (max s.start line.start - line.start)
    rw [hstart, hstop] at hlen
    refine ⟨?_, ?_, ?_⟩ <;> simp only [ofBounds, hstart, hlen] <;> omega

theorem clip_eq_none_iff {s line : Span} :
    s.clip line = none ↔ min s.stop.toNat line.stop.toNat ≤ max s.start.toNat line.start.toNat := by
  rcases clip_cases s line with ⟨hnone, hle⟩ | ⟨r, hsome, hpart⟩
  · simp [hnone, hle]
  · have := hpart.nonempty
    have := hpart.start
    have := hpart.stop
    simp only [hsome, reduceCtorEq, false_iff]
    omega

/-- The part of a span on a line depends only on how far its bounds are from the start of the line. -/
theorem clip_eq_of_shift {s line s' line' : Span}
    (hstart : max s'.start.toNat line'.start.toNat + line.start.toNat =
      max s.start.toNat line.start.toNat + line'.start.toNat)
    (hstop : min s'.stop.toNat line'.stop.toNat + line.start.toNat =
      min s.stop.toNat line.stop.toNat + line'.start.toNat) :
    s'.clip line' = s.clip line := by
  rcases clip_cases s line with ⟨hnone, hle⟩ | ⟨r, hsome, hpart⟩
  · rw [hnone, clip_eq_none_iff]
    omega
  · have := hpart.nonempty
    have := hpart.start
    have := hpart.stop
    rcases clip_cases s' line' with ⟨-, hle'⟩ | ⟨r', hsome', hpart'⟩
    · omega
    · have := hpart'.start
      have := hpart'.stop
      have hsame : r' = r := by
        have hstart : r'.start = r.start := UInt64.toNat_inj.mp (by omega)
        have hlen : r'.len = r.len := UInt64.toNat_inj.mp (by omega)
        cases r
        cases r'
        exact congr (congrArg Span.mk hstart) hlen
      rw [hsome, hsome', hsame]

theorem IsPart.stop_toNat {s line r : Span} (h : s.IsPart line r) :
    r.stop.toNat = r.start.toNat + r.len.toNat := by
  have hr := toNat_stop r
  have hs := toNat_stop s
  have := h.stop
  omega

theorem IsPart.covers_iff {s line r : Span} (h : s.IsPart line r) (n : Nat) :
    r.Covers n ↔ s.Covers (line.start.toNat + n) ∧ line.Covers (line.start.toNat + n) := by
  have hstop := h.stop_toNat
  have := h.start
  have := h.stop
  unfold Covers
  omega

theorem clip_covers_iff (s line : Span) (n : Nat) :
    (∃ r, s.clip line = some r ∧ r.Covers n) ↔
      s.Covers (line.start.toNat + n) ∧ line.Covers (line.start.toNat + n) := by
  rcases clip_cases s line with ⟨hnone, hle⟩ | ⟨r, hsome, hpart⟩
  · simp only [hnone, Covers, reduceCtorEq, false_and, exists_false, false_iff]
    omega
  · simp only [hsome, Option.some.injEq, exists_eq_left']
    exact hpart.covers_iff n

theorem Covers.lt_len {line : Span} {n : Nat} (h : line.Covers (line.start.toNat + n)) : n < line.len.toNat := by
  have := toNat_stop line
  have := h.2
  omega

end LineTint.Span
