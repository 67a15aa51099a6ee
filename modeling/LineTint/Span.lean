namespace LineTint

abbrev Offset := UInt64

namespace Offset

def last : Offset := 0xFFFFFFFFFFFFFFFF

def addCapped (a b : Offset) : Offset := if b ≤ last - a then a + b else last

def subFloored (a b : Offset) : Offset := if b ≤ a then a - b else 0

theorem toNat_last : last.toNat = 0xFFFFFFFFFFFFFFFF := rfl

theorem toNat_addCapped (a b : Offset) :
    (addCapped a b).toNat = min (a.toNat + b.toNat) last.toNat := by
  have ha := UInt64.toNat_lt a
  have hb := UInt64.toNat_lt b
  have hle : a ≤ last := by rw [UInt64.le_iff_toNat_le, toNat_last]; omega
  unfold addCapped
  split
  next h =>
    rw [UInt64.le_iff_toNat_le, UInt64.toNat_sub_of_le _ _ hle, toNat_last] at h
    rw [UInt64.toNat_add, toNat_last]
    omega
  next h =>
    rw [UInt64.le_iff_toNat_le, UInt64.toNat_sub_of_le _ _ hle, toNat_last] at h
    rw [toNat_last]
    omega

theorem toNat_subFloored (a b : Offset) : (subFloored a b).toNat = a.toNat - b.toNat := by
  unfold subFloored
  split
  next h => exact UInt64.toNat_sub_of_le _ _ h
  next h => rw [UInt64.le_iff_toNat_le] at h; simp; omega

end Offset

structure Span where
  start : Offset
  len : Offset
deriving DecidableEq, Repr, Inhabited

namespace Span

/-- A span from its bounds; bounds in the wrong order give an empty one. -/
def ofBounds (start stop : Offset) : Span := ⟨start, stop.subFloored start⟩

def stop (s : Span) : Offset := s.start.addCapped s.len

def isEmpty (s : Span) : Bool := s.len == 0

def contains (s : Span) (o : Offset) : Bool := decide (s.start ≤ o) && decide (o < s.stop)

/-- Whether the closed intervals of two spans meet. Meeting at a boundary counts, so an insertion
at the edge of a line, or on an empty line, is not missed. -/
def touches (s t : Span) : Bool := decide (s.start ≤ t.stop) && decide (t.start ≤ s.stop)

def clip (s line : Span) : Option Span :=
  let start := max s.start line.start
  let stop := min s.stop line.stop
  if stop ≤ start then none else some (ofBounds (start - line.start) (stop - line.start))

theorem toNat_stop (s : Span) :
    s.stop.toNat = min (s.start.toNat + s.len.toNat) Offset.last.toNat :=
  Offset.toNat_addCapped s.start s.len

theorem start_le_stop (s : Span) : s.start ≤ s.stop := by
  have := UInt64.toNat_lt s.start
  rw [UInt64.le_iff_toNat_le, toNat_stop, Offset.toNat_last]
  omega

end Span
end LineTint
