import LineTint.Edit
import Mathlib.Data.List.Basic

namespace LineTint

theorem commonStart_split (xs ys : List UInt8) :
    ∃ front xs' ys', xs = front ++ xs' ∧ ys = front ++ ys' ∧ commonStart xs ys = front.length := by
  induction xs generalizing ys with
  | nil => exact ⟨[], [], ys, rfl, rfl, rfl⟩
  | cons x xs ih =>
      cases ys with
      | nil => exact ⟨[], x :: xs, [], rfl, rfl, rfl⟩
      | cons y ys =>
          by_cases h : x = y
          · subst h
            obtain ⟨front, xs', ys', rfl, rfl, hlen⟩ := ih ys
            refine ⟨x :: front, xs', ys', rfl, rfl, ?_⟩
            rw [List.length_cons, ← hlen]
            exact if_pos rfl
          · exact ⟨[], x :: xs, y :: ys, rfl, rfl, if_neg h⟩

namespace Edit

/-- The old version is `front`, `removed`, `back`, and the new one `front`, `added`, `back`. -/
structure Parts (e : Edit) (old new front removed added back : List UInt8) : Prop where
  old_eq : old = front ++ removed ++ back
  new_eq : new = front ++ added ++ back
  start : e.start = front.length
  oldEnd : e.oldEnd = front.length + removed.length
  newEnd : e.newEnd = front.length + added.length

theorem ne_of_between {old new : List UInt8} {e : Edit} (h : between old new = some e) : old ≠ new := by
  rintro rfl
  rw [between, if_pos rfl] at h
  cases h

theorem between_parts {old new : List UInt8} {e : Edit} (h : between old new = some e) :
    ∃ front removed added back, e.Parts old new front removed added back := by
  rw [between, if_neg (ne_of_between h)] at h
  obtain rfl := Option.some.inj h
  obtain ⟨front, old', new', rfl, rfl, hstart⟩ := commonStart_split old new
  obtain ⟨kept, removed, added, hold, hnew, hkept⟩ := commonStart_split old'.reverse new'.reverse
  have hlen : commonStart ((front ++ old').drop (commonStart (front ++ old') (front ++ new'))).reverse
      ((front ++ new').drop (commonStart (front ++ old') (front ++ new'))).reverse = kept.length := by
    rw [hstart, List.drop_left, List.drop_left, hkept]
  have hold' : old' = removed.reverse ++ kept.reverse := by
    rw [← List.reverse_append, ← hold, List.reverse_reverse]
  have hnew' : new' = added.reverse ++ kept.reverse := by
    rw [← List.reverse_append, ← hnew, List.reverse_reverse]
  have holdLen := congrArg List.length hold'
  have hnewLen := congrArg List.length hnew'
  simp only [List.length_append, List.length_reverse] at holdLen hnewLen
  refine ⟨front, removed.reverse, added.reverse, kept.reverse, ?_, ?_, hstart, ?_, ?_⟩
  · rw [hold', List.append_assoc]
  · rw [hnew', List.append_assoc]
  all_goals
    simp only [hlen, List.length_append, List.length_reverse]
    omega

theorem exists_between {old new : List UInt8} (h : old ≠ new) : ∃ e, between old new = some e :=
  ⟨_, if_neg h⟩

variable {e : Edit} {old new front removed added back : List UInt8}

theorem Parts.start_le (h : e.Parts old new front removed added back) : e.start ≤ e.newEnd := by
  rw [h.start, h.newEnd]; omega

theorem Parts.newEnd_le (h : e.Parts old new front removed added back) : e.newEnd ≤ new.length := by
  rw [h.newEnd, h.new_eq, List.length_append, List.length_append]; omega

theorem Parts.start_le_length (h : e.Parts old new front removed added back) : e.start ≤ old.length := by
  rw [h.start, h.old_eq, List.length_append, List.length_append]; omega

theorem Parts.length_le (h : e.Parts old new front removed added back) : new.length ≤ e.newEnd + old.length := by
  rw [h.newEnd, h.new_eq, h.old_eq]
  simp only [List.length_append]
  omega

theorem span_bounds (hle : e.start ≤ e.newEnd) (hlast : e.newEnd ≤ Offset.last.toNat) :
    e.span.start.toNat = e.start ∧ e.span.stop.toNat = e.newEnd := by
  rw [Offset.toNat_last] at hlast
  have hstart : (UInt64.ofNat e.start).toNat = e.start := UInt64.toNat_ofNat_of_lt' (by change _ < 2 ^ 64; omega)
  have hstop : (UInt64.ofNat e.newEnd).toNat = e.newEnd := UInt64.toNat_ofNat_of_lt' (by change _ < 2 ^ 64; omega)
  refine ⟨hstart, ?_⟩
  rw [Span.toNat_stop]
  change min ((UInt64.ofNat e.start).toNat + (Offset.subFloored _ _).toNat) _ = _
  rw [Offset.toNat_subFloored, hstart, hstop, Offset.toNat_last]
  omega

theorem span_touches_eq_false_iff (hle : e.start ≤ e.newEnd) (hlast : e.newEnd ≤ Offset.last.toNat) {r : Span} :
    e.span.touches r = false ↔ r.stop.toNat < e.start ∨ e.newEnd < r.start.toNat := by
  obtain ⟨hstart, hstop⟩ := span_bounds hle hlast
  rw [Span.touches, Bool.and_eq_false_iff, decide_eq_false_iff_not, decide_eq_false_iff_not,
    UInt64.le_iff_toNat_le, UInt64.le_iff_toNat_le, hstart, hstop, Nat.not_le, Nat.not_le]

end Edit
end LineTint
