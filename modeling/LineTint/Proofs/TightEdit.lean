import LineTint.Proofs.CharBytes
import LineTint.Proofs.EditParts

namespace LineTint

theorem commonStart_comm (xs ys : List UInt8) : commonStart xs ys = commonStart ys xs := by
  induction xs generalizing ys with
  | nil => cases ys <;> rfl
  | cons x xs ih =>
      cases ys with
      | nil => rfl
      | cons y ys => simp only [commonStart, ih ys, eq_comm (a := x)]

theorem le_commonStart {front xs ys : List UInt8} (hx : front <+: xs) (hy : front <+: ys) :
    front.length ≤ commonStart xs ys := by
  obtain ⟨xs, rfl⟩ := hx
  obtain ⟨ys, rfl⟩ := hy
  induction front with
  | nil => exact Nat.zero_le _
  | cons b front ih => simpa [commonStart] using ih

theorem take_commonStart (xs ys : List UInt8) :
    xs.take (commonStart xs ys) = ys.take (commonStart xs ys) := by
  obtain ⟨front, xs', ys', rfl, rfl, hlen⟩ := commonStart_split xs ys
  rw [hlen, List.take_left, List.take_left]

namespace Edit

/-- The edit leads from the old version to the new one. The two have no longer start in common than the
one before it, and no longer end that leaves this start alone than the one behind it. -/
structure Tight (e : Edit) (old new : List UInt8) : Prop where
  start_le_oldEnd : e.start ≤ e.oldEnd
  oldEnd_le : e.oldEnd ≤ old.length
  start_le_newEnd : e.start ≤ e.newEnd
  newEnd_le : e.newEnd ≤ new.length
  front : old.take e.start = new.take e.start
  back : old.drop e.oldEnd = new.drop e.newEnd
  replaced : old.take e.start ++ (new.take e.newEnd).drop e.start ++ old.drop e.oldEnd = new
  front_longest : ∀ front, front <+: old → front <+: new → front.length ≤ e.start
  back_longest : ∀ back, back <:+ old → back <:+ new → e.start + back.length ≤ old.length →
    e.start + back.length ≤ new.length → back <:+ old.drop e.oldEnd
  changed : e.start < e.oldEnd ∨ e.start < e.newEnd

/-- The edit that undoes this one. -/
def swap (e : Edit) : Edit where
  start := e.start
  oldEnd := e.newEnd
  newEnd := e.oldEnd
  startPoint := e.startPoint
  oldEndPoint := e.newEndPoint
  newEndPoint := e.oldEndPoint

variable {e : Edit} {old new front removed added back : List UInt8}

theorem between_eq_none_iff : between old new = none ↔ old = new := by
  unfold between
  split <;> simp_all

theorem Parts.take_start_old (h : e.Parts old new front removed added back) : old.take e.start = front := by
  rw [h.start, h.old_eq, List.append_assoc, List.take_left]

theorem Parts.take_start_new (h : e.Parts old new front removed added back) : new.take e.start = front := by
  rw [h.start, h.new_eq, List.append_assoc, List.take_left]

theorem Parts.drop_oldEnd (h : e.Parts old new front removed added back) : old.drop e.oldEnd = back := by
  rw [h.oldEnd, h.old_eq, ← List.length_append, List.drop_left]

theorem Parts.drop_newEnd (h : e.Parts old new front removed added back) : new.drop e.newEnd = back := by
  rw [h.newEnd, h.new_eq, ← List.length_append, List.drop_left]

theorem Parts.added_eq (h : e.Parts old new front removed added back) :
    (new.take e.newEnd).drop e.start = added := by
  rw [h.newEnd, h.new_eq, ← List.length_append, List.take_left, h.start, List.drop_left]

theorem bounds_of_between (h : between old new = some e) :
    e.start = commonStart old new ∧
      e.oldEnd = old.length - commonStart (old.drop e.start).reverse (new.drop e.start).reverse := by
  rw [between, if_neg (ne_of_between h)] at h
  obtain rfl := Option.some.inj h
  exact ⟨rfl, rfl⟩

theorem suffix_drop {ending xs : List UInt8} {n : Nat} (h : ending <:+ xs)
    (hlen : n + ending.length ≤ xs.length) : ending <:+ xs.drop n := by
  apply List.suffix_of_suffix_length_le h (List.drop_suffix n xs)
  rw [List.length_drop]
  omega

theorem back_longest_of_between (h : between old new = some e)
    (hparts : e.Parts old new front removed added back) {ending : List UInt8} (hold : ending <:+ old)
    (hnew : ending <:+ new) (holdLen : e.start + ending.length ≤ old.length)
    (hnewLen : e.start + ending.length ≤ new.length) : ending <:+ back := by
  have hback : back <:+ old := ⟨front ++ removed, hparts.old_eq.symm⟩
  apply List.suffix_of_suffix_length_le hold hback
  obtain ⟨-, hbound⟩ := bounds_of_between h
  have hkept := le_commonStart (List.reverse_prefix.mpr (suffix_drop hold holdLen))
    (List.reverse_prefix.mpr (suffix_drop hnew hnewLen))
  rw [List.length_reverse] at hkept
  have hlen := congrArg List.length hparts.drop_oldEnd
  rw [List.length_drop] at hlen
  omega

theorem Parts.changed (h : e.Parts old new front removed added back) (hne : old ≠ new) :
    e.start < e.oldEnd ∨ e.start < e.newEnd := by
  rw [h.start, h.oldEnd, h.newEnd]
  by_contra hsame
  have hremoved : removed = [] := List.eq_nil_of_length_eq_zero (by omega)
  have hadded : added = [] := List.eq_nil_of_length_eq_zero (by omega)
  apply hne
  rw [h.old_eq, h.new_eq, hremoved, hadded]

theorem tight_of_between (h : between old new = some e) : e.Tight old new := by
  obtain ⟨front, removed, added, back, hparts⟩ := between_parts h
  have holdLen := congrArg List.length hparts.old_eq
  have hnewLen := congrArg List.length hparts.new_eq
  simp only [List.length_append, ← hparts.oldEnd, ← hparts.newEnd] at holdLen hnewLen
  constructor
  case start_le_oldEnd => rw [hparts.start, hparts.oldEnd]; omega
  case oldEnd_le => omega
  case start_le_newEnd => exact hparts.start_le
  case newEnd_le => exact hparts.newEnd_le
  case front => rw [hparts.take_start_old, hparts.take_start_new]
  case back => rw [hparts.drop_oldEnd, hparts.drop_newEnd]
  case replaced =>
    rw [hparts.take_start_old, hparts.added_eq, hparts.drop_oldEnd]
    exact hparts.new_eq.symm
  case front_longest =>
    intro front' hold hnew
    rw [(bounds_of_between h).1]
    exact le_commonStart hold hnew
  case back_longest =>
    intro ending hold hnew holdLen hnewLen
    rw [hparts.drop_oldEnd]
    exact back_longest_of_between h hparts hold hnew holdLen hnewLen
  case changed => exact hparts.changed (ne_of_between h)

theorem between_swap (old new : List UInt8) : between new old = (between old new).map swap := by
  by_cases h : old = new
  · rw [between_eq_none_iff.mpr h, between_eq_none_iff.mpr h.symm]
    rfl
  · rw [between, between, if_neg h, if_neg (Ne.symm h)]
    have hpoint : Point.ofOffset new (commonStart old new) = Point.ofOffset old (commonStart old new) := by
      simp only [Point.ofOffset, take_commonStart old new]
    simp only [Option.map_some, swap, commonStart_comm new old, hpoint,
      commonStart_comm (new.drop (commonStart old new)).reverse]

/-- There is an edit exactly between two different texts, and it is tight. The way back is the same edit
with its two ends exchanged. -/
theorem between_tight (old new : String) :
    (between (Text.bytes old) (Text.bytes new) = none ↔ old = new) ∧
      (old ≠ new → ∃ e, between (Text.bytes old) (Text.bytes new) = some e ∧
        e.Tight (Text.bytes old) (Text.bytes new)) ∧
      between (Text.bytes new) (Text.bytes old) =
        (between (Text.bytes old) (Text.bytes new)).map swap := by
  refine ⟨?_, ?_, between_swap _ _⟩
  · rw [between_eq_none_iff]
    exact ⟨Text.bytes_injective, congrArg Text.bytes⟩
  · intro hne
    obtain ⟨e, he⟩ := exists_between fun h => hne (Text.bytes_injective h)
    exact ⟨e, he, tight_of_between he⟩

-- Of equal letters the last is the one that went.
example :
    (between [97, 97, 97, 98] [97, 97, 98]).map (fun e => (e.start, e.oldEnd, e.newEnd)) = some (2, 3, 2) := by
  decide

end Edit
end LineTint
