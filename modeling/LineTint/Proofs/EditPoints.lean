import LineTint.Proofs.TightEdit
import Mathlib.Data.List.DropRight
import Mathlib.Data.List.Induction
import Mathlib.Data.Nat.SuccPred
import Mathlib.Data.Prod.Lex
import Mathlib.Order.Interval.Set.Monotone

namespace LineTint

namespace Point

def key (p : Point) : Nat ×ₗ Nat := toLex (p.row, p.column)

theorem key_injective : Function.Injective key := by
  rintro ⟨row, column⟩ ⟨row', column'⟩ h
  simpa [key] using h

instance : LinearOrder Point := .lift' key key_injective

/-- Where a row begins: behind the LF that ends the row before it. -/
def rowStart (text : List UInt8) : Nat → Nat
  | 0 => 0
  | row + 1 => text.idxOfNth 10 row + 1

def toOffset (text : List UInt8) (p : Point) : Nat := rowStart text p.row + p.column

/-- The points of a text tell where its offsets are. The row counts the LF bytes in front of an offset, and
the column the bytes behind the last of these. -/
structure Faithful (text : List UInt8) : Prop where
  row : ∀ offset, (ofOffset text offset).row = (text.take offset).count 10
  column : ∀ offset, (ofOffset text offset).column = ((text.take offset).rtakeWhile (· ≠ 10)).length
  increasing : StrictMonoOn (ofOffset text) (Set.Iic text.length)
  injective : Set.InjOn (ofOffset text) (Set.Iic text.length)
  recovered : Set.LeftInvOn (toOffset text) (ofOffset text) (Set.Iic text.length)

variable {text : List UInt8} {offset : Nat} {b : UInt8}

theorem lt_iff {p q : Point} : p < q ↔ p.row < q.row ∨ p.row = q.row ∧ p.column < q.column :=
  Prod.Lex.toLex_lt_toLex

theorem next_break (p : Point) : p.next 10 = ⟨p.row + 1, 0⟩ := rfl

theorem next_of_ne (p : Point) (h : b ≠ 10) : p.next b = ⟨p.row, p.column + 1⟩ := if_neg h

theorem lt_next (p : Point) (b : UInt8) : p < p.next b := by
  rw [lt_iff]
  by_cases h : b = 10
  · subst h
    exact .inl (Nat.lt_succ_self p.row)
  · rw [next_of_ne p h]
    exact .inr ⟨rfl, Nat.lt_succ_self p.column⟩

theorem ofOffset_succ (h : offset < text.length) :
    ofOffset text (offset + 1) = (ofOffset text offset).next text[offset] := by
  rw [ofOffset, List.take_succ_eq_append_getElem h, List.foldl_append]
  rfl

theorem foldl_next (bs : List UInt8) :
    bs.foldl next {} = ⟨bs.count 10, (bs.rtakeWhile (· ≠ 10)).length⟩ := by
  induction bs using List.reverseRecOn with
  | nil => rfl
  | append_singleton bs b ih =>
      rw [List.foldl_append, ih, List.foldl_cons, List.foldl_nil, List.count_append, List.rtakeWhile_concat]
      by_cases h : b = 10
      · subst h
        rfl
      · rw [next_of_ne _ h, List.count_singleton, if_neg (by simpa using h), if_pos (by simpa using h),
          List.length_append]
        rfl

theorem strictMonoOn_ofOffset (text : List UInt8) : StrictMonoOn (ofOffset text) (Set.Iic text.length) := by
  refine strictMonoOn_Iic_of_lt_succ fun offset h => ?_
  rw [Order.succ_eq_add_one, ofOffset_succ h]
  exact lt_next _ _

theorem ofOffset_le_iff {a b : Nat} (ha : a ≤ text.length) (hb : b ≤ text.length) :
    ofOffset text a ≤ ofOffset text b ↔ a ≤ b :=
  (strictMonoOn_ofOffset text).le_iff_le ha hb

theorem ofOffset_inj {a b : Nat} (ha : a ≤ text.length) (hb : b ≤ text.length) :
    ofOffset text a = ofOffset text b ↔ a = b :=
  (strictMonoOn_ofOffset text).injOn.eq_iff ha hb

theorem rowStart_succ (h : offset < text.length) (hbreak : text[offset] = 10) :
    rowStart text ((text.take offset).count 10 + 1) = offset + 1 := by
  have hbeq : (text[offset] == 10) = true := beq_iff_eq.mpr hbreak
  rw [rowStart, ← List.countBefore_eq_count_take, List.idxOfNth_countBefore_of_lt_length_of_beq hbeq]

theorem toOffset_ofOffset (h : offset ≤ text.length) : toOffset text (ofOffset text offset) = offset := by
  induction offset with
  | zero => rfl
  | succ offset ih =>
      have hlt : offset < text.length := h
      -- Behind an LF a row begins, which the offset alone decides; behind any other byte the row is the same.
      by_cases hbreak : text[offset] = 10
      · rw [ofOffset_succ hlt, hbreak, next_break, ofOffset, foldl_next]
        exact rowStart_succ hlt hbreak
      · calc toOffset text (ofOffset text (offset + 1))
            _ = toOffset text (ofOffset text offset) + 1 := by rw [ofOffset_succ hlt, next_of_ne _ hbreak]; rfl
            _ = offset + 1 := by rw [ih hlt.le]

theorem faithful (text : List UInt8) : Faithful text where
  row offset := by rw [ofOffset, foldl_next]
  column offset := by rw [ofOffset, foldl_next]
  increasing := strictMonoOn_ofOffset text
  injective := (strictMonoOn_ofOffset text).injOn
  recovered _ := toOffset_ofOffset

-- An LF still stands on the row that it ends.
example : [2, 3, 5].map (ofOffset (Text.bytes "é\nbc")) = [⟨0, 2⟩, ⟨1, 0⟩, ⟨1, 2⟩] := by decide

end Point

namespace Edit

open Point

variable {e : Edit} {old new : List UInt8}

/-- The points of an edit stand where its offsets do, and it makes no difference in which version the start is
looked up. -/
structure Placed (e : Edit) (old new : List UInt8) : Prop where
  start_old : e.startPoint = ofOffset old e.start
  start_new : e.startPoint = ofOffset new e.start
  oldEnd : e.oldEndPoint = ofOffset old e.oldEnd
  newEnd : e.newEndPoint = ofOffset new e.newEnd
  start_le_oldEnd : e.startPoint ≤ e.oldEndPoint
  start_le_newEnd : e.startPoint ≤ e.newEndPoint
  start_eq_oldEnd_iff : e.startPoint = e.oldEndPoint ↔ e.start = e.oldEnd
  start_eq_newEnd_iff : e.startPoint = e.newEndPoint ↔ e.start = e.newEnd

theorem points_of_between (h : between old new = some e) :
    e.startPoint = ofOffset old e.start ∧ e.oldEndPoint = ofOffset old e.oldEnd ∧
      e.newEndPoint = ofOffset new e.newEnd := by
  rw [between, if_neg (ne_of_between h)] at h
  obtain rfl := Option.some.inj h
  exact ⟨rfl, rfl, rfl⟩

theorem placed_of_between (h : between old new = some e) : e.Placed old new := by
  have htight := tight_of_between h
  obtain ⟨hstart, holdEnd, hnewEnd⟩ := points_of_between h
  have hstart' : e.startPoint = ofOffset new e.start := by rw [hstart, ofOffset, htight.front, ofOffset]
  have hold : e.start ≤ old.length := htight.start_le_oldEnd.trans htight.oldEnd_le
  have hnew : e.start ≤ new.length := htight.start_le_newEnd.trans htight.newEnd_le
  refine ⟨hstart, hstart', holdEnd, hnewEnd, ?_, ?_, ?_, ?_⟩
  · rw [hstart, holdEnd, ofOffset_le_iff hold htight.oldEnd_le]
    exact htight.start_le_oldEnd
  · rw [hstart', hnewEnd, ofOffset_le_iff hnew htight.newEnd_le]
    exact htight.start_le_newEnd
  · rw [hstart, holdEnd, ofOffset_inj hold htight.oldEnd_le]
  · rw [hstart', hnewEnd, ofOffset_inj hnew htight.newEnd_le]

/-- In every text, different offsets have different points, which stand in the order of the offsets, and each
leads back to its offset. An edit has the points of its own offsets: the one of the start is the same in
both versions, it is not behind either end, and it is one of them only where the offsets are the same. -/
theorem points_faithful :
    (∀ text, Faithful text) ∧ ∀ old new e, between old new = some e → e.Placed old new :=
  ⟨faithful, fun _ _ _ => placed_of_between⟩

theorem points_faithful_joined :
    between (Text.bytes "é\nb\nc") (Text.bytes "é\nbc") = some ⟨4, 5, 4, ⟨1, 1⟩, ⟨2, 0⟩, ⟨1, 1⟩⟩ ∧
      Placed ⟨4, 5, 4, ⟨1, 1⟩, ⟨2, 0⟩, ⟨1, 1⟩⟩ (Text.bytes "é\nb\nc") (Text.bytes "é\nbc") :=
  ⟨by decide, points_faithful.2 _ _ _ (by decide)⟩

end Edit
end LineTint
