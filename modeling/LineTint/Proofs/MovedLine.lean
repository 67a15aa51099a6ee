import LineTint.Painting
import LineTint.Proofs.CharBytes
import LineTint.Proofs.EditParts
import LineTint.Proofs.SpanPart

namespace LineTint

open Text

def Span.map (f : Offset → Offset) (s : Span) : Span := ofBounds (f s.start) (f s.stop)

def Capture.map (f : Offset → Offset) (c : Capture) : Capture := { c with span := c.span.map f }

theorem Span.start_map (f : Offset → Offset) (s : Span) : (s.map f).start = f s.start := rfl

theorem Span.toNat_stop_map (f : Offset → Offset) (s : Span) :
    (s.map f).stop.toNat = max (f s.start).toNat (f s.stop).toNat :=
  toNat_stop_ofBounds (f s.start) (f s.stop)

namespace Edit

/-- `f` takes the offsets of an old version with `size` bytes to offsets of the new one. Those within
the edit have no certain place there, and only stay within it. -/
structure Carries (e : Edit) (size : Nat) (f : Offset → Offset) : Prop where
  before : ∀ o : Offset, o.toNat < e.start → f o = o
  within : ∀ o : Offset, e.start ≤ o.toNat → o.toNat ≤ e.oldEnd →
    e.start ≤ (f o).toNat ∧ (f o).toNat ≤ e.newEnd
  behind : ∀ o : Offset, e.oldEnd < o.toNat → o.toNat ≤ size →
    (f o).toNat + e.oldEnd = o.toNat + e.newEnd

variable {e : Edit} {size : Nat} {f : Offset → Offset} {o : Offset}

theorem Carries.start_le (h : e.Carries size f) (hle : e.start ≤ e.newEnd) (ho : e.start ≤ o.toNat)
    (hsize : o.toNat ≤ size) : e.start ≤ (f o).toNat := by
  by_cases hend : o.toNat ≤ e.oldEnd
  · exact (h.within o ho hend).1
  · have := h.behind o (by omega) hsize
    omega

theorem Carries.le_newEnd (h : e.Carries size f) (hle : e.start ≤ e.newEnd) (ho : o.toNat ≤ e.oldEnd) :
    (f o).toNat ≤ e.newEnd := by
  by_cases hstart : o.toNat < e.start
  · rw [h.before o hstart]
    omega
  · exact (h.within o (by omega) ho).2

theorem Carries.clear_cases (h : e.Carries size f) (hle : e.start ≤ e.newEnd)
    (hlast : e.newEnd ≤ Offset.last.toNat) {line : Span} (hline : line.stop.toNat ≤ size)
    (hclear : e.span.touches (line.map f) = false) :
    line.stop.toNat < e.start ∨ e.oldEnd < line.start.toNat := by
  rw [span_touches_eq_false_iff hle hlast, Span.toNat_stop_map] at hclear
  rcases hclear with hlt | hlt
  · left
    by_contra hstart
    have := h.start_le hle (Nat.not_lt.mp hstart) hline
    omega
  · right
    by_contra hend
    have := h.le_newEnd hle (Nat.not_lt.mp hend)
    exact absurd hlt (Nat.not_lt.mpr this)

variable {s line : Span}

theorem Carries.clip_before (h : e.Carries size f) (hle : e.start ≤ e.newEnd) (hs : s.stop.toNat ≤ size)
    (hlt : line.stop.toNat < e.start) : (s.map f).clip (line.map f) = s.clip line := by
  have hlineLe := UInt64.le_iff_toNat_le.mp line.start_le_stop
  have hspan := UInt64.le_iff_toNat_le.mp s.start_le_stop
  have hlineStart := h.before line.start (by omega)
  have hlineStop := h.before line.stop hlt
  -- An end that does not keep its place lies behind the line, there and here.
  have hstop : f s.stop = s.stop ∨ e.start ≤ (f s.stop).toNat ∧ e.start ≤ s.stop.toNat := by
    by_cases hend : s.stop.toNat < e.start
    · exact Or.inl (h.before s.stop hend)
    · exact Or.inr ⟨h.start_le hle (Nat.not_lt.mp hend) hs, Nat.not_lt.mp hend⟩
  by_cases hs' : s.start.toNat < e.start
  · have hstart := h.before s.start hs'
    apply Span.clip_eq_of_shift
    · rw [Span.start_map, Span.start_map, hlineStart, hstart]
    · rw [Span.toNat_stop_map, Span.toNat_stop_map, Span.start_map, hlineStart, hlineStop, hstart]
      rcases hstop with hstop | hstop
      · rw [hstop]
        omega
      · omega
  · have hstart := h.start_le hle (Nat.not_lt.mp hs') (by omega)
    rw [Span.clip_eq_none_iff.mpr, Span.clip_eq_none_iff.mpr (by omega)]
    rw [Span.toNat_stop_map, Span.toNat_stop_map, Span.start_map, Span.start_map, hlineStart, hlineStop]
    omega

theorem Carries.clip_behind (h : e.Carries size f) (hle : e.start ≤ e.newEnd) (hs : s.stop.toNat ≤ size)
    (hline : line.stop.toNat ≤ size) (hlt : e.oldEnd < line.start.toNat) :
    (s.map f).clip (line.map f) = s.clip line := by
  have hlineLe := UInt64.le_iff_toNat_le.mp line.start_le_stop
  have hspan := UInt64.le_iff_toNat_le.mp s.start_le_stop
  have hlineStart := h.behind line.start hlt (by omega)
  have hlineStop := h.behind line.stop (by omega) hline
  by_cases hend : s.stop.toNat ≤ e.oldEnd
  · have hstop := h.le_newEnd hle hend
    have hstart := h.le_newEnd (o := s.start) hle (by omega)
    rw [Span.clip_eq_none_iff.mpr, Span.clip_eq_none_iff.mpr (by omega)]
    rw [Span.toNat_stop_map, Span.toNat_stop_map, Span.start_map, Span.start_map]
    omega
  · have hstop := h.behind s.stop (by omega) hs
    -- A start that does not move with the line lies before it, there and here.
    have hstart : (f s.start).toNat ≤ e.newEnd ∧ s.start.toNat ≤ e.oldEnd ∨
        (f s.start).toNat + e.oldEnd = s.start.toNat + e.newEnd := by
      by_cases hs' : s.start.toNat ≤ e.oldEnd
      · exact Or.inl ⟨h.le_newEnd hle hs', hs'⟩
      · exact Or.inr (h.behind s.start (by omega) (by omega))
    apply Span.clip_eq_of_shift
    · rw [Span.start_map, Span.start_map]
      omega
    · rw [Span.toNat_stop_map, Span.toNat_stop_map, Span.start_map]
      omega

theorem Carries.clip (h : e.Carries size f) (hle : e.start ≤ e.newEnd) (hlast : e.newEnd ≤ Offset.last.toNat)
    (hline : line.stop.toNat ≤ size) (hclear : e.span.touches (line.map f) = false)
    (hs : s.stop.toNat ≤ size) : (s.map f).clip (line.map f) = s.clip line := by
  rcases h.clear_cases hle hlast hline hclear with hlt | hlt
  · exact h.clip_before hle hs hlt
  · exact h.clip_behind hle hs hline hlt

end Edit

/-- A line that lies clear of the edit after it has the tokens that it had before it. Such a line lies
wholly before or wholly behind the edit; the captures may lie anywhere. -/
theorem paint_map_of_clear (old new : String) (hne : old ≠ new)
    (hnew : (bytes new).length ≤ Offset.last.toNat) :
    ∃ edit, Edit.between (bytes old) (bytes new) = some edit ∧
      ∀ f, edit.Carries (bytes old).length f →
        ∀ line : Span, line.stop.toNat ≤ (bytes old).length → edit.span.touches (line.map f) = false →
          ∀ (policy : StylePolicy) (captures : List Capture),
            (∀ c ∈ captures, c.span.stop.toNat ≤ (bytes old).length) →
              paint policy (line.map f) (captures.map (·.map f)) = paint policy line captures := by
  obtain ⟨edit, hedit⟩ := Edit.exists_between fun h => hne (bytes_injective h)
  obtain ⟨front, removed, added, back, hparts⟩ := Edit.between_parts hedit
  refine ⟨edit, hedit, fun f hf line hline hclear policy captures hcaptures => ?_⟩
  simp only [paint, List.filterMap_map]
  apply List.filterMap_congr
  intro c hc
  have hclip := hf.clip hparts.start_le (Nat.le_trans hparts.newEnd_le hnew) hline hclear (hcaptures c hc)
  simp only [Function.comp_apply, Capture.paint]
  rw [show (c.map f).span.clip (line.map f) = c.span.clip line from hclip]
  rfl

def shifted (o : Offset) : Offset := if o ≤ 2 then o else o + 1

def boldPolicy : StylePolicy := fun _ => { font := { bold := true } }

theorem paint_map_of_clear_shifted :
    "ab\ncd\nef" ≠ "abX\ncd\nef" ∧ (bytes "abX\ncd\nef").length ≤ Offset.last.toNat ∧
      ∃ edit, Edit.between (bytes "ab\ncd\nef") (bytes "abX\ncd\nef") = some edit ∧
        edit.Carries (bytes "ab\ncd\nef").length shifted ∧
        edit.span.touches (Span.map shifted ⟨3, 2⟩) = false ∧
        paint boldPolicy ⟨4, 2⟩ [⟨"comment", ⟨0, 9⟩⟩, ⟨"name", ⟨5, 1⟩⟩] =
          paint boldPolicy ⟨3, 2⟩ [⟨"comment", ⟨0, 8⟩⟩, ⟨"name", ⟨4, 1⟩⟩] := by
  have hne : "ab\ncd\nef" ≠ "abX\ncd\nef" := by decide
  have hnew : (bytes "abX\ncd\nef").length ≤ Offset.last.toNat := by decide
  have hsize : (bytes "ab\ncd\nef").length = 8 := by decide
  obtain ⟨edit, hedit, hpaint⟩ := paint_map_of_clear "ab\ncd\nef" "abX\ncd\nef" hne hnew
  have hknown : Edit.between (bytes "ab\ncd\nef") (bytes "abX\ncd\nef") =
      some ⟨2, 2, 3, ⟨0, 2⟩, ⟨0, 2⟩, ⟨0, 3⟩⟩ := by decide
  obtain rfl := Option.some.inj (hknown.symm.trans hedit)
  have hcarries : Edit.Carries ⟨2, 2, 3, ⟨0, 2⟩, ⟨0, 2⟩, ⟨0, 3⟩⟩ (bytes "ab\ncd\nef").length shifted := by
    rw [hsize]
    refine ⟨fun o ho => ?_, fun o hstart hend => ?_, fun o ho hle => ?_⟩
    · exact if_pos (UInt64.le_iff_toNat_le.mpr (Nat.le_of_lt ho))
    · rw [shifted, if_pos (UInt64.le_iff_toNat_le.mpr hend)]
      exact ⟨hstart, Nat.le_succ_of_le hend⟩
    · rw [shifted, if_neg (by rw [UInt64.le_iff_toNat_le]; exact Nat.not_le.mpr ho), UInt64.toNat_add]
      change (o.toNat + 1) % _ + 2 = o.toNat + 3
      omega
  have hclear : (Edit.mk 2 2 3 ⟨0, 2⟩ ⟨0, 2⟩ ⟨0, 3⟩).span.touches (Span.map shifted ⟨3, 2⟩) = false := by decide
  exact ⟨hne, hnew, _, hedit, hcarries, hclear, hpaint shifted hcarries ⟨3, 2⟩ (by decide) hclear boldPolicy
    [⟨"comment", ⟨0, 8⟩⟩, ⟨"name", ⟨4, 1⟩⟩] (by decide)⟩

end LineTint
