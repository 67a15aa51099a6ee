import LineTint.Proofs.LineCut
import LineTint.Proofs.SpanPart
import Mathlib.Data.List.Chain

namespace LineTint

namespace Span

/-- At least one offset lies between the two. -/
def Precedes (r s : Span) : Prop := r.stop < s.start

instance : Trans Precedes Precedes Precedes where
  trans {_ s _} hrs hst := UInt64.lt_trans (UInt64.lt_of_lt_of_le hrs s.start_le_stop) hst

def gaps (spans : List Span) : List Span :=
  spans.zipWith (fun r s => ofBounds r.stop s.start) spans.tail

/-- Spans in order and the gaps between them cover each offset once, from the first start to the
last stop. -/
theorem countP_contains {r : Span} {spans : List Span} {o : Offset} (hchain : (r :: spans).IsChain Precedes)
    (hstop : ∀ s, (r :: spans).getLast? = some s → o < s.stop) :
    (r :: spans ++ gaps (r :: spans)).countP (·.contains o) = if r.start ≤ o then 1 else 0 := by
  induction spans generalizing r with
  | nil =>
      have hlt := hstop r rfl
      simp [gaps, contains, hlt]
  | cons s spans ih =>
      obtain ⟨hrs, hchain⟩ := List.isChain_cons_cons.mp hchain
      have hcount := ih hchain (fun t ht => hstop t (by rwa [List.getLast?_cons_cons]))
      have hgaps : gaps (r :: s :: spans) = ofBounds r.stop s.start :: gaps (s :: spans) := rfl
      have hgap : (ofBounds r.stop s.start).contains o = true ↔ r.stop.toNat ≤ o.toNat ∧ o.toNat < s.start.toNat := by
        have hstop := toNat_stop_ofBounds r.stop s.start
        have hlt := UInt64.lt_iff_toNat_lt.mp hrs
        rw [contains_iff, Covers, hstop, Nat.max_eq_right (Nat.le_of_lt hlt)]
        exact Iff.rfl
      have hle := UInt64.le_iff_toNat_le.mp r.start_le_stop
      have hlt := UInt64.lt_iff_toNat_lt.mp hrs
      rw [hgaps]
      simp only [List.cons_append, List.countP_append, List.countP_cons, hgap, contains_iff, Covers,
        UInt64.le_iff_toNat_le] at hcount ⊢
      split_ifs at hcount ⊢ <;> omega

end Span

namespace Text

/-- From the end of `r` to the start of `s` the text has one break, and not just the CR of CR LF. -/
def PartedAt (text : String) (r s : Span) : Prop :=
  ∃ b ∈ lineBreaks, (bytes text).extract r.stop.toNat s.start.toNat = encode b ∧
    ¬ (b = ['\r'] ∧ (bytes text)[s.start.toNat]? = some 10)

structure SplitFrom (text : String) (start : Nat) (spans : List Span) : Prop where
  first : ∃ r, spans.head? = some r ∧ r.start.toNat = start
  last : ∃ r, spans.getLast? = some r ∧ r.stop.toNat = (bytes text).length
  parted : spans.IsChain (PartedAt text)
  bare : ∀ r ∈ spans, ∃ cs, (bytes text).extract r.start.toNat r.stop.toNat = encode cs ∧
    ∀ c ∈ cs, [c] ∉ lineBreaks
  valid : ∀ r ∈ spans, String.Pos.Raw.IsValid text ⟨r.start.toNat⟩ ∧
    String.Pos.Raw.IsValid text ⟨r.stop.toNat⟩

theorem bare_iff {cs : List Char} : (∀ c ∈ cs, [c] ∉ lineBreaks) ↔ ∀ c ∈ cs, isBreak c = false := by
  simp only [singleton_mem_lineBreaks, Bool.not_eq_true]

theorem linesFrom_lineBreak {b rest : List Char} (acc : List Char) (hb : b ∈ lineBreaks)
    (hwhole : ¬ (b = ['\r'] ∧ ∃ cs, rest = '\n' :: cs)) :
    linesFrom acc (b ++ rest) = (acc.reverse ++ b) :: linesFrom [] rest := by
  rcases mem_lineBreaks_iff.mp hb with rfl | ⟨c, rfl, hc⟩
  · rw [List.cons_append, List.cons_append, List.nil_append, linesFrom]
  · refine linesFrom_break acc hc ?_
    rintro ⟨rfl, hlf⟩
    exact hwhole ⟨rfl, hlf⟩

section
variable {text : String} {before rest : List Char} (htext : text.toList = before ++ rest)
include htext

theorem drop_bytes : (bytes text).drop (byteLength before) = encode rest := by
  rw [bytes, htext, encode_append, ← length_encode, List.drop_left]

theorem length_bytes_append : (bytes text).length = byteLength before + byteLength rest := by
  rw [length_bytes, htext, byteLength_append]

theorem extract_bytes {mid after : List Char} (hrest : rest = mid ++ after) :
    (bytes text).extract (byteLength before) (byteLength before + byteLength mid) = encode mid := by
  rw [List.extract_eq_take_drop, drop_bytes htext, hrest, encode_append, Nat.add_sub_cancel_left,
    ← length_encode mid, List.take_left]

theorem exists_of_extract {n : Nat} {mid : List Char} (hn : byteLength before ≤ n)
    (hlen : n ≤ (bytes text).length)
    (h : (bytes text).extract (byteLength before) n = encode mid) :
    ∃ after, rest = mid ++ after ∧ n = byteLength before + byteLength mid := by
  rw [List.extract_eq_take_drop, drop_bytes htext] at h
  rw [length_bytes_append htext] at hlen
  have hmid := congrArg List.length h
  rw [List.length_take, length_encode, length_encode] at hmid
  have hrest := (List.take_append_drop (n - byteLength before) (encode rest)).symm
  rw [h] at hrest
  obtain ⟨after, hafter, -⟩ := encode_prefix hrest
  exact ⟨after, hafter, by omega⟩

theorem getElem?_bytes_eq_lf_iff :
    (bytes text)[byteLength before]? = some 10 ↔ ∃ cs, rest = '\n' :: cs := by
  rw [← Nat.add_zero (byteLength before), ← List.getElem?_drop, drop_bytes htext]
  cases rest with
  | nil => simp [encode]
  | cons c cs =>
      rw [encode_cons]
      constructor
      · intro h
        obtain ⟨b, bs, hb⟩ := List.exists_cons_of_ne_nil (String.utf8EncodeChar_ne_nil (c := c))
        rw [hb, List.cons_append, List.getElem?_cons_zero] at h
        obtain rfl : c = '\n' := eq_of_ascii_mem (by decide) (by
          rw [hb, Option.some.inj h]
          exact List.mem_cons_self)
        exact ⟨cs, rfl⟩
      · rintro ⟨ds, hds⟩
        rw [(List.cons.inj hds).1]
        rfl

end

theorem le_length_of_isValid {text : String} {n : Nat} (h : String.Pos.Raw.IsValid text ⟨n⟩) :
    n ≤ (bytes text).length := by
  obtain ⟨front, back, htext, rfl⟩ := isValid_iff.mp h
  rw [length_bytes_append htext]
  exact Nat.le_add_right _ _

variable {text : String} {before content rest : List Char} {r : Span} {spans : List Span}

theorem PartedAt.precedes {s : Span} (h : PartedAt text r s) : r.Precedes s := by
  obtain ⟨b, hb, hextract, -⟩ := h
  by_contra hlt
  rw [Span.Precedes, UInt64.lt_iff_toNat_lt, Nat.not_lt] at hlt
  rw [List.extract_eq_take_drop, Nat.sub_eq_zero_of_le hlt, List.take_zero] at hextract
  obtain rfl := encode_eq_nil hextract.symm
  simp [lineBreaks] at hb

theorem Measures.eq (h : Measures r before content) :
    r = ⟨UInt64.ofNat (byteLength before), UInt64.ofNat (byteLength content)⟩ := by
  obtain ⟨start, len⟩ := r
  rw [← h.start, ← h.len, UInt64.ofNat_toNat, UInt64.ofNat_toNat]

theorem Measures.bare (hr : Measures r before content) (htext : text.toList = before ++ (content ++ rest))
    (hbare : ∀ c ∈ content, isBreak c = false) :
    ∃ cs, (bytes text).extract r.start.toNat r.stop.toNat = encode cs ∧ ∀ c ∈ cs, [c] ∉ lineBreaks := by
  refine ⟨content, ?_, bare_iff.mpr hbare⟩
  rw [hr.start, hr.stop]
  exact extract_bytes htext rfl

theorem Measures.valid (hr : Measures r before content) (htext : text.toList = before ++ (content ++ rest)) :
    String.Pos.Raw.IsValid text ⟨r.start.toNat⟩ ∧ String.Pos.Raw.IsValid text ⟨r.stop.toNat⟩ := by
  constructor
  · exact isValid_iff.mpr ⟨before, content ++ rest, htext, hr.start.symm⟩
  · refine isValid_iff.mpr ⟨before ++ content, rest, by rw [htext, List.append_assoc], ?_⟩
    rw [hr.stop, byteLength_append]

theorem SplitFrom.single (htext : text.toList = before ++ content) (hr : Measures r before content)
    (hbare : ∀ c ∈ content, isBreak c = false) : SplitFrom text (byteLength before) [r] := by
  have htext' : text.toList = before ++ (content ++ []) := by rw [htext, List.append_nil]
  refine ⟨⟨r, rfl, hr.start⟩, ⟨r, rfl, ?_⟩, List.isChain_singleton r, ?_, ?_⟩
  · rw [hr.stop, length_bytes_append htext]
  · exact List.forall_mem_singleton.mpr (hr.bare htext' hbare)
  · exact List.forall_mem_singleton.mpr (hr.valid htext')

theorem SplitFrom.cons {b : List Char} (h : SplitFrom text (byteLength (before ++ content ++ b)) spans)
    (htext : text.toList = before ++ (content ++ (b ++ rest))) (hr : Measures r before content)
    (hbare : ∀ c ∈ content, isBreak c = false) (hb : b ∈ lineBreaks)
    (hwhole : ¬ (b = ['\r'] ∧ ∃ cs, rest = '\n' :: cs)) :
    SplitFrom text (byteLength before) (r :: spans) := by
  obtain ⟨s, hs, hstart⟩ := h.first
  obtain ⟨tail, rfl⟩ := List.head?_eq_some_iff.mp hs
  refine ⟨⟨r, rfl, hr.start⟩, ?_, ?_, ?_, ?_⟩
  · obtain ⟨last, hlast, hstop⟩ := h.last
    exact ⟨last, by rw [List.getLast?_cons_cons, hlast], hstop⟩
  · have hbreak : text.toList = before ++ content ++ (b ++ rest) := by simp [htext]
    have hnext : text.toList = before ++ content ++ b ++ rest := by simp [htext]
    refine List.isChain_cons_cons.mpr ⟨⟨b, hb, ?_, ?_⟩, h.parted⟩
    · rw [hr.stop, hstart, byteLength_append _ b, ← byteLength_append]
      exact extract_bytes hbreak rfl
    · rwa [hstart, getElem?_bytes_eq_lf_iff hnext]
  · exact List.forall_mem_cons.mpr ⟨hr.bare htext hbare, h.bare⟩
  · exact List.forall_mem_cons.mpr ⟨hr.valid htext, h.valid⟩

theorem SplitFrom.tail {s : Span} {tail : List Span} {start : Nat} (h : SplitFrom text start (r :: s :: tail)) :
    SplitFrom text s.start.toNat (s :: tail) where
  first := ⟨s, rfl, rfl⟩
  last := by
    obtain ⟨last, hlast, hstop⟩ := h.last
    exact ⟨last, by rwa [List.getLast?_cons_cons] at hlast, hstop⟩
  parted := (List.isChain_cons_cons.mp h.parted).2
  bare := (List.forall_mem_cons.mp h.bare).2
  valid := (List.forall_mem_cons.mp h.valid).2

theorem SplitFrom.measures {start : Nat} (h : SplitFrom text start (r :: spans)) (hstart : start = byteLength before)
    (htext : text.toList = before ++ rest) (hsize : (bytes text).length < Offset.last.toNat) :
    ∃ content after, rest = content ++ after ∧ Measures r before content ∧
      ∀ c ∈ content, isBreak c = false := by
  obtain ⟨s, hs, hfirst⟩ := h.first
  obtain rfl := Option.some.inj hs
  obtain ⟨content, hextract, hbare⟩ := h.bare r List.mem_cons_self
  have hle := UInt64.le_iff_toNat_le.mp r.start_le_stop
  have hstop := le_length_of_isValid (h.valid r List.mem_cons_self).2
  rw [hfirst, hstart] at hextract
  obtain ⟨after, hrest, hlen⟩ := exists_of_extract htext (by omega) hstop hextract
  have hcapped := r.toNat_stop
  exact ⟨content, after, hrest, ⟨by omega, by omega, hlen⟩, bare_iff.mp hbare⟩

theorem SplitFrom.exists_break {s : Span} {tail : List Span} {start : Nat}
    (h : SplitFrom text start (r :: s :: tail)) (hr : Measures r before content)
    (htext : text.toList = before ++ (content ++ rest)) :
    ∃ b after, rest = b ++ after ∧ b ∈ lineBreaks ∧ ¬ (b = ['\r'] ∧ ∃ cs, after = '\n' :: cs) ∧
      s.start.toNat = byteLength (before ++ content ++ b) := by
  have hparted := (List.isChain_cons_cons.mp h.parted).1
  have hlt := hparted.precedes
  obtain ⟨b, hb, hextract, hwhole⟩ := hparted
  have hstart := le_length_of_isValid (h.valid s (by simp)).1
  have hbreak : text.toList = before ++ content ++ rest := by simp [htext]
  rw [hr.stop, ← byteLength_append] at hextract
  rw [Span.Precedes, UInt64.lt_iff_toNat_lt, hr.stop, ← byteLength_append] at hlt
  obtain ⟨after, rfl, hlen⟩ := exists_of_extract hbreak (Nat.le_of_lt hlt) hstart hextract
  have hnext : text.toList = before ++ content ++ b ++ after := by simp [htext]
  rw [← byteLength_append] at hlen
  rw [hlen, getElem?_bytes_eq_lf_iff hnext] at hwhole
  exact ⟨b, after, rfl, hb, hwhole, hlen⟩

theorem SplitFrom.eq_spansFrom {start : Nat} (h : SplitFrom text start spans) (hstart : start = byteLength before)
    (htext : text.toList = before ++ rest) (hsize : (bytes text).length < Offset.last.toNat) :
    spans = spansFrom start (linesFrom [] rest) := by
  -- The first span fixes what its line holds, and the start of the second one the break behind it: the
  -- splitter has no choice but the same.
  induction spans generalizing before rest start with
  | nil =>
      obtain ⟨r, hr, -⟩ := h.first
      cases hr
  | cons r spans ih =>
      obtain ⟨content, after, rfl, hr, hbare⟩ := h.measures hstart htext hsize
      rw [linesFrom_content [] after hbare, List.append_nil]
      cases spans with
      | nil =>
          obtain ⟨s, hs, hstop⟩ := h.last
          obtain rfl : r = s := Option.some.inj hs
          rw [hr.stop, length_bytes_append htext, byteLength_append] at hstop
          obtain rfl : after = [] := byteLength_eq_zero (by omega)
          rw [linesFrom, spansFrom, spansFrom, List.reverse_reverse, contentLength_bare hbare, hr.eq, hstart]
      | cons s tail =>
          obtain ⟨b, after, rfl, hb, hwhole, hnext⟩ := h.exists_break hr htext
          have htext' : text.toList = before ++ content ++ b ++ after := by simp [htext]
          rw [linesFrom_lineBreak _ hb hwhole, spansFrom, List.reverse_reverse,
            contentLength_append hbare (Or.inr hb), hr.eq, hstart, ih h.tail hnext htext', hnext,
            List.append_assoc, byteLength_append]

theorem measures_of_eq (htext : text.toList = before ++ (content ++ rest))
    (hsize : (bytes text).length ≤ Offset.last.toNat) :
    Measures ⟨UInt64.ofNat (byteLength before), UInt64.ofNat (byteLength content)⟩ before content := by
  rw [length_bytes_append htext, byteLength_append] at hsize
  exact measures_of_le (by omega)

theorem splitFrom_spansFrom (front : List Char) {acc rest : List Char}
    (htext : text.toList = front ++ (acc.reverse ++ rest)) (hacc : ∀ c ∈ acc.reverse, isBreak c = false)
    (hsize : (bytes text).length ≤ Offset.last.toNat) :
    SplitFrom text (byteLength front) (spansFrom (byteLength front) (linesFrom acc rest)) := by
  -- `acc` is the part of a line that has been read, which begins behind `front`.
  fun_induction linesFrom acc rest generalizing front with
  | case1 acc =>
      have hr := measures_of_eq htext hsize
      rw [spansFrom, contentLength_bare hacc]
      exact .single (by rw [htext, List.append_nil]) hr hacc
  | case2 acc rest ih =>
      have hr := measures_of_eq htext hsize
      have hnext : text.toList = front ++ acc.reverse ++ ['\r', '\n'] ++ rest := by simp [htext]
      have h := ih (front ++ acc.reverse ++ ['\r', '\n']) hnext (by simp)
      rw [spansFrom, contentLength_crlf, ← byteLength_append, ← List.append_assoc]
      exact h.cons htext hr hacc (by simp [lineBreaks]) (by simp)
  | case3 acc c rest hcrlf hc ih =>
      have hr := measures_of_eq htext hsize
      have hnext : text.toList = front ++ acc.reverse ++ [c] ++ rest := by simp [htext]
      have h := ih (front ++ acc.reverse ++ [c]) hnext (by simp)
      rw [spansFrom, contentLength_break hacc hc, ← byteLength_append, ← List.append_assoc]
      refine h.cons htext hr hacc (singleton_mem_lineBreaks.mpr hc) ?_
      rintro ⟨hcr, cs, hcs⟩
      exact hcrlf cs (List.singleton_inj.mp hcr) hcs
  | case4 acc c rest hcrlf hc ih =>
      refine ih front (by simpa using htext) ?_
      rw [List.reverse_cons]
      exact List.forall_mem_append.mpr ⟨hacc, List.forall_mem_singleton.mpr (by simpa using hc)⟩

theorem SplitFrom.ordered {start : Nat} (h : SplitFrom text start spans) : spans.IsChain Span.Precedes :=
  h.parted.imp fun _ _ hrs => hrs.precedes

theorem SplitFrom.countP_contains {o : Offset} (h : SplitFrom text 0 spans) (ho : o.toNat < (bytes text).length) :
    (spans ++ Span.gaps spans).countP (·.contains o) = 1 := by
  obtain ⟨r, hr, hstart⟩ := h.first
  obtain ⟨last, hlast, hstop⟩ := h.last
  obtain ⟨tail, rfl⟩ := List.head?_eq_some_iff.mp hr
  have hcount := Span.countP_contains h.ordered (o := o) (by
    rintro s hs
    obtain rfl := Option.some.inj (hlast.symm.trans hs)
    rwa [UInt64.lt_iff_toNat_lt, hstop])
  rw [hcount, if_pos]
  rw [UInt64.le_iff_toNat_le, hstart]
  exact Nat.zero_le _

theorem lineSpans_splitFrom (hsize : (bytes text).length ≤ Offset.last.toNat) :
    SplitFrom text 0 (lineSpans text) :=
  splitFrom_spansFrom [] rfl (by simp) hsize

theorem getLast?_lineSpans_of_break {front b : List Char} (hsize : (bytes text).length ≤ Offset.last.toNat)
    (htext : text.toList = front ++ b) (hb : b ∈ lineBreaks) :
    (lineSpans text).getLast? = some ⟨UInt64.ofNat (bytes text).length, 0⟩ := by
  obtain ⟨r, hlast, hstop⟩ := (lineSpans_splitFrom hsize).last
  obtain ⟨before, content, after, hcut, hr⟩ := exists_cut_of_mem (List.mem_of_getLast? hlast) hsize
  have hlen := hcut.length_bytes
  rw [hr.stop] at hstop
  obtain rfl : after = [] := byteLength_eq_zero (by omega)
  have hend : before ++ content = front ++ b := by rw [← htext, hcut.text_eq, List.append_nil]
  obtain ⟨cs, c, rfl, hc⟩ : ∃ cs c, b = cs ++ [c] ∧ isBreak c = true := by
    rcases mem_lineBreaks_iff.mp hb with rfl | ⟨c, rfl, hc⟩
    · exact ⟨['\r'], '\n', rfl, rfl⟩
    · exact ⟨[], c, rfl, hc⟩
  rcases List.eq_nil_or_concat' content with rfl | ⟨ds, d, rfl⟩
  · rw [hlast, hr.eq]
    rw [byteLength_nil, Nat.add_zero] at hstop
    rw [hstop]
    rfl
  · rw [← List.append_assoc, ← List.append_assoc] at hend
    obtain rfl := List.singleton_inj.mp (List.append_inj' hend rfl).2
    rw [hcut.bare d (by simp)] at hc
    cases hc

/-- The lines of a text are the one way to split it at its breaks, and what is left of a line when the break at its
end is taken off is the line as it was cut. -/
theorem lineSpans_only_split (text : String) (hsize : (bytes text).length < Offset.last.toNat) :
    (∀ spans, SplitFrom text 0 spans ↔ spans = lineSpans text) ∧
      (lineSpans text).Pairwise Span.Precedes ∧
      (∀ o : Offset, o.toNat < (bytes text).length →
        (lineSpans text ++ Span.gaps (lineSpans text)).countP (·.contains o) = 1) ∧
      (∀ front b, text.toList = front ++ b → b ∈ lineBreaks →
        (lineSpans text).getLast? = some ⟨UInt64.ofNat (bytes text).length, 0⟩) ∧
      (lines text.toList).flatten = text.toList ∧
      ∀ line ∈ lines text.toList, ∃ content ending, line = content ++ ending ∧
        (∀ c ∈ content, isBreak c = false) ∧ (ending = [] ∨ ending ∈ lineBreaks) ∧
          contentLength line = byteLength content := by
  have hle := Nat.le_of_lt hsize
  have hsplit := lineSpans_splitFrom hle
  refine ⟨fun spans => ⟨fun h => ?_, ?_⟩, hsplit.ordered.pairwise, ?_, ?_, flatten_linesFrom [] text.toList,
    fun _ => exists_content_of_mem nofun⟩
  · exact h.eq_spansFrom rfl (List.nil_append _).symm hsize
  · rintro rfl
    exact hsplit
  · intro o ho
    exact hsplit.countP_contains ho
  · intro front b htext hb
    exact getLast?_lineSpans_of_break hle htext hb

theorem lineSpans_only_split_mixed :
    (bytes "a\r\n\u0085b\u2028").length < Offset.last.toNat ∧
      ∀ spans, SplitFrom "a\r\n\u0085b\u2028" 0 spans ↔
        spans = [⟨0, 1⟩, ⟨3, 0⟩, ⟨5, 1⟩, ⟨9, 0⟩] := by
  have hsize : (bytes "a\r\n\u0085b\u2028").length < Offset.last.toNat := by decide
  have hlines : lineSpans "a\r\n\u0085b\u2028" = [⟨0, 1⟩, ⟨3, 0⟩, ⟨5, 1⟩, ⟨9, 0⟩] := by decide
  refine ⟨hsize, fun spans => ?_⟩
  rw [(lineSpans_only_split _ hsize).1 spans, hlines]

end Text
end LineTint
