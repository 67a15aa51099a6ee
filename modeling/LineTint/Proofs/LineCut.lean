import LineTint.Proofs.CharBytes

namespace LineTint

def Span.slice (s : Span) (bs : List UInt8) : List UInt8 := (bs.drop s.start.toNat).take s.len.toNat

namespace Text

/-- After `before`, which is followed by `rest`, a line begins. CR LF is not torn apart. -/
def LineStart (before rest : List Char) : Prop :=
  before = [] ∨ ∃ cs c, before = cs ++ [c] ∧ isBreak c = true ∧ ¬ (c = '\r' ∧ ∃ ds, rest = '\n' :: ds)

def LineEnd (rest : List Char) : Prop := rest = [] ∨ ∃ c cs, rest = c :: cs ∧ isBreak c = true

structure LineCut (text before content rest : List Char) : Prop where
  text_eq : text = before ++ content ++ rest
  starts : LineStart before (content ++ rest)
  bare : ∀ c ∈ content, isBreak c = false
  ends : LineEnd rest

def lineBreaks : List (List Char) :=
  [['\r', '\n'], ['\n'], ['\r'], ['\x0b'], ['\x0c'], ['\u0085'], ['\u2028'], ['\u2029']]

theorem mem_lineBreaks_iff {b : List Char} :
    b ∈ lineBreaks ↔ b = ['\r', '\n'] ∨ ∃ c, b = [c] ∧ isBreak c = true := by
  simp only [lineBreaks, isBreak, List.mem_cons, List.not_mem_nil, or_false, Bool.or_eq_true, beq_iff_eq]
  constructor
  · rintro (rfl | rfl | rfl | rfl | rfl | rfl | rfl | rfl) <;> simp
  · rintro (rfl | ⟨c, rfl, hc⟩)
    · exact Or.inl rfl
    · simpa [or_assoc] using hc

theorem singleton_mem_lineBreaks {c : Char} : [c] ∈ lineBreaks ↔ isBreak c = true := by
  simp [mem_lineBreaks_iff]

theorem isBreak_iff {c : Char} :
    isBreak c = true ↔ c = '\n' ∨ c ∈ ['\r', '\x0b', '\x0c', '\u0085', '\u2028', '\u2029'] := by
  simp [isBreak, or_assoc]

theorem contentLength_break {content : List Char} {c : Char} (hbare : ∀ d ∈ content, isBreak d = false)
    (hc : isBreak c = true) : contentLength (content ++ [c]) = byteLength content := by
  rw [contentLength, List.reverse_append, List.reverse_singleton, List.singleton_append]
  split
  next rest heq =>
      -- The CR of a CR LF that is read here would be a break within the content.
      obtain ⟨rfl, hcr⟩ := List.cons.inj heq
      have hmem : '\r' ∈ content := List.mem_reverse.mp (by rw [hcr]; exact List.mem_cons_self)
      cases hbare _ hmem
  next rest _ heq =>
      obtain ⟨rfl, -⟩ := List.cons.inj heq
      rw [byteLength_concat]
      rfl
  next d rest hcrlf hlf heq =>
      obtain ⟨rfl, rfl⟩ := List.cons.inj heq
      rcases isBreak_iff.mp hc with rfl | hother
      · exact (hlf rfl).elim
      · rw [if_pos hother, byteLength_concat, Nat.add_sub_cancel]
  next heq => cases heq

theorem contentLength_bare {content : List Char} (hbare : ∀ d ∈ content, isBreak d = false) :
    contentLength content = byteLength content := by
  have hlast : ∀ d rest, content.reverse = d :: rest → isBreak d = false := fun d rest heq =>
    hbare d (List.mem_reverse.mp (by rw [heq]; exact List.mem_cons_self))
  rw [contentLength]
  split
  next rest heq => cases hlast _ _ heq
  next rest _ heq => cases hlast _ _ heq
  next d rest hcrlf hlf heq =>
      refine if_neg fun hd => ?_
      have hbreak := hlast _ _ heq
      rw [isBreak_iff.mpr (Or.inr hd)] at hbreak
      cases hbreak
  next heq => rfl

theorem contentLength_crlf (content : List Char) :
    contentLength (content ++ ['\r', '\n']) = byteLength content := by
  rw [contentLength, List.reverse_append]
  exact (congrArg (· - 2) (byteLength_append content _)).trans (Nat.add_sub_cancel _ 2)

/-- Cutting a text at its breaks and looking for the break at a line's end agree. -/
theorem contentLength_append {content ending : List Char} (hbare : ∀ c ∈ content, isBreak c = false)
    (hending : ending = [] ∨ ending ∈ lineBreaks) :
    contentLength (content ++ ending) = byteLength content := by
  rw [mem_lineBreaks_iff] at hending
  rcases hending with rfl | rfl | ⟨c, rfl, hc⟩
  · rw [List.append_nil, contentLength_bare hbare]
  · exact contentLength_crlf content
  · exact contentLength_break hbare hc

theorem flatten_linesFrom (acc cs : List Char) : (linesFrom acc cs).flatten = acc.reverse ++ cs := by
  fun_induction linesFrom acc cs with
  | case1 acc => rw [List.flatten_singleton, List.append_nil]
  | case2 acc rest ih => rw [List.flatten_cons, ih, List.append_assoc]; rfl
  | case3 acc c rest hcrlf hc ih => rw [List.flatten_cons, ih, List.append_assoc]; rfl
  | case4 acc c rest hcrlf hc ih => rw [ih, List.reverse_cons, List.append_assoc]; rfl

/-- Where a line was cut is where it ends without its break. -/
theorem exists_content_of_mem {acc cs line : List Char} (hacc : ∀ d ∈ acc, isBreak d = false)
    (h : line ∈ linesFrom acc cs) : ∃ content ending, line = content ++ ending ∧
      (∀ d ∈ content, isBreak d = false) ∧ (ending = [] ∨ ending ∈ lineBreaks) ∧
        contentLength line = byteLength content := by
  have hbare : ∀ d ∈ acc.reverse, isBreak d = false := fun d hd => hacc d (List.mem_reverse.mp hd)
  fun_induction linesFrom acc cs with
  | case1 acc =>
      obtain rfl := List.mem_singleton.mp h
      exact ⟨acc.reverse, [], (List.append_nil _).symm, hbare, Or.inl rfl, contentLength_bare hbare⟩
  | case2 acc rest ih =>
      rcases List.mem_cons.mp h with rfl | h
      · exact ⟨acc.reverse, _, rfl, hbare, Or.inr List.mem_cons_self, contentLength_crlf _⟩
      · exact ih (by simp) h (by simp)
  | case3 acc c rest hcrlf hc ih =>
      rcases List.mem_cons.mp h with rfl | h
      · exact ⟨acc.reverse, _, rfl, hbare, Or.inr (singleton_mem_lineBreaks.mpr hc), contentLength_break hbare hc⟩
      · exact ih (by simp) h (by simp)
  | case4 acc c rest hcrlf hc ih =>
      have hacc' := List.forall_mem_cons.mpr ⟨Bool.not_eq_true _ ▸ hc, hacc⟩
      exact ih hacc' h fun d hd => hacc' d (List.mem_reverse.mp hd)

def width (ls : List (List Char)) : Nat := byteLength ls.flatten

theorem width_cons (line : List Char) (ls : List (List Char)) :
    width (line :: ls) = byteLength line + width ls :=
  byteLength_append line ls.flatten

theorem spansFrom_append (start : Nat) (ls ms : List (List Char)) :
    spansFrom start (ls ++ ms) = spansFrom start ls ++ spansFrom (start + width ls) ms := by
  induction ls generalizing start with
  | nil => rfl
  | cons l ls ih =>
      rw [List.cons_append, spansFrom, spansFrom, ih, width_cons, Nat.add_assoc, List.cons_append]

theorem exists_lineCut (front : List Char) {acc rest : List Char} {s : Span}
    (hs : s ∈ spansFrom (byteLength front) (linesFrom acc rest))
    (hstart : LineStart front (acc.reverse ++ rest)) (hacc : ∀ c ∈ acc, isBreak c = false) :
    ∃ before content after, LineCut (front ++ acc.reverse ++ rest) before content after ∧
      s = ⟨UInt64.ofNat (byteLength before), UInt64.ofNat (byteLength content)⟩ := by
  have hbare : ∀ c ∈ acc.reverse, isBreak c = false := fun c hc => hacc c (List.mem_reverse.mp hc)
  fun_induction linesFrom acc rest generalizing front with
  | case1 acc =>
      obtain rfl := List.mem_singleton.mp hs
      exact ⟨front, acc.reverse, [], ⟨rfl, hstart, hbare, Or.inl rfl⟩, by rw [contentLength_bare hbare]⟩
  | case2 acc rest ih =>
      rcases List.mem_cons.mp hs with rfl | hs
      · exact ⟨front, acc.reverse, '\r' :: '\n' :: rest, ⟨rfl, hstart, hbare, Or.inr ⟨_, _, rfl, rfl⟩⟩,
          by rw [contentLength_crlf]⟩
      · have hnext := ih (front ++ acc.reverse ++ ['\r', '\n'])
          (by rwa [List.append_assoc, byteLength_append])
          (Or.inr ⟨front ++ acc.reverse ++ ['\r'], '\n', by simp, rfl, by simp⟩)
          (by simp) (by simp)
        simpa using hnext
  | case3 acc c rest hcrlf hc ih =>
      rcases List.mem_cons.mp hs with rfl | hs
      · exact ⟨front, acc.reverse, c :: rest, ⟨rfl, hstart, hbare, Or.inr ⟨_, _, rfl, hc⟩⟩,
          by rw [contentLength_break hbare hc]⟩
      · have hnext := ih (front ++ acc.reverse ++ [c])
          (by rwa [List.append_assoc, byteLength_append])
          (Or.inr ⟨front ++ acc.reverse, c, rfl, hc, fun ⟨hcr, ds, hds⟩ => hcrlf ds hcr hds⟩)
          (by simp) (by simp)
        simpa using hnext
  | case4 acc c rest hcrlf hc ih =>
      have hnext := ih front hs (by simpa using hstart)
        (List.forall_mem_cons.mpr ⟨by simpa using hc, hacc⟩)
        (fun d hd => List.forall_mem_cons.mpr ⟨by simpa using hc, hacc⟩ d (List.mem_reverse.mp hd))
      simpa using hnext

theorem linesFrom_break {c : Char} {rest : List Char} (acc : List Char) (hc : isBreak c = true)
    (hcrlf : ¬ (c = '\r' ∧ ∃ ds, rest = '\n' :: ds)) :
    linesFrom acc (c :: rest) = (acc.reverse ++ [c]) :: linesFrom [] rest := by
  rw [linesFrom, if_pos hc]
  exact fun ds hcr hds => hcrlf ⟨hcr, ds, hds⟩

theorem linesFrom_bare {c : Char} (acc rest : List Char) (hc : isBreak c = false) :
    linesFrom acc (c :: rest) = linesFrom (c :: acc) rest := by
  rw [linesFrom, if_neg (by simp [hc])]
  rintro ds rfl
  cases hc

theorem linesFrom_content {content : List Char} (acc rest : List Char)
    (hbare : ∀ c ∈ content, isBreak c = false) :
    linesFrom acc (content ++ rest) = linesFrom (content.reverse ++ acc) rest := by
  induction content generalizing acc with
  | nil => rfl
  | cons c content ih =>
      obtain ⟨hc, hbare⟩ := List.forall_mem_cons.mp hbare
      rw [List.cons_append, linesFrom_bare acc _ hc, ih (c :: acc) hbare, List.reverse_cons,
        List.append_assoc]
      rfl

theorem LineStart.tail {c : Char} {cs rest : List Char} (h : LineStart (c :: cs) rest) (hne : cs ≠ []) :
    LineStart cs rest := by
  rcases h with h | ⟨es, d, heq, hd⟩
  · cases h
  · cases es with
    | nil => exact absurd (List.cons.inj heq).2 hne
    | cons e es => exact Or.inr ⟨es, d, (List.cons.inj heq).2, hd⟩

theorem LineStart.of_rest {before rest rest' : List Char} (h : LineStart before rest)
    (hlf : ∀ ds, rest' = '\n' :: ds → ∃ ds, rest = '\n' :: ds) : LineStart before rest' := by
  rcases h with rfl | ⟨cs, c, rfl, hc, hcrlf⟩
  · exact Or.inl rfl
  · exact Or.inr ⟨cs, c, rfl, hc, fun ⟨hcr, ds, hds⟩ => hcrlf ⟨hcr, hlf ds hds⟩⟩

theorem LineStart.single {c : Char} {rest : List Char} (h : LineStart [c] rest) :
    isBreak c = true ∧ ¬ (c = '\r' ∧ ∃ ds, rest = '\n' :: ds) := by
  rcases h with h | ⟨es, d, heq, hd⟩
  · cases h
  · obtain ⟨rfl, hcd⟩ := List.append_inj' (show [] ++ [c] = es ++ [d] from heq) rfl
    obtain rfl := List.singleton_inj.mp hcd
    exact hd

theorem exists_split_cons {acc ending before rest : List Char} {ls : List (List Char)}
    (hline : ls = (acc ++ ending) :: linesFrom [] (before ++ rest))
    (hrest : before ≠ [] → ∃ ms, linesFrom [] (before ++ rest) = ms ++ linesFrom [] rest ∧
      width ms = byteLength before) :
    ∃ ms, ls = ms ++ linesFrom [] rest ∧ width ms = byteLength (acc ++ (ending ++ before)) := by
  by_cases hnil : before = []
  · subst hnil
    exact ⟨[acc ++ ending], hline, by rw [width, List.flatten_singleton, List.append_nil]⟩
  · obtain ⟨ms, hms, hwidth⟩ := hrest hnil
    refine ⟨(acc ++ ending) :: ms, by rw [hline, hms, List.cons_append], ?_⟩
    rw [width_cons, hwidth, ← byteLength_append, List.append_assoc]

theorem linesFrom_lineStart {before rest : List Char} (acc : List Char)
    (hstart : LineStart before rest) (hne : before ≠ []) :
    ∃ ls, linesFrom acc (before ++ rest) = ls ++ linesFrom [] rest ∧
      width ls = byteLength (acc.reverse ++ before) := by
  fun_induction linesFrom acc before with
  | case1 acc => exact absurd rfl hne
  | case2 acc before ih =>
      have hline : linesFrom acc ('\r' :: '\n' :: before ++ rest) =
          (acc.reverse ++ ['\r', '\n']) :: linesFrom [] (before ++ rest) := by
        rw [List.cons_append, List.cons_append, linesFrom]
      have htail : LineStart ('\n' :: before) rest := hstart.tail (by simp)
      refine exists_split_cons hline fun hnil => ?_
      simpa using ih (htail.tail hnil) hnil
  | case3 acc c before hcrlf hc ih =>
      have hline : linesFrom acc (c :: before ++ rest) =
          (acc.reverse ++ [c]) :: linesFrom [] (before ++ rest) := by
        refine linesFrom_break acc hc ?_
        rintro ⟨hcr, ds, hds⟩
        cases before with
        | nil => exact hstart.single.2 ⟨hcr, ds, hds⟩
        | cons d before => exact hcrlf before hcr (by rw [(List.cons.inj hds).1])
      refine exists_split_cons hline fun hnil => ?_
      simpa using ih (hstart.tail hnil) hnil
  | case4 acc c before hcrlf hc ih =>
      have hnil : before ≠ [] := by
        rintro rfl
        exact hc hstart.single.1
      obtain ⟨ls, hls, hwidth⟩ := ih (hstart.tail hnil) hnil
      refine ⟨ls, ?_, ?_⟩
      · rw [← hls]
        exact linesFrom_bare acc (before ++ rest) (by simpa using hc)
      · rw [hwidth, List.reverse_cons, List.append_assoc, List.singleton_append]

theorem linesFrom_lineEnd {content rest : List Char} (acc : List Char)
    (hbare : ∀ c ∈ content, isBreak c = false) (hend : LineEnd rest) :
    ∃ ending ls, linesFrom acc (content ++ rest) = (acc.reverse ++ content ++ ending) :: ls ∧
      (ending = [] ∨ ending ∈ lineBreaks) := by
  have hline : acc.reverse ++ content = (content.reverse ++ acc).reverse := by simp
  rw [linesFrom_content acc rest hbare, hline]
  rcases hend with rfl | ⟨c, cs, rfl, hc⟩
  · exact ⟨[], [], by rw [List.append_nil, linesFrom], Or.inl rfl⟩
  · by_cases hcrlf : c = '\r' ∧ ∃ ds, cs = '\n' :: ds
    · obtain ⟨rfl, ds, rfl⟩ := hcrlf
      exact ⟨_, _, by rw [linesFrom], Or.inr List.mem_cons_self⟩
    · exact ⟨_, _, linesFrom_break _ hc hcrlf, Or.inr (singleton_mem_lineBreaks.mpr hc)⟩

theorem mem_lineSpans_iff {text : String} {s : Span} :
    s ∈ lineSpans text ↔ ∃ before content after, LineCut text.toList before content after ∧
      s = ⟨UInt64.ofNat (byteLength before), UInt64.ofNat (byteLength content)⟩ := by
  constructor
  · intro hs
    exact exists_lineCut [] hs (Or.inl rfl) (by simp)
  · rintro ⟨before, content, after, hcut, rfl⟩
    rw [lineSpans, lines, hcut.text_eq, List.append_assoc]
    obtain ⟨ending, ls, hline, hending⟩ := linesFrom_lineEnd [] hcut.bare hcut.ends
    rw [List.reverse_nil, List.nil_append] at hline
    rw [← contentLength_append hcut.bare hending]
    by_cases hnil : before = []
    · subst hnil
      rw [List.nil_append, hline]
      exact List.mem_cons_self
    · obtain ⟨ms, hms, hwidth⟩ := linesFrom_lineStart [] hcut.starts hnil
      rw [List.reverse_nil, List.nil_append] at hwidth
      rw [hms, hline, spansFrom_append, hwidth, Nat.zero_add]
      exact List.mem_append_right _ List.mem_cons_self

variable {text : String} {s : Span} {before content after : List Char}

theorem LineCut.length_bytes (h : LineCut text.toList before content after) :
    (bytes text).length = byteLength before + byteLength content + byteLength after := by
  rw [Text.length_bytes, h.text_eq, byteLength_append, byteLength_append]

/-- The span `s` is the line that is cut out. -/
structure Measures (s : Span) (before content : List Char) : Prop where
  start : s.start.toNat = byteLength before
  len : s.len.toNat = byteLength content
  stop : s.stop.toNat = byteLength before + byteLength content

theorem measures_of_le (hle : byteLength before + byteLength content ≤ Offset.last.toNat) :
    Measures ⟨UInt64.ofNat (byteLength before), UInt64.ofNat (byteLength content)⟩ before content := by
  have hlast := hle
  rw [Offset.toNat_last] at hlast
  have hstart : (UInt64.ofNat (byteLength before)).toNat = byteLength before :=
    UInt64.toNat_ofNat_of_lt' (by change _ < 2 ^ 64; omega)
  have hlen : (UInt64.ofNat (byteLength content)).toNat = byteLength content :=
    UInt64.toNat_ofNat_of_lt' (by change _ < 2 ^ 64; omega)
  refine ⟨hstart, hlen, ?_⟩
  rw [Span.toNat_stop, hstart, hlen, Nat.min_eq_left hle]

theorem LineCut.measures (h : LineCut text.toList before content after)
    (hsize : (bytes text).length ≤ Offset.last.toNat) :
    Measures ⟨UInt64.ofNat (byteLength before), UInt64.ofNat (byteLength content)⟩ before content := by
  apply measures_of_le
  rw [h.length_bytes] at hsize
  omega

theorem exists_cut_of_mem (hs : s ∈ lineSpans text) (hsize : (bytes text).length ≤ Offset.last.toNat) :
    ∃ before content after, LineCut text.toList before content after ∧ Measures s before content := by
  obtain ⟨before, content, after, hcut, rfl⟩ := mem_lineSpans_iff.mp hs
  exact ⟨before, content, after, hcut, hcut.measures hsize⟩

theorem exists_mem_of_cut (h : LineCut text.toList before content after)
    (hsize : (bytes text).length ≤ Offset.last.toNat) : ∃ s ∈ lineSpans text, Measures s before content :=
  ⟨_, mem_lineSpans_iff.mpr ⟨before, content, after, h, rfl⟩, h.measures hsize⟩

theorem LineCut.slice (h : LineCut text.toList before content after) (hs : Measures s before content) :
    s.slice (bytes text) = encode content := by
  rw [Span.slice, hs.start, hs.len, bytes, h.text_eq, encode_append, encode_append, List.append_assoc,
    ← length_encode before, List.drop_left, ← length_encode content, List.take_left]

end Text
end LineTint
