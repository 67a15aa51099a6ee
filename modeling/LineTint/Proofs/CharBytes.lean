import LineTint.Text.LineBreak
import LineTint.Text.Utf8
import Mathlib.Data.List.Basic

namespace LineTint.Text

open String (utf8EncodeChar)

theorem encode_cons (c : Char) (cs : List Char) : encode (c :: cs) = utf8EncodeChar c ++ encode cs :=
  List.flatMap_cons

theorem encode_append (cs ds : List Char) : encode (cs ++ ds) = encode cs ++ encode ds :=
  List.flatMap_append

theorem encode_singleton (c : Char) : encode [c] = utf8EncodeChar c :=
  (encode_cons c []).trans (List.append_nil _)

theorem encode_concat (cs : List Char) (c : Char) : encode (cs ++ [c]) = encode cs ++ utf8EncodeChar c := by
  rw [encode_append, encode_singleton]

@[simp] theorem byteLength_nil : byteLength [] = 0 := rfl

@[simp] theorem byteLength_cons (c : Char) (cs : List Char) : byteLength (c :: cs) = c.utf8Size + byteLength cs := rfl

@[simp] theorem byteLength_append (cs ds : List Char) : byteLength (cs ++ ds) = byteLength cs + byteLength ds := by
  induction cs with
  | nil => simp
  | cons c cs ih => rw [List.cons_append, byteLength_cons, byteLength_cons, ih, Nat.add_assoc]

theorem byteLength_concat (cs : List Char) (c : Char) : byteLength (cs ++ [c]) = byteLength cs + c.utf8Size :=
  byteLength_append cs [c]

theorem length_encode (cs : List Char) : (encode cs).length = byteLength cs := by
  induction cs with
  | nil => rfl
  | cons c cs ih => rw [encode_cons, List.length_append, String.length_utf8EncodeChar, ih, byteLength_cons]

theorem length_bytes (text : String) : (bytes text).length = byteLength text.toList := length_encode _

theorem utf8ByteSize_eq (text : String) : text.utf8ByteSize = byteLength text.toList := by
  obtain ⟨cs, rfl⟩ : ∃ cs, text = String.ofList cs := ⟨text.toList, String.ofList_toList.symm⟩
  rw [String.toList_ofList]
  induction cs with
  | nil => rfl
  | cons c cs ih => simp [String.ofList_cons, ← ih]

theorem isValid_iff {text : String} {n : Nat} :
    String.Pos.Raw.IsValid text ⟨n⟩ ↔ ∃ front back, text.toList = front ++ back ∧ byteLength front = n := by
  rw [String.Pos.Raw.isValid_iff_exists_append]
  constructor
  · rintro ⟨s, t, rfl, hn⟩
    refine ⟨s.toList, t.toList, String.toList_append, ?_⟩
    rw [← utf8ByteSize_eq]
    exact (congrArg String.Pos.Raw.byteIdx hn).symm
  · rintro ⟨front, back, htext, rfl⟩
    refine ⟨.ofList front, .ofList back, ?_, ?_⟩
    · rw [← String.ofList_append, ← htext, String.ofList_toList]
    · have hsize := utf8ByteSize_eq (.ofList front)
      rw [String.toList_ofList] at hsize
      exact congrArg String.Pos.Raw.mk hsize.symm

theorem encode_eq_nil {cs : List Char} (h : encode cs = []) : cs = [] := by
  cases cs with
  | nil => rfl
  | cons c cs =>
      rw [encode_cons, List.append_eq_nil_iff] at h
      exact absurd h.1 String.utf8EncodeChar_ne_nil

theorem byteLength_eq_zero {cs : List Char} (h : byteLength cs = 0) : cs = [] :=
  encode_eq_nil (List.length_eq_zero_iff.mp ((length_encode cs).trans h))

theorem append_inj_of_byteLength {cs ds xs ys : List Char} (h : cs ++ xs = ds ++ ys)
    (hlen : byteLength cs = byteLength ds) : cs = ds ∧ xs = ys := by
  rcases List.append_eq_append_iff.mp h with ⟨es, rfl, rfl⟩ | ⟨es, rfl, rfl⟩
  · rw [byteLength_append] at hlen
    obtain rfl : es = [] := byteLength_eq_zero (by omega)
    simp
  · rw [byteLength_append] at hlen
    obtain rfl : es = [] := byteLength_eq_zero (by omega)
    simp

theorem encodeChar_append_left {c d : Char} {xs ys : List UInt8}
    (h : utf8EncodeChar c ++ xs = utf8EncodeChar d ++ ys) : c = d ∧ xs = ys := by
  have hread (b : Char) (zs : List UInt8) : (utf8EncodeChar b ++ zs).toByteArray.utf8DecodeChar? 0 = some b := by
    rw [List.toByteArray_append]
    exact ByteArray.utf8DecodeChar?_utf8EncodeChar_append
  have hcd : c = d := by
    have hc := hread c xs
    rw [h, hread d ys] at hc
    exact (Option.some.inj hc).symm
  subst hcd
  exact ⟨rfl, List.append_cancel_left h⟩

theorem encode_prefix {cs ds : List Char} {rest : List UInt8} (h : encode ds = encode cs ++ rest) :
    ∃ es, ds = cs ++ es ∧ encode es = rest := by
  induction cs generalizing ds with
  | nil => exact ⟨ds, rfl, h⟩
  | cons c cs ih =>
      cases ds with
      | nil =>
          rw [encode_cons, List.append_assoc] at h
          exact absurd (List.append_eq_nil_iff.mp h.symm).1 String.utf8EncodeChar_ne_nil
      | cons d ds =>
          rw [encode_cons, encode_cons, List.append_assoc] at h
          obtain ⟨rfl, htail⟩ := encodeChar_append_left h
          obtain ⟨es, rfl, hes⟩ := ih htail
          exact ⟨es, rfl, hes⟩

theorem encode_injective {cs ds : List Char} (h : encode cs = encode ds) : cs = ds := by
  obtain ⟨es, rfl, hes⟩ := encode_prefix (h.trans (List.append_nil _).symm)
  rw [encode_eq_nil hes, List.append_nil]

theorem bytes_injective {s t : String} (h : bytes s = bytes t) : s = t :=
  String.toList_inj.mp (encode_injective h)

theorem front_eq_nil_of_firstByte {c : Char} {front back : List UInt8} {b : UInt8}
    (h : utf8EncodeChar c = front ++ b :: back) (hb : b.IsUTF8FirstByte) : front = [] := by
  have hlt : front.length < (utf8EncodeChar c).length := by rw [h]; simp
  have hget : (utf8EncodeChar c)[front.length] = b := by simp [h]
  rw [← hget, UInt8.isUTF8FirstByte_getElem_utf8EncodeChar] at hb
  exact List.length_eq_zero_iff.mp hb

theorem firstByte_of_encode {cs : List Char} {b : UInt8} {back : List UInt8} (h : encode cs = b :: back) :
    b.IsUTF8FirstByte := by
  cases cs with
  | nil => cases h
  | cons c cs =>
      rw [encode_cons] at h
      have hpos : 0 < (utf8EncodeChar c).length := by
        rw [String.length_utf8EncodeChar]; exact c.utf8Size_pos
      have hget : (utf8EncodeChar c)[0] = b := by
        rw [List.getElem_append_left' hpos (encode cs)]
        simp [h]
      rw [← hget]
      exact UInt8.isUTF8FirstByte_getElem_zero_utf8EncodeChar

theorem encode_suffix {cs ds : List Char} {front : List UInt8} (h : encode ds = front ++ encode cs) :
    ∃ es, ds = es ++ cs ∧ encode es = front := by
  induction ds generalizing front with
  | nil =>
      obtain ⟨hfront, hcs⟩ := List.append_eq_nil_iff.mp h.symm
      exact ⟨[], (encode_eq_nil hcs).symm, hfront.symm⟩
  | cons d ds ih =>
      have hd := h
      rw [encode_cons, List.append_eq_append_iff] at hd
      rcases hd with ⟨more, rfl, htail⟩ | ⟨back, hsplit, hcs⟩
      · obtain ⟨es, rfl, hes⟩ := ih htail
        exact ⟨d :: es, rfl, by rw [encode_cons, hes]⟩
      -- the front ends within the bytes of `d`: only at their start or their end can `cs` begin
      · cases back with
        | nil =>
            rw [List.nil_append] at hcs
            rw [List.append_nil] at hsplit
            exact ⟨[d], by rw [encode_injective hcs]; rfl, by rw [← hsplit]; exact List.append_nil _⟩
        | cons b back =>
            have hfront := front_eq_nil_of_firstByte hsplit (firstByte_of_encode hcs)
            subst hfront
            exact ⟨[], (encode_injective h), rfl⟩

theorem encodeChar_ascii {c : Char} (hc : c.toNat < 128) : utf8EncodeChar c = [UInt8.ofNat c.toNat] :=
  if_pos (by change c.toNat ≤ 127; omega)

theorem eq_of_ascii_mem {c d : Char} (hd : d.toNat < 128)
    (h : UInt8.ofNat d.toNat ∈ utf8EncodeChar c) : c = d := by
  have hval : c.val.toNat = d.val.toNat := by
    change d.val.toNat < 128 at hd
    change UInt8.ofNat d.val.toNat ∈ utf8EncodeChar c at h
    generalize d.val.toNat = n at hd h
    unfold utf8EncodeChar at h
    dsimp only at h
    split_ifs at h <;> simp only [List.mem_cons, List.not_mem_nil, or_false, ← UInt8.toNat_inj, UInt8.toNat_ofNat'] at h <;> omega
  exact Char.ext (UInt32.toNat_inj.mp hval)

theorem append_split {α : Type} {xs ys as bs : List α} (h : xs ++ ys = as ++ bs)
    (hle : xs.length ≤ as.length) : ∃ ms, as = xs ++ ms ∧ ys = ms ++ bs := by
  rcases List.append_eq_append_iff.mp h with hms | ⟨ms, rfl, hbs⟩
  · exact hms
  · rw [List.length_append] at hle
    obtain rfl := List.length_eq_zero_iff.mp (show ms.length = 0 by omega)
    exact ⟨[], by simp, hbs.symm⟩

/-- Where two texts begin with the same bytes, they have the characters in common that end there. Of
the next one they have the first byte, which is enough to know it if it is ASCII. -/
theorem encode_shared_front {pre cs ds : List Char} {c : Char} {front xs ys : List UInt8}
    (hcs : encode (pre ++ c :: cs) = front ++ xs) (hds : encode ds = front ++ ys)
    (hlt : byteLength pre < front.length) :
    ∃ d ds', ds = pre ++ d :: ds' ∧ (front.length < byteLength pre + c.utf8Size ∨ c = d) ∧
      (d.toNat < 128 → c = d) := by
  rw [encode_append] at hcs
  obtain ⟨shared, rfl, hc⟩ := append_split hcs (by rw [length_encode]; omega)
  rw [List.append_assoc] at hds
  obtain ⟨es, rfl, hd⟩ := encode_prefix hds
  rw [List.length_append, length_encode] at hlt ⊢
  cases shared with
  | nil => exact absurd hlt (by simp)
  | cons b shared =>
      cases es with
      | nil => cases hd
      | cons d ds =>
          rw [encode_cons] at hc hd
          refine ⟨d, ds, rfl, ?_, ?_⟩
          · by_cases hle : c.utf8Size ≤ (b :: shared).length
            · right
              obtain ⟨ms, hms, -⟩ := append_split hc (by rwa [String.length_utf8EncodeChar])
              rw [hms, List.append_assoc] at hd
              exact (encodeChar_append_left hd).1.symm
            · left; omega
          · intro hascii
            rw [encodeChar_ascii hascii, List.cons_append, List.cons_append] at hd
            obtain ⟨e, bs, he⟩ := List.exists_cons_of_ne_nil (String.utf8EncodeChar_ne_nil (c := c))
            rw [he, List.cons_append, List.cons_append] at hc
            refine eq_of_ascii_mem hascii ?_
            rw [he, (List.cons.inj hc).1, ← (List.cons.inj hd).1]
            exact List.mem_cons_self

theorem encode_shared_back {post cs ds : List Char} {c : Char} {back xs ys : List UInt8}
    (hcs : encode (cs ++ c :: post) = xs ++ back) (hds : encode ds = ys ++ back)
    (hlt : byteLength post < back.length) :
    ∃ d ds', ds = ds' ++ d :: post ∧ (back.length < c.utf8Size + byteLength post ∨ c = d) ∧
      (d.toNat < 128 → c = d) := by
  have hlen := congrArg List.length hcs
  rw [List.append_cons, encode_append] at hcs
  rw [List.append_cons, encode_append, List.length_append, List.length_append, length_encode post] at hlen
  obtain ⟨shared, hc, rfl⟩ := append_split hcs.symm (by omega)
  rw [← List.append_assoc] at hds
  obtain ⟨es, rfl, hd⟩ := encode_suffix hds
  rw [List.length_append, length_encode] at hlt ⊢
  rcases List.eq_nil_or_concat' shared with rfl | ⟨shared, b, rfl⟩
  · exact absurd hlt (by simp)
  rcases List.eq_nil_or_concat' es with rfl | ⟨ds, d, rfl⟩
  · exact absurd hd (by simp [encode])
  rw [encode_concat] at hc hd
  refine ⟨d, ds, List.append_assoc _ _ _, ?_, ?_⟩
  · by_cases hle : c.utf8Size ≤ (shared ++ [b]).length
    · right
      have hcLen := congrArg List.length hc
      rw [List.length_append, List.length_append, String.length_utf8EncodeChar] at hcLen
      obtain ⟨ms, -, hms⟩ := append_split hc.symm (by omega)
      rw [hms, ← List.append_assoc, ← encode_concat, ← encode_singleton c] at hd
      obtain ⟨es, hes, -⟩ := encode_suffix hd
      exact (List.singleton_inj.mp (List.append_inj' hes rfl).2).symm
    · left; omega
  · intro hascii
    rw [encodeChar_ascii hascii, ← List.append_assoc] at hd
    obtain rfl := List.singleton_inj.mp (List.append_inj' hd rfl).2
    rcases List.eq_nil_or_concat' (utf8EncodeChar c) with he | ⟨bs, e, he⟩
    · exact absurd he String.utf8EncodeChar_ne_nil
    rw [he, ← List.append_assoc, ← List.append_assoc] at hc
    refine eq_of_ascii_mem hascii ?_
    rw [he, ← List.singleton_inj.mp (List.append_inj' hc rfl).2]
    exact List.mem_append_right _ List.mem_cons_self

end LineTint.Text
