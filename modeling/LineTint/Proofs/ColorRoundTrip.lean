import LineTint.Proofs.ColorText
import LineTint.Report

namespace LineTint

def SameLetters : List Char → List Char → Prop :=
  List.Forall₂ fun c d => c = d ∨ c = d.toLower ∨ c = d.toUpper

namespace Digit

variable {c d : Char} {v : Nat}

theorem stands_upper (hv : v < 16) : Stands (upper v) v := by
  refine ⟨hv, Or.inr ?_⟩
  interval_cases v <;> rfl

theorem Stands.of_same (h : Stands d v) (hsame : c = d ∨ c = d.toLower ∨ c = d.toUpper) : Stands c v := by
  obtain ⟨hv, hd⟩ := h
  have hcases : d.toLower = v.digitChar ∧ d.toUpper = v.digitChar.toUpper := by
    rcases hd with rfl | rfl
    · interval_cases v <;> decide
    · interval_cases v <;> decide
  obtain rfl | rfl | rfl := hsame
  · exact ⟨hv, hd⟩
  · exact ⟨hv, Or.inl hcases.1⟩
  · exact ⟨hv, Or.inr hcases.2⟩

theorem not_stands_number_sign : ¬ Stands '#' v := fun h => nomatch h.value?_eq

end Digit

namespace Color

variable {cs ds : List Char} {bytes : List UInt8} {c : Color}

theorem Pairs.of_sameLetters (h : Pairs Digit.Stands ds bytes) (hsame : SameLetters cs ds) :
    Pairs Digit.Stands cs bytes := by
  induction h generalizing cs with
  | nil =>
      cases hsame
      exact .nil
  | cons hhigh hlow rest ih =>
      obtain _ | ⟨hfirst, _ | ⟨hsecond, hrest⟩⟩ := hsame
      exact .cons (hhigh.of_same hfirst) (hlow.of_same hsecond) (ih hrest)

theorem Denotes.of_sameLetters (h : Denotes Digit.Stands ds c) (hsame : SameLetters cs ds) :
    Denotes Digit.Stands cs c :=
  h.imp (fun h => ⟨h.1.of_sameLetters hsame, h.2⟩) fun h => h.of_sameLetters hsame

theorem pairs_channelDigits (n : UInt8) (h : Pairs Digit.Stands cs bytes) :
    Pairs Digit.Stands (channelDigits n ++ cs) (n :: bytes) := by
  have hn := UInt8.toNat_lt n
  have hpair := Pairs.cons (Digit.stands_upper (v := n.toNat / 16) (by omega))
    (Digit.stands_upper (v := n.toNat % 16) (by omega)) h
  rwa [Nat.div_add_mod, UInt8.ofNat_toNat] at hpair

theorem pairs_digits (c : Color) (h : Pairs Digit.Stands cs bytes) :
    Pairs Digit.Stands (channelDigits c.red ++ channelDigits c.green ++ channelDigits c.blue ++ cs)
      (c.red :: c.green :: c.blue :: bytes) := by
  simp only [List.append_assoc]
  exact pairs_channelDigits _ (pairs_channelDigits _ (pairs_channelDigits _ h))

theorem denotes_digits (c : Color) : Denotes Digit.Stands c.digits c := by
  rw [digits]
  by_cases halpha : c.alpha = 255
  · rw [if_pos halpha]
    exact Or.inl ⟨pairs_digits c .nil, halpha⟩
  · have hlast := pairs_channelDigits c.alpha .nil
    rw [List.append_nil] at hlast
    rw [if_neg halpha]
    exact Or.inr (pairs_digits c hlast)

theorem denotes_digits_alpha (halpha : c.alpha = 255) : Denotes Digit.Stands (c.digits ++ ['F', 'F']) c := by
  have hlast : Pairs Digit.Stands ['F', 'F'] [c.alpha] := halpha ▸ pairs_channelDigits 255 .nil
  rw [digits, if_pos halpha, List.append_nil]
  exact Or.inr (pairs_digits c hlast)

theorem Denotes.not_mem (h : Denotes Digit.Stands cs c) : '#' ∉ cs := by
  intro hmem
  obtain ⟨v, hv⟩ := (exists_denotes_iff.mp ⟨c, h⟩).2 '#' hmem
  exact Digit.not_stands_number_sign hv

theorem unmarked_of_not_mem (k : Nat) (h : '#' ∉ cs) :
    unmarked (String.ofList (List.replicate k '#' ++ cs)) = cs := by
  have hmarks : ∀ c ∈ List.replicate k '#', decide (c = '#') = true := by
    intro c hc
    exact decide_eq_true (List.eq_of_mem_replicate hc)
  rw [unmarked, String.toList_ofList, List.dropWhile_append_of_pos hmarks]
  cases cs with
  | nil => rfl
  | cons c cs =>
      apply List.dropWhile_cons_of_neg
      rw [decide_eq_true_eq]
      rintro rfl
      exact h List.mem_cons_self

theorem ofHex_of_denotes (k : Nat) (h : Denotes Digit.Stands cs c) :
    ofHex (String.ofList (List.replicate k '#' ++ cs)) = .ok c := by
  have hdigits := unmarked_of_not_mem k h.not_mem
  change ofDigits (unmarked _) = .ok c
  rw [hdigits]
  exact ofDigits_of_denotes h.leads

theorem unmarked_toHex (c : Color) : unmarked c.toHex = c.digits := unmarked_of_not_mem 1 c.denotes_digits.not_mem

theorem ofHex_toHex (c : Color) : ofHex c.toHex = .ok c := ofHex_of_denotes 1 c.denotes_digits

theorem toHex_injective : Function.Injective toHex := by
  intro c d h
  have hread := ofHex_toHex c
  rw [h, ofHex_toHex d] at hread
  exact (Except.ok.inj hread).symm

end Color

namespace Text

/-- Where two lists are the same, so are their parts before the first character that is no longer of a kind. -/
theorem append_stop_inj {kind : Char → Prop} {cs ds xs ys : List Char} {x y : Char}
    (h : cs ++ x :: xs = ds ++ y :: ys) (hcs : ∀ c ∈ cs, kind c) (hds : ∀ d ∈ ds, kind d) (hx : ¬ kind x)
    (hy : ¬ kind y) : cs = ds ∧ xs = ys := by
  rcases List.append_eq_append_iff.mp h with ⟨_ | ⟨c, more⟩, rfl, hrest⟩ | ⟨_ | ⟨c, more⟩, rfl, hrest⟩
  · rw [List.append_nil]
    exact ⟨rfl, (List.cons.inj hrest).2⟩
  · obtain rfl := (List.cons.inj hrest).1
    exact absurd (hds x (by simp)) hx
  · rw [List.append_nil]
    exact ⟨rfl, (List.cons.inj hrest).2.symm⟩
  · obtain rfl := (List.cons.inj hrest).1
    exact absurd (hcs y (by simp)) hy

end Text

namespace Token

def colorJson (color : Option Color) : String := (color.map fun c => Json.plain c.toHex).getD "null"

theorem object_pair (a x b y : String) :
    Json.object [(a, x), (b, y)] =
      "\x7b" ++ (Json.plain a ++ ":" ++ x ++ "," ++ (Json.plain b ++ ":" ++ y)) ++ "\x7d" := rfl

theorem object_triple (a x b y c z : String) :
    Json.object [(a, x), (b, y), (c, z)] =
      "\x7b" ++ (Json.plain a ++ ":" ++ x ++ "," ++ (Json.plain b ++ ":" ++ y) ++ "," ++
        (Json.plain c ++ ":" ++ z)) ++ "\x7d" := rfl

theorem toList_toJson (t : Token) : t.toJson.toList =
    "\x7b\"range\":\x7b\"start\":".toList ++ ((toString t.span.start).toList ++ ',' :: ("\"len\":".toList ++
      ((toString t.span.len).toList ++ '\x7d' :: (",\"color\":".toList ++
        ((colorJson t.color).toList ++ ',' :: ("\"font\":\x7b\"bold\":".toList ++
          ((Json.bool t.font.bold).toList ++ ',' :: ("\"italic\":".toList ++
            ((Json.bool t.font.italic).toList ++ '\x7d' :: ['\x7d']))))))))) := by
  have hobject : t.toJson = Json.object [
      ("range", Json.object [("start", toString t.span.start), ("len", toString t.span.len)]),
      ("color", colorJson t.color),
      ("font", Json.object [("bold", Json.bool t.font.bold), ("italic", Json.bool t.font.italic)])] := rfl
  rw [hobject, object_triple, object_pair, object_pair]
  simp [Json.plain]

theorem toList_colorJson (c : Color) : (colorJson (some c)).toList = '"' :: '#' :: (c.digits ++ ['"']) := by
  change (Json.plain c.toHex).toList = _
  simp [Json.plain, Color.toHex]

theorem colorJson_injective : Function.Injective colorJson := by
  intro color color' h
  have hlist := congrArg String.toList h
  cases color with
  | none =>
      cases color' with
      | none => rfl
      | some d =>
          rw [toList_colorJson] at hlist
          cases hlist
  | some c =>
      cases color' with
      | none =>
          rw [toList_colorJson] at hlist
          cases hlist
      | some d =>
          rw [toList_colorJson, toList_colorJson] at hlist
          have hdigits := List.append_cancel_right (List.cons.inj (List.cons.inj hlist).2).2
          have hhex : c.toHex = d.toHex := congrArg (fun digits => String.ofList ('#' :: digits)) hdigits
          rw [Color.toHex_injective hhex]

theorem not_mem_colorJson (color : Option Color) : ∀ x ∈ (colorJson color).toList, x ≠ ',' := by
  rintro x hx rfl
  cases color with
  | none => exact absurd hx (by decide)
  | some c =>
      rw [toList_colorJson, List.mem_cons, List.mem_cons, List.mem_append, List.mem_singleton] at hx
      obtain hx | hx | hx | hx := hx
      · exact absurd hx (by decide)
      · exact absurd hx (by decide)
      · obtain ⟨v, hv⟩ := (Color.exists_denotes_iff.mp ⟨c, c.denotes_digits⟩).2 ',' hx
        exact nomatch hv.value?_eq
      · exact absurd hx (by decide)

theorem toString_offset_inj {m n : Offset} (h : (toString m).toList = (toString n).toList) : m = n :=
  UInt64.toNat_inj.mp (Digit.toString_inj (String.toList_inj.mp h))

theorem bool_inj {b b' : Bool} (h : (Json.bool b).toList = (Json.bool b').toList) : b = b' := by
  cases b <;> cases b' <;> first | rfl | exact absurd h (by decide)

theorem isAlpha_of_mem_bool (b : Bool) : ∀ c ∈ (Json.bool b).toList, c.isAlpha = true := by
  refine List.all_eq_true.mp ?_
  cases b <;> decide

/-- Where the JSON of a token stands in front of anything, the token can be told, and what stands behind. -/
theorem toJson_append_inj {t u : Token} {xs ys : List Char}
    (h : t.toJson.toList ++ xs = u.toJson.toList ++ ys) : t = u ∧ xs = ys := by
  have hdigit (n : Offset) : ∀ c ∈ (toString n).toList, c.isDigit = true :=
    fun c hc => Digit.isDigit_of_mem_toString hc
  rw [toList_toJson, toList_toJson] at h
  simp only [List.append_assoc, List.cons_append, List.nil_append] at h
  obtain ⟨hstart, hafter⟩ := Text.append_stop_inj (List.append_cancel_left h) (hdigit _) (hdigit _)
    (by decide) (by decide)
  obtain ⟨hlen, hafter⟩ := Text.append_stop_inj (List.append_cancel_left hafter) (hdigit _) (hdigit _)
    (by decide) (by decide)
  obtain ⟨hcolor, hafter⟩ := Text.append_stop_inj (List.append_cancel_left hafter) (not_mem_colorJson _)
    (not_mem_colorJson _) (by simp) (by simp)
  obtain ⟨hbold, hafter⟩ := Text.append_stop_inj (List.append_cancel_left hafter) (isAlpha_of_mem_bool _)
    (isAlpha_of_mem_bool _) (by decide) (by decide)
  obtain ⟨hitalic, hafter⟩ := Text.append_stop_inj (List.append_cancel_left hafter) (isAlpha_of_mem_bool _)
    (isAlpha_of_mem_bool _) (by decide) (by decide)
  refine ⟨?_, (List.cons.inj hafter).2⟩
  obtain ⟨⟨start, len⟩, color, ⟨bold, italic⟩⟩ := t
  obtain ⟨⟨start', len'⟩, color', ⟨bold', italic'⟩⟩ := u
  obtain rfl : start = start' := toString_offset_inj hstart
  obtain rfl : len = len' := toString_offset_inj hlen
  obtain rfl : color = color' := colorJson_injective (String.toList_inj.mp hcolor)
  obtain rfl : bold = bold' := bool_inj hbold
  obtain rfl : italic = italic' := bool_inj hitalic
  rfl

theorem toJson_injective : Function.Injective toJson := by
  intro t u h
  have hlist : t.toJson.toList ++ [] = u.toJson.toList ++ [] := by rw [h]
  exact (toJson_append_inj hlist).1

end Token

namespace Color

/-- A color is read from the digits that are written for it, whatever the case of their letters and however
many number signs come first; for an opaque one the digits of its alpha channel may be added. So no two colors
are written alike, whatever was read as a color is read again from what is written for it, and the JSON of a
token tells its color. -/
theorem ofHex_undoes_toHex :
    (∀ (c : Color) (k : Nat) (cs : List Char), SameLetters cs (unmarked c.toHex) →
      ofHex (String.ofList (List.replicate k '#' ++ cs)) = .ok c) ∧
    (∀ (c : Color) (k : Nat) (cs : List Char), c.alpha = 255 → SameLetters cs (unmarked c.toHex ++ ['F', 'F']) →
      ofHex (String.ofList (List.replicate k '#' ++ cs)) = .ok c) ∧
    Function.Injective toHex ∧
    (∀ text c, ofHex text = .ok c → ofHex c.toHex = .ok c) ∧
    ∀ t u : Token, t.toJson = u.toJson → t.color = u.color := by
  refine ⟨?_, ?_, toHex_injective, fun _ c _ => ofHex_toHex c, fun _ _ h => congrArg Token.color (Token.toJson_injective h)⟩
  · intro c k cs hsame
    rw [unmarked_toHex] at hsame
    exact ofHex_of_denotes k (c.denotes_digits.of_sameLetters hsame)
  · intro c k cs halpha hsame
    rw [unmarked_toHex] at hsame
    exact ofHex_of_denotes k ((denotes_digits_alpha halpha).of_sameLetters hsame)

end Color
end LineTint
