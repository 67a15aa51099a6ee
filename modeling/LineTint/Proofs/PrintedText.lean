import LineTint.Proofs.ColorRoundTrip

namespace LineTint

namespace Text

theorem toList_alignRight (width : Nat) (text : String) :
    (alignRight width text).toList = List.replicate (width - text.length) ' ' ++ text.toList := by
  rw [alignRight, gap, String.toList_append, String.toList_ofList]

theorem toList_alignLeft (width : Nat) (text : String) :
    (alignLeft width text).toList = text.toList ++ List.replicate (width - text.length) ' ' := by
  rw [alignLeft, gap, String.toList_append, String.toList_ofList]

variable {kind : Char → Prop} {width : Nat} {s s' : String} {x y : Char} {xs ys : List Char}

/-- A column that is aligned to the right is read up to a character that its text cannot hold. -/
theorem alignRight_append_inj (h : (alignRight width s).toList ++ x :: xs = (alignRight width s').toList ++ y :: ys)
    (hs : ∀ c ∈ s.toList, kind c) (hs' : ∀ c ∈ s'.toList, kind c) (hne : s.toList ≠ []) (hne' : s'.toList ≠ [])
    (hblank : ¬ kind ' ') (hx : ¬ kind x) (hy : ¬ kind y) : s = s' ∧ xs = ys := by
  rw [toList_alignRight, toList_alignRight, List.append_assoc, List.append_assoc] at h
  have hfirst {text : String} (htext : ∀ c ∈ text.toList, kind c) {c : Char} {cs : List Char}
      (hcs : text.toList = c :: cs) : c ≠ ' ' := by
    rintro rfl
    exact hblank (htext ' ' (by rw [hcs]; exact List.mem_cons_self))
  obtain ⟨c, cs, hcs⟩ := List.exists_cons_of_ne_nil hne
  obtain ⟨c', cs', hcs'⟩ := List.exists_cons_of_ne_nil hne'
  have hgap : List.replicate (width - s.length) ' ' = List.replicate (width - s'.length) ' ' := by
    rw [hcs, hcs', List.cons_append, List.cons_append] at h
    exact (append_stop_inj h (fun _ => List.eq_of_mem_replicate) (fun _ => List.eq_of_mem_replicate)
      (hfirst hs hcs) (hfirst hs' hcs')).1
  rw [hgap] at h
  obtain ⟨htext, hrest⟩ := append_stop_inj (List.append_cancel_left h) hs hs' hx hy
  exact ⟨String.toList_inj.mp htext, hrest⟩

theorem replicate_append_blank (n : Nat) (xs : List Char) :
    List.replicate n ' ' ++ ' ' :: xs = ' ' :: (List.replicate n ' ' ++ xs) := by
  rw [← List.cons_append, ← List.replicate_succ, List.replicate_succ', List.append_assoc]
  rfl

theorem alignLeft_append_inj
    (h : (alignLeft width s).toList ++ ' ' :: xs = (alignLeft width s').toList ++ ' ' :: ys)
    (hs : ∀ c ∈ s.toList, c ≠ ' ') (hs' : ∀ c ∈ s'.toList, c ≠ ' ') : s = s' ∧ xs = ys := by
  rw [toList_alignLeft, toList_alignLeft, List.append_assoc, List.append_assoc, replicate_append_blank,
    replicate_append_blank] at h
  obtain ⟨htext, hrest⟩ := append_stop_inj h hs hs' (by simp) (by simp)
  obtain rfl := String.toList_inj.mp htext
  exact ⟨rfl, List.append_cancel_left hrest⟩

def lettered : List (Char × Char) :=
  [('\x00', '0'), ('\t', 't'), ('\n', 'n'), ('\r', 'r'), ('"', '"'), ('\\', '\\')]

/-- What is written for a character: itself, or an escape by a letter or by its number. -/
inductive Escaped (c : Char) : List Char → Prop
  | plain (hbackslash : c ≠ '\\') (hquote : c ≠ '"') : Escaped c [c]
  | letter {letter : Char} (h : (c, letter) ∈ lettered) : Escaped c ['\\', letter]
  | code : Escaped c ('\\' :: 'u' :: '\x7b' :: (hexDigits c.toNat ++ ['\x7d']))

theorem escaped_escape (c : Char) : Escaped c (escape c) := by
  unfold escape
  split
  · exact .letter (by decide)
  · exact .letter (by decide)
  · exact .letter (by decide)
  · exact .letter (by decide)
  · exact .letter (by decide)
  · exact .letter (by decide)
  next hquote hbackslash =>
    split
    · exact .plain hbackslash hquote
    · split
      · exact .code
      · exact .plain hbackslash hquote

theorem hexDigits_inj {m n : Nat} {xs ys : List Char}
    (h : hexDigits m ++ '\x7d' :: xs = hexDigits n ++ '\x7d' :: ys) : m = n ∧ xs = ys := by
  have hstop : ∀ d < 16, Nat.digitChar d ≠ '\x7d' := by decide
  have hdigit (k : Nat) : ∀ c ∈ hexDigits k, c ≠ '\x7d' := by
    intro c hc
    obtain ⟨d, hd, rfl⟩ := Digit.exists_of_mem_toDigits (by omega) hc
    exact hstop d hd
  obtain ⟨hdigits, hrest⟩ := append_stop_inj h (hdigit m) (hdigit n) (by simp) (by simp)
  exact ⟨Digit.toDigits_inj (by omega) (by omega) hdigits, hrest⟩

theorem Escaped.append_inj {c d : Char} {cs ds : List Char} (hc : Escaped c cs) (hd : Escaped d ds)
    (h : cs ++ xs = ds ++ ys) : c = d ∧ xs = ys := by
  have hcode : ∀ pair ∈ lettered, pair.2 ≠ 'u' := by decide
  cases hc with
  | plain hbackslash hquote =>
      cases hd with
      | plain => exact List.cons.inj h
      | letter => exact absurd (List.cons.inj h).1 hbackslash
      | code => exact absurd (List.cons.inj h).1 hbackslash
  | @letter a ha =>
      cases hd with
      | plain hbackslash hquote => exact absurd (List.cons.inj h).1.symm hbackslash
      | @letter b hb =>
          have hletters : ∀ p ∈ lettered, ∀ q ∈ lettered, p.2 = q.2 → p.1 = q.1 := by decide
          obtain ⟨hab, hrest⟩ := List.cons.inj (List.cons.inj h).2
          exact ⟨hletters _ ha _ hb hab, hrest⟩
      | code => exact absurd (List.cons.inj (List.cons.inj h).2).1 (hcode _ ha)
  | code =>
      cases hd with
      | plain hbackslash hquote => exact absurd (List.cons.inj h).1.symm hbackslash
      | letter hb => exact absurd (List.cons.inj (List.cons.inj h).2).1.symm (hcode _ hb)
      | code =>
          simp only [List.cons_append, List.append_assoc, List.nil_append, List.cons.injEq, true_and] at h
          obtain ⟨hnumber, hrest⟩ := hexDigits_inj h
          exact ⟨Char.toNat_inj.mp hnumber, hrest⟩

theorem Escaped.head_ne_quote {c : Char} {cs : List Char} (hc : Escaped c cs) : cs ++ xs ≠ '"' :: ys := by
  cases hc with
  | plain hbackslash hquote => exact fun h => hquote (List.cons.inj h).1
  | letter => exact fun h => absurd (List.cons.inj h).1 (by decide)
  | code => exact fun h => absurd (List.cons.inj h).1 (by decide)

theorem flatMap_escape_inj {cs ds : List Char}
    (h : cs.flatMap escape ++ ['"'] = ds.flatMap escape ++ ['"']) : cs = ds := by
  induction cs generalizing ds with
  | nil =>
      cases ds with
      | nil => rfl
      | cons d ds =>
          rw [List.flatMap_cons, List.append_assoc] at h
          exact absurd h.symm (escaped_escape d).head_ne_quote
  | cons c cs ih =>
      cases ds with
      | nil =>
          rw [List.flatMap_cons, List.append_assoc] at h
          exact absurd h (escaped_escape c).head_ne_quote
      | cons d ds =>
          rw [List.flatMap_cons, List.flatMap_cons, List.append_assoc, List.append_assoc] at h
          obtain ⟨rfl, hrest⟩ := (escaped_escape c).append_inj (escaped_escape d) h
          rw [ih hrest]

theorem quote_injective : Function.Injective quote := by
  intro text text' h
  have hlist := String.ofList_injective h
  exact String.toList_inj.mp (flatMap_escape_inj (List.cons.inj hlist).2)

example : quote "a\t\"\u200b" = "\"a\\t\\\"\\u\x7b200b\x7d\"" := by decide +kernel

end Text

namespace Color

theorem ne_blank_of_mem (color : Option Color) : ∀ c ∈ ((color.map toHex).getD "").toList, c ≠ ' ' := by
  rintro c hc rfl
  cases color with
  | none => cases hc
  | some color =>
      rw [Option.map_some, Option.getD_some, toHex, String.toList_ofList, List.mem_cons] at hc
      rcases hc with hc | hc
      · exact absurd hc (by decide)
      · obtain ⟨v, hv⟩ := (exists_denotes_iff.mp ⟨color, color.denotes_digits⟩).2 ' ' hc
        cases hv.value?_eq

theorem text_inj {color color' : Option Color} (h : (color.map toHex).getD "" = (color'.map toHex).getD "") :
    color = color' := by
  cases color with
  | none =>
      cases color' with
      | none => rfl
      | some d => cases String.ofList_injective h
  | some c =>
      cases color' with
      | none => cases String.ofList_injective h
      | some d => rw [toHex_injective h]

end Color

theorem FontStyle.name_injective : Function.Injective FontStyle.name := by
  rintro ⟨bold, italic⟩ ⟨bold', italic'⟩ h
  revert bold italic bold' italic'
  decide

namespace Token

theorem toList_row (n : Nat) (fragment : String) (t : Token) : (t.row n fragment).toList =
    (Text.alignRight 5 (toString n)).toList ++ ' ' :: ((Text.alignRight 4 (toString t.span.start)).toList ++ '.' ::
      '.' :: ((Text.alignLeft 4 (toString t.span.stop)).toList ++ ' ' ::
        ((Text.alignLeft 9 ((t.color.map Color.toHex).getD "")).toList ++ ' ' ::
          ((Text.alignLeft 11 t.font.name).toList ++ ' ' :: (Text.quote fragment).toList)))) := by
  have hrow : t.row n fragment = Text.alignRight 5 (toString n) ++ " " ++
      (Text.alignRight 4 (toString t.span.start) ++ ".." ++ Text.alignLeft 4 (toString t.span.stop)) ++ " " ++
      Text.alignLeft 9 ((t.color.map Color.toHex).getD "") ++ " " ++ Text.alignLeft 11 t.font.name ++ " " ++
      Text.quote fragment := rfl
  rw [hrow]
  simp

theorem isDigit_of_mem (n : Nat) : ∀ c ∈ (toString n).toList, c.isDigit = true :=
  fun _ hc => Digit.isDigit_of_mem_toString hc

theorem toList_toString_ne_nil (n : Nat) : (toString n).toList ≠ [] := by
  rw [Nat.toString_eq_ofList_toDigits, String.toList_ofList]
  exact Nat.toDigits_ne_nil

theorem ne_blank_of_digits (n : Nat) : ∀ c ∈ (toString n).toList, c ≠ ' ' := by
  rintro c hc rfl
  exact absurd (isDigit_of_mem n ' ' hc) (by decide)

theorem ne_blank_of_name (f : FontStyle) : ∀ c ∈ f.name.toList, c ≠ ' ' := by
  have hblank : ' ' ∉ f.name.toList := by
    obtain ⟨bold, italic⟩ := f
    cases bold <;> cases italic <;> decide
  exact fun c hc => ne_of_mem_of_not_mem hc hblank

/-- The row of a token tells its line, where it lies, how it looks and its text. -/
theorem row_inj {m n : Nat} {text text' : String} {t u : Token} (h : t.row m text = u.row n text') :
    m = n ∧ t.span.start = u.span.start ∧ t.span.stop = u.span.stop ∧ t.color = u.color ∧ t.font = u.font ∧
      text = text' := by
  have hlist := congrArg String.toList h
  rw [toList_row, toList_row] at hlist
  obtain ⟨hnumber, hlist⟩ := Text.alignRight_append_inj hlist (isDigit_of_mem m) (isDigit_of_mem n)
    (toList_toString_ne_nil m) (toList_toString_ne_nil n) (by decide) (by decide) (by decide)
  obtain ⟨hstart, hlist⟩ := Text.alignRight_append_inj hlist (isDigit_of_mem _) (isDigit_of_mem _)
    (toList_toString_ne_nil _) (toList_toString_ne_nil _) (by decide) (by decide) (by decide)
  obtain ⟨hstop, hlist⟩ := Text.alignLeft_append_inj (List.cons.inj hlist).2 (ne_blank_of_digits _)
    (ne_blank_of_digits _)
  obtain ⟨hcolor, hlist⟩ := Text.alignLeft_append_inj hlist (Color.ne_blank_of_mem _) (Color.ne_blank_of_mem _)
  obtain ⟨hfont, hquote⟩ := Text.alignLeft_append_inj hlist (ne_blank_of_name _) (ne_blank_of_name _)
  exact ⟨Digit.toString_inj hnumber, UInt64.toNat_inj.mp (Digit.toString_inj hstart),
    UInt64.toNat_inj.mp (Digit.toString_inj hstop), Color.text_inj hcolor, FontStyle.name_injective hfont,
    Text.quote_injective (String.toList_inj.mp hquote)⟩

theorem toList_list_cons (t : Token) (ts : List Token) : (Json.list ((t :: ts).map toJson)).toList =
    '[' :: (t.toJson.toList ++ (ts.flatMap (fun t => ',' :: t.toJson.toList) ++ [']'])) := by
  have hcomma : ",".toList = [','] := rfl
  have hitems : (",".intercalate ((t :: ts).map toJson)).toList =
      t.toJson.toList ++ ts.flatMap fun t => ',' :: t.toJson.toList := by
    induction ts generalizing t with
    | nil => simp
    | cons u us ih =>
        have ih := ih u
        rw [List.map_cons] at ih ⊢
        rw [List.map_cons, String.intercalate_cons_cons, String.toList_append, String.toList_append, ih, hcomma,
          List.flatMap_cons]
        simp only [List.append_assoc, List.cons_append, List.nil_append]
  have hopen : "[".toList = ['['] := rfl
  have hclose : "]".toList = [']'] := rfl
  rw [Json.list, String.toList_append, String.toList_append, hitems, hopen, hclose, List.append_assoc,
    List.append_assoc, List.singleton_append]

theorem rest_append_inj {ts us : List Token} {xs ys : List Char}
    (h : ts.flatMap (fun t => ',' :: t.toJson.toList) ++ ']' :: xs =
      us.flatMap (fun t => ',' :: t.toJson.toList) ++ ']' :: ys) : ts = us ∧ xs = ys := by
  induction ts generalizing us with
  | nil =>
      cases us with
      | nil => exact ⟨rfl, (List.cons.inj h).2⟩
      | cons u us => exact absurd (List.cons.inj h).1 (by decide)
  | cons t ts ih =>
      cases us with
      | nil => exact absurd (List.cons.inj h).1 (by decide)
      | cons u us =>
          simp only [List.flatMap_cons, List.cons_append, List.append_assoc] at h
          obtain ⟨rfl, hafter⟩ := toJson_append_inj (List.cons.inj h).2
          obtain ⟨rfl, hrest⟩ := ih hafter
          exact ⟨rfl, hrest⟩

theorem list_toJson_append_inj {ts us : List Token} {xs ys : List Char}
    (h : (Json.list (ts.map toJson)).toList ++ xs = (Json.list (us.map toJson)).toList ++ ys) :
    ts = us ∧ xs = ys := by
  have hopen (t : Token) : ∃ cs, t.toJson.toList = '\x7b' :: cs := ⟨_, toList_toJson t⟩
  cases ts with
  | nil =>
      cases us with
      | nil => exact ⟨rfl, List.append_cancel_left h⟩
      | cons u us =>
          obtain ⟨cs, hcs⟩ := hopen u
          rw [toList_list_cons, hcs] at h
          exact absurd (List.cons.inj (List.cons.inj h).2).1 (by decide)
  | cons t ts =>
      cases us with
      | nil =>
          obtain ⟨cs, hcs⟩ := hopen t
          rw [toList_list_cons, hcs] at h
          exact absurd (List.cons.inj (List.cons.inj h).2).1 (by decide)
      | cons u us =>
          rw [toList_list_cons, toList_list_cons] at h
          simp only [List.cons_append, List.append_assoc, List.nil_append] at h
          obtain ⟨rfl, hafter⟩ := toJson_append_inj (List.cons.inj h).2
          obtain ⟨rfl, hrest⟩ := rest_append_inj hafter
          exact ⟨rfl, hrest⟩

end Token

/-- The JSON of a line tells its number and its tokens. -/
theorem LineReport.toJson_inj {r r' : LineReport} (h : r.toJson = r'.toJson) :
    r.number = r'.number ∧ r.tokens = r'.tokens := by
  have hlist (r : LineReport) : r.toJson.toList = "\x7b\"line\":".toList ++ ((toString r.number).toList ++ ',' ::
      ("\"tokens\":".toList ++ ((Json.list (r.tokens.map Token.toJson)).toList ++ ['\x7d']))) := by
    rw [toJson, Token.object_pair]
    simp [Json.plain]
  have hboth := congrArg String.toList h
  rw [hlist, hlist] at hboth
  obtain ⟨hnumber, htokens⟩ := Text.append_stop_inj (List.append_cancel_left hboth) (Token.isDigit_of_mem _)
    (Token.isDigit_of_mem _) (by decide) (by decide)
  exact ⟨Digit.toString_inj (String.toList_inj.mp hnumber),
    (Token.list_toJson_append_inj (List.append_cancel_left htokens)).1⟩

end LineTint
