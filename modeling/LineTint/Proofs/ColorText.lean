import LineTint.Color
import LineTint.Proofs.CharBytes
import LineTint.Proofs.Success
import Mathlib.Tactic.IntervalCases

namespace LineTint

namespace Digit

def Stands (c : Char) (v : Nat) : Prop := v < 16 ∧ (c = v.digitChar ∨ c = v.digitChar.toUpper)

theorem Stands.value?_eq {c : Char} {v : Nat} (h : Stands c v) : value? c = some v := by
  obtain ⟨hv, rfl | rfl⟩ := h
  · interval_cases v <;> rfl
  · interval_cases v <;> rfl

instance (c : Char) (v : Nat) : Decidable (Stands c v) := inferInstanceAs (Decidable (_ ∧ _))

theorem stands_of_value? {c : Char} {v : Nat} (h : value? c = some v) : Stands c v := by
  have hlt : c.toNat < 103 := by
    have hle (d : Char) (hcd : c ≤ d) : c.toNat ≤ d.toNat := hcd
    unfold value? at h
    split_ifs at h with hdigit hsmall hcapital
    · exact Nat.lt_of_le_of_lt (hle _ hdigit.2) (by decide)
    · exact Nat.lt_of_le_of_lt (hle _ hsmall.2) (by decide)
    · exact Nat.lt_of_le_of_lt (hle _ hcapital.2) (by decide)
  have hall : ∀ n < 103, ∀ v ∈ value? (Char.ofNat n), Stands (Char.ofNat n) v := by decide
  have hc := hall c.toNat hlt
  rw [Char.ofNat_toNat] at hc
  exact hc v h

theorem value?_eq_some_iff {c : Char} {v : Nat} : value? c = some v ↔ Stands c v :=
  ⟨stands_of_value?, Stands.value?_eq⟩

theorem Stands.ascii {c : Char} {v : Nat} (h : Stands c v) : c.toNat < 128 := by
  obtain ⟨hv, rfl | rfl⟩ := h
  · interval_cases v <;> decide
  · interval_cases v <;> decide

end Digit

namespace Color

/-- What the first character of a channel may be: a digit, or a plus sign, which counts nothing. -/
def Leads (c : Char) (v : Nat) : Prop := Digit.Stands c v ∨ c = '+' ∧ v = 0

/-- Characters in pairs, with the byte of each pair. The second of a pair is a digit, and the first is as
`lead` says and counts sixteen times. -/
inductive Pairs (lead : Char → Nat → Prop) : List Char → List UInt8 → Prop
  | nil : Pairs lead [] []
  | cons {high low : Char} {a b : Nat} {cs : List Char} {bytes : List UInt8} (hhigh : lead high a)
      (hlow : Digit.Stands low b) (rest : Pairs lead cs bytes) :
      Pairs lead (high :: low :: cs) (UInt8.ofNat (16 * a + b) :: bytes)

/-- Characters that are the channels of a color in pairs. An opaque color may do without the last pair. -/
def Denotes (lead : Char → Nat → Prop) (cs : List Char) (c : Color) : Prop :=
  Pairs lead cs [c.red, c.green, c.blue] ∧ c.alpha = 255 ∨ Pairs lead cs [c.red, c.green, c.blue, c.alpha]

variable {lead lead' : Char → Nat → Prop} {cs : List Char} {bytes : List UInt8} {c : Color}

theorem not_stands_plus {v : Nat} : ¬ Digit.Stands '+' v := fun h => nomatch h.value?_eq

theorem lead_eq_some_iff {high : Char} {a : Nat} :
    (if high = '+' then some 0 else Digit.value? high) = some a ↔ Leads high a := by
  unfold Leads
  split
  next h =>
    subst h
    simp [not_stands_plus, eq_comm]
  next h => simp [h, Digit.value?_eq_some_iff]

theorem channel_eq_ok_iff {high low : Char} {byte : UInt8} : channel high low = .ok byte ↔
    ∃ a b, Leads high a ∧ Digit.Stands low b ∧ byte = UInt8.ofNat (16 * a + b) := by
  simp only [← lead_eq_some_iff, ← Digit.value?_eq_some_iff]
  unfold channel
  split
  next a b ha hb => simp [ha, hb, eq_comm]
  next hnone =>
    refine iff_of_false nofun ?_
    rintro ⟨a, b, ha, hb, -⟩
    exact hnone a b ha hb

theorem pairs_nil_iff : Pairs lead cs [] ↔ cs = [] := by
  constructor
  · rintro ⟨⟩
    rfl
  · rintro rfl
    exact .nil

theorem pairs_cons_iff {byte : UInt8} : Pairs Leads cs (byte :: bytes) ↔
    ∃ high low rest, cs = high :: low :: rest ∧ channel high low = .ok byte ∧ Pairs Leads rest bytes := by
  constructor
  · rintro (_ | ⟨hhigh, hlow, hrest⟩)
    exact ⟨_, _, _, rfl, channel_eq_ok_iff.mpr ⟨_, _, hhigh, hlow, rfl⟩, hrest⟩
  · rintro ⟨high, low, rest, rfl, hchannel, hrest⟩
    obtain ⟨a, b, hhigh, hlow, rfl⟩ := channel_eq_ok_iff.mp hchannel
    exact .cons hhigh hlow hrest

theorem pairs_colors_iff {red green blue : UInt8} : Pairs Leads cs (red :: green :: blue :: bytes) ↔
    ∃ r r' g g' b b' rest, cs = r :: r' :: g :: g' :: b :: b' :: rest ∧ channel r r' = .ok red ∧
      channel g g' = .ok green ∧ channel b b' = .ok blue ∧ Pairs Leads rest bytes := by
  constructor
  · intro h
    obtain ⟨r, r', _, rfl, hred, h⟩ := pairs_cons_iff.mp h
    obtain ⟨g, g', _, rfl, hgreen, h⟩ := pairs_cons_iff.mp h
    obtain ⟨b, b', rest, rfl, hblue, h⟩ := pairs_cons_iff.mp h
    exact ⟨r, r', g, g', b, b', rest, rfl, hred, hgreen, hblue, h⟩
  · rintro ⟨r, r', g, g', b, b', rest, rfl, hred, hgreen, hblue, h⟩
    refine pairs_cons_iff.mpr ⟨r, r', _, rfl, hred, ?_⟩
    refine pairs_cons_iff.mpr ⟨g, g', _, rfl, hgreen, ?_⟩
    exact pairs_cons_iff.mpr ⟨b, b', rest, rfl, hblue, h⟩

theorem Pairs.mono (h : Pairs lead cs bytes) (hlead : ∀ c ∈ cs, ∀ v, lead c v → lead' c v) :
    Pairs lead' cs bytes := by
  induction h with
  | nil => exact .nil
  | cons hhigh hlow rest ih =>
      refine .cons (hlead _ List.mem_cons_self _ hhigh) hlow (ih fun c hc => hlead c ?_)
      exact List.mem_cons_of_mem _ (List.mem_cons_of_mem _ hc)

theorem Pairs.length_eq (h : Pairs lead cs bytes) : cs.length = 2 * bytes.length := by
  induction h with
  | nil => rfl
  | cons _ _ _ ih => simp only [List.length_cons, ih]; omega

theorem Pairs.exists_lead (h : Pairs lead cs bytes) : ∀ c ∈ cs, ∃ v, lead c v ∨ Digit.Stands c v := by
  induction h with
  | nil => simp
  | cons hhigh hlow _ ih =>
      simp only [List.mem_cons, forall_eq_or_imp]
      exact ⟨⟨_, Or.inl hhigh⟩, ⟨_, Or.inr hlow⟩, ih⟩

theorem Leads.ascii {x : Char} {v : Nat} (h : Leads x v) : x.toNat < 128 := by
  obtain h | ⟨rfl, -⟩ := h
  · exact h.ascii
  · decide

theorem Pairs.ascii (h : Pairs Leads cs bytes) : cs.all (·.toNat < 128) = true := by
  rw [List.all_eq_true]
  intro x hx
  obtain ⟨v, hv | hv⟩ := h.exists_lead x hx
  · exact decide_eq_true hv.ascii
  · exact decide_eq_true hv.ascii

theorem ofDigits_of_denotes (h : Denotes Leads cs c) : ofDigits cs = .ok c := by
  obtain ⟨red, green, blue, alpha⟩ := c
  unfold ofDigits
  obtain ⟨h, rfl : alpha = 255⟩ | h := h
  · rw [if_pos h.ascii]
    obtain ⟨r, r', g, g', b, b', _, rfl, hred, hgreen, hblue, h⟩ := pairs_colors_iff.mp h
    obtain rfl := pairs_nil_iff.mp h
    exact bind_eq_ok_iff.mpr ⟨red, hred, bind_eq_ok_iff.mpr ⟨green, hgreen, bind_eq_ok_iff.mpr ⟨blue, hblue, rfl⟩⟩⟩
  · rw [if_pos h.ascii]
    obtain ⟨r, r', g, g', b, b', _, rfl, hred, hgreen, hblue, h⟩ := pairs_colors_iff.mp h
    obtain ⟨a, a', _, rfl, halpha, h⟩ := pairs_cons_iff.mp h
    obtain rfl := pairs_nil_iff.mp h
    exact bind_eq_ok_iff.mpr ⟨red, hred, bind_eq_ok_iff.mpr ⟨green, hgreen, bind_eq_ok_iff.mpr ⟨blue, hblue,
      bind_eq_ok_iff.mpr ⟨alpha, halpha, rfl⟩⟩⟩⟩

theorem denotes_of_ofDigits (h : ofDigits cs = .ok c) : Denotes Leads cs c := by
  unfold ofDigits at h
  split at h
  next =>
    split at h
    next r r' g g' b b' _ =>
      obtain ⟨red, hred, h⟩ := bind_eq_ok_iff.mp h
      obtain ⟨green, hgreen, h⟩ := bind_eq_ok_iff.mp h
      obtain ⟨blue, hblue, h⟩ := bind_eq_ok_iff.mp h
      obtain rfl := Except.ok.inj h
      exact Or.inl ⟨pairs_colors_iff.mpr ⟨r, r', g, g', b, b', [], rfl, hred, hgreen, hblue, .nil⟩, rfl⟩
    next r r' g g' b b' a a' _ =>
      obtain ⟨red, hred, h⟩ := bind_eq_ok_iff.mp h
      obtain ⟨green, hgreen, h⟩ := bind_eq_ok_iff.mp h
      obtain ⟨blue, hblue, h⟩ := bind_eq_ok_iff.mp h
      obtain ⟨alpha, halpha, h⟩ := bind_eq_ok_iff.mp h
      obtain rfl := Except.ok.inj h
      have hlast : Pairs Leads [a, a'] [alpha] := pairs_cons_iff.mpr ⟨a, a', [], rfl, halpha, .nil⟩
      exact Or.inr (pairs_colors_iff.mpr ⟨r, r', g, g', b, b', [a, a'], rfl, hred, hgreen, hblue, hlast⟩)
    next => cases h
  next => cases h

theorem ofDigits_eq_ok_iff : ofDigits cs = .ok c ↔ Denotes Leads cs c := ⟨denotes_of_ofDigits, ofDigits_of_denotes⟩

theorem channel_error {high low : Char} : ∀ e, channel high low = .error e → e = .digit := by
  intro e h
  unfold channel at h
  split at h
  next => cases h
  next => exact (Except.error.inj h).symm

def IsFormed (cs : List Char) : Prop := (∀ x ∈ cs, x.toNat < 128) ∧ (cs.length = 6 ∨ cs.length = 8)

instance (cs : List Char) : Decidable (IsFormed cs) := inferInstanceAs (Decidable (_ ∧ _))

theorem Denotes.isFormed (h : Denotes Leads cs c) : IsFormed cs := by
  have hascii {bytes : List UInt8} (h : Pairs Leads cs bytes) : ∀ x ∈ cs, x.toNat < 128 := by
    simpa using h.ascii
  obtain ⟨h, -⟩ | h := h
  · exact ⟨hascii h, Or.inl h.length_eq⟩
  · exact ⟨hascii h, Or.inr h.length_eq⟩

theorem ofDigits_error {e : ColorError} (h : ofDigits cs = .error e) :
    e = if IsFormed cs then .digit else .format (String.ofList cs) := by
  have hall : (∀ x ∈ cs, x.toNat < 128) ↔ cs.all (·.toNat < 128) = true := by simp
  unfold ofDigits at h
  split at h
  next hascii =>
    split at h
    next =>
      rw [if_pos ⟨hall.mpr hascii, Or.inl rfl⟩]
      refine error_of_bind channel_error (fun _ => ?_) e h
      exact error_of_bind channel_error fun _ => error_of_bind channel_error fun _ _ h => nomatch h
    next =>
      rw [if_pos ⟨hall.mpr hascii, Or.inr rfl⟩]
      refine error_of_bind channel_error (fun _ => ?_) e h
      refine error_of_bind channel_error fun _ => ?_
      exact error_of_bind channel_error fun _ => error_of_bind channel_error fun _ _ h => nomatch h
    next hsix height =>
      have hform : ¬ IsFormed cs := by
        rintro ⟨-, hlen | hlen⟩
        · match cs, hlen, hsix with
          | [r, r', g, g', b, b'], _, hsix => exact hsix r r' g g' b b' rfl
        · match cs, hlen, height with
          | [r, r', g, g', b, b', a, a'], _, height => exact height r r' g g' b b' a a' rfl
      rw [if_neg hform]
      exact (Except.error.inj h).symm
  next hascii =>
    rw [if_neg fun hformed => hascii (hall.mp hformed.1)]
    exact (Except.error.inj h).symm

theorem byteLength_of_ascii (h : ∀ x ∈ cs, x.toNat < 128) : Text.byteLength cs = cs.length := by
  induction cs with
  | nil => rfl
  | cons x cs ih =>
      have hx : x.utf8Size = 1 := by
        rw [← String.length_utf8EncodeChar, Text.encodeChar_ascii (h x List.mem_cons_self), List.length_singleton]
      rw [Text.byteLength_cons, ih fun y hy => h y (List.mem_cons_of_mem x hy), hx, List.length_cons, Nat.add_comm]

theorem isValid_of_ascii (h : ∀ x ∈ cs, x.toNat < 128) {n : Nat} (hn : n ≤ cs.length) :
    String.Pos.Raw.IsValid (String.ofList cs) ⟨n⟩ := by
  rw [Text.isValid_iff, String.toList_ofList]
  refine ⟨cs.take n, cs.drop n, (List.take_append_drop n cs).symm, ?_⟩
  rw [byteLength_of_ascii fun x hx => h x (List.mem_of_mem_take hx), List.length_take, Nat.min_eq_left hn]

theorem Pairs.of_no_plus (h : Pairs Leads cs bytes) (hplus : '+' ∉ cs) : Pairs Digit.Stands cs bytes := by
  refine h.mono fun x hx v hlead => ?_
  obtain hdigit | ⟨rfl, -⟩ := hlead
  · exact hdigit
  · exact absurd hx hplus

theorem Pairs.leads (h : Pairs Digit.Stands cs bytes) : Pairs Leads cs bytes := h.mono fun _ _ _ => Or.inl

theorem Pairs.no_plus (h : Pairs Digit.Stands cs bytes) : '+' ∉ cs := by
  intro hplus
  obtain ⟨v, hv | hv⟩ := h.exists_lead '+' hplus
  · exact not_stands_plus hv
  · exact not_stands_plus hv

theorem Denotes.of_no_plus (h : Denotes Leads cs c) (hplus : '+' ∉ cs) : Denotes Digit.Stands cs c :=
  h.imp (fun h => ⟨h.1.of_no_plus hplus, h.2⟩) fun h => h.of_no_plus hplus

theorem Denotes.leads (h : Denotes Digit.Stands cs c) : Denotes Leads cs c :=
  h.imp (fun h => ⟨h.1.leads, h.2⟩) Pairs.leads

theorem Denotes.no_plus (h : Denotes Digit.Stands cs c) : '+' ∉ cs :=
  h.elim (fun h => h.1.no_plus) Pairs.no_plus

theorem exists_pairs (hall : ∀ x ∈ cs, ∃ v, Digit.Stands x v) {n : Nat} (hlen : cs.length = 2 * n) :
    ∃ bytes, bytes.length = n ∧ Pairs Digit.Stands cs bytes := by
  induction n generalizing cs with
  | zero => exact ⟨[], rfl, pairs_nil_iff.mpr (List.length_eq_zero_iff.mp hlen)⟩
  | succ n ih =>
      match cs, hlen, hall with
      | high :: low :: cs, hlen, hall =>
          obtain ⟨a, ha⟩ := hall high (by simp)
          obtain ⟨b, hb⟩ := hall low (by simp)
          have hrest : cs.length = 2 * n := by
            simp only [List.length_cons] at hlen
            omega
          obtain ⟨bytes, hbytes, hpairs⟩ := ih (fun x hx => hall x (by simp [hx])) hrest
          exact ⟨_ :: bytes, congrArg (· + 1) hbytes, .cons ha hb hpairs⟩

theorem exists_denotes_iff : (∃ c, Denotes Digit.Stands cs c) ↔
    (cs.length = 6 ∨ cs.length = 8) ∧ ∀ x ∈ cs, ∃ v, Digit.Stands x v := by
  constructor
  · rintro ⟨c, h⟩
    have hall {bytes : List UInt8} (h : Pairs Digit.Stands cs bytes) : ∀ x ∈ cs, ∃ v, Digit.Stands x v := by
      simpa only [or_self] using h.exists_lead
    exact ⟨h.leads.isFormed.2, h.elim (fun h => hall h.1) hall⟩
  · rintro ⟨hlen | hlen, hall⟩
    · obtain ⟨bytes, hbytes, hpairs⟩ := exists_pairs (n := 3) hall hlen
      match bytes, hbytes, hpairs with
      | [red, green, blue], _, hpairs => exact ⟨{ red, green, blue }, Or.inl ⟨hpairs, rfl⟩⟩
    · obtain ⟨bytes, hbytes, hpairs⟩ := exists_pairs (n := 4) hall hlen
      match bytes, hbytes, hpairs with
      | [red, green, blue, alpha], _, hpairs => exact ⟨{ red, green, blue, alpha }, Or.inr hpairs⟩

def unmarked (text : String) : List Char := text.toList.dropWhile (· = '#')

/-- A text is read as a color if what follows its leading number signs is six or eight hexadecimal digits, and
a plus sign may stand for the first digit of each pair. So the texts that are read are those of the
format, and have the color that they denote in it, unless a plus sign is among their characters and they
are read all the same. -/
theorem ofHex_reads (text : String) :
    (∀ c, ofHex text = .ok c ↔ Denotes Leads (unmarked text) c) ∧
    ((∃ c, Denotes Digit.Stands (unmarked text) c) ↔
      ((unmarked text).length = 6 ∨ (unmarked text).length = 8) ∧ ∀ x ∈ unmarked text, ∃ v, Digit.Stands x v) ∧
    ((∀ c, ofHex text = .ok c ↔ Denotes Digit.Stands (unmarked text) c) ↔
      ('+' ∈ unmarked text → ∀ c, ¬ Denotes Leads (unmarked text) c)) ∧
    ((∀ c, ¬ Denotes Leads (unmarked text) c) →
      ofHex text = .error (if IsFormed (unmarked text) then .digit else .format (String.ofList (unmarked text)))) ∧
    (IsFormed (unmarked text) → (String.ofList (unmarked text)).utf8ByteSize = (unmarked text).length ∧
      ∀ n ≤ (unmarked text).length, String.Pos.Raw.IsValid (String.ofList (unmarked text)) ⟨n⟩) := by
  have hread (c : Color) : ofHex text = .ok c ↔ Denotes Leads (unmarked text) c := ofDigits_eq_ok_iff
  refine ⟨hread, exists_denotes_iff, ?_, ?_, ?_⟩
  · constructor
    · intro hformat hplus c hleads
      exact ((hformat c).mp ((hread c).mpr hleads)).no_plus hplus
    · intro hnone c
      rw [hread]
      refine ⟨fun h => h.of_no_plus fun hplus => hnone hplus c h, Denotes.leads⟩
  · intro hnone
    cases h : ofHex text with
    | ok c => exact absurd ((hread c).mp h) (hnone c)
    | error e =>
        rw [ofDigits_error h]
        rfl
  · rintro ⟨hascii, -⟩
    refine ⟨?_, fun n hn => isValid_of_ascii hascii hn⟩
    rw [Text.utf8ByteSize_eq, String.toList_ofList, byteLength_of_ascii hascii]

theorem signed_text_read :
    ofHex "+1+2+3" = .ok { red := 1, green := 2, blue := 3 } ∧
      ¬ ∀ text, (∃ c, ofHex text = .ok c) ↔
        ((unmarked text).length = 6 ∨ (unmarked text).length = 8) ∧ ∀ x ∈ unmarked text, ∃ v, Digit.Stands x v := by
  have hread : ofHex "+1+2+3" = .ok { red := 1, green := 2, blue := 3 } := by decide
  refine ⟨hread, fun hformat => ?_⟩
  obtain ⟨v, hv⟩ := ((hformat "+1+2+3").mp ⟨_, hread⟩).2 '+' (by decide)
  exact not_stands_plus hv

end Color
end LineTint
