import LineTint.Arguments
import LineTint.Proofs.Success
import Mathlib.Data.List.DropRight
import Mathlib.Data.List.TakeDrop

namespace LineTint

namespace Digit

variable {c : Char} {cs : List Char} {n m : Nat}

theorem value?_of_isDigit (h : c.isDigit = true) : value? c = some (c.toNat - '0'.toNat) := by
  rw [Char.isDigit, Bool.and_eq_true, decide_eq_true_eq, decide_eq_true_eq] at h
  exact if_pos h

theorem isDigit_of_value? {d : Nat} (h : value? c = some d) (hd : d < 10) : c.isDigit = true := by
  rw [value?] at h
  split_ifs at h with hdigit
  · rwa [Char.isDigit, Bool.and_eq_true, decide_eq_true_eq, decide_eq_true_eq]
  -- Letters stand for ten and more.
  · have := Option.some.inj h
    omega
  · have := Option.some.inj h
    omega

theorem extend?_ten : extend? 10 n cs = some m ↔
    (∀ c ∈ cs, c.isDigit = true) ∧ Nat.ofDigitChars 10 cs n = m := by
  induction cs generalizing n with
  | nil => simp [extend?]
  | cons c cs ih =>
      rw [List.forall_mem_cons, Nat.ofDigitChars_cons, extend?]
      by_cases hc : c.isDigit = true
      · have hlt : c.toNat - '0'.toNat < 10 := by
          have := Char.isDigit_iff_toNat.mp hc
          simp only [Char.reduceToNat] at this ⊢
          omega
        simp only [value?_of_isDigit hc, if_pos hlt, ih, hc, true_and]
      · refine iff_of_false (fun h => ?_) fun h => hc h.1.1
        split at h
        next d hd =>
          split at h
          next hlt => exact hc (isDigit_of_value? hd hlt)
          next => cases h
        next => cases h

theorem number?_ten : number? 10 cs = some n ↔
    cs ≠ [] ∧ (∀ c ∈ cs, c.isDigit = true) ∧ Nat.ofDigitChars 10 cs 0 = n := by
  cases cs with
  | nil => simp [number?]
  | cons c cs =>
      rw [and_iff_right (List.cons_ne_nil c cs), ← extend?_ten]
      rfl

end Digit

namespace Text

variable {cs front back : List Char}

theorem exists_trim (cs : List Char) : ∃ front back, cs = front ++ trim cs ++ back ∧
    (∀ c ∈ front, isBlank c = true) ∧ ∀ c ∈ back, isBlank c = true := by
  refine ⟨cs.takeWhile isBlank, (cs.dropWhile isBlank).rtakeWhile isBlank, ?_, ?_, ?_⟩
  · have hrest : trim cs ++ (cs.dropWhile isBlank).rtakeWhile isBlank = cs.dropWhile isBlank :=
      List.rdropWhile_append_rtakeWhile
    rw [List.append_assoc, hrest, List.takeWhile_append_dropWhile]
  · exact fun c hc => List.mem_takeWhile_imp hc
  · exact fun c hc => List.mem_rtakeWhile_imp hc

theorem trim_append (hfront : ∀ c ∈ front, isBlank c = true) (hback : ∀ c ∈ back, isBlank c = true)
    (hcs : ∀ c ∈ cs, isBlank c = false) (hne : cs ≠ []) : trim (front ++ cs ++ back) = cs := by
  have hstart : (front ++ cs ++ back).dropWhile isBlank = cs ++ back := by
    obtain ⟨c, cs, rfl⟩ := List.exists_cons_of_ne_nil hne
    rw [List.append_assoc, List.dropWhile_append_of_pos hfront, List.cons_append,
      List.dropWhile_cons_of_neg (by simp [hcs c List.mem_cons_self])]
  have hkeep : cs.reverse.dropWhile isBlank = cs.reverse := by
    rw [List.dropWhile_eq_self_iff]
    intro hpos
    rw [hcs _ (List.mem_reverse.mp (List.getElem_mem hpos))]
    exact Bool.false_ne_true
  rw [trim, hstart, List.reverse_append, List.dropWhile_append_of_pos (by simpa using hback), hkeep,
    List.reverse_reverse]

theorem isBlank_of_isDigit {c : Char} (h : c.isDigit = true) : isBlank c = false := by
  have hall : ∀ n < 58, 48 ≤ n → isBlank (Char.ofNat n) = false := by decide
  have hc : 48 ≤ c.toNat ∧ c.toNat ≤ 57 := Char.isDigit_iff_toNat.mp h
  have hblank := hall c.toNat (by omega) hc.1
  rwa [Char.ofNat_toNat] at hblank

end Text

namespace LineFilter

open Text

def Signed (cs : List Char) (n : Nat) : Prop :=
  ∃ digits, (cs = digits ∨ cs = '+' :: digits) ∧ digits ≠ [] ∧ (∀ c ∈ digits, c.isDigit = true) ∧
    Nat.ofDigitChars 10 digits 0 = n

def Numeral (cs : List Char) (n : Nat) : Prop :=
  ∃ front signed back, cs = front ++ signed ++ back ∧ (∀ c ∈ front, isBlank c = true) ∧
    (∀ c ∈ back, isBlank c = true) ∧ Signed signed n

/-- The two sides of the first colon, or twice the whole if there is no colon. -/
def Parted (cs front back : List Char) : Prop :=
  ':' ∉ cs ∧ front = cs ∧ back = cs ∨ ':' ∉ front ∧ cs = front ++ ':' :: back

/-- The numbers that the parts of a specification stand for. They may be of any size and in any order. -/
def Names (cs : List Char) (n m : Nat) : Prop :=
  ∃ front back, Parted cs front back ∧ Numeral front n ∧ Numeral back m

variable {cs front back : List Char} {n m : Nat} {spec : String} {f : LineFilter}

theorem not_isDigit_plus : ¬ '+'.isDigit = true := by decide

theorem signed_iff :
    Digit.number? 10 (if cs.head? = some '+' then cs.tail else cs) = some n ↔ Signed cs n := by
  rw [Digit.number?_ten]
  split
  next hplus =>
    obtain ⟨cs, rfl⟩ := List.head?_eq_some_iff.mp hplus
    refine ⟨fun h => ⟨cs, Or.inr rfl, h⟩, ?_⟩
    rintro ⟨digits, rfl | hcs, h⟩
    · exact absurd (h.2.1 '+' List.mem_cons_self) not_isDigit_plus
    · obtain rfl := (List.cons.inj hcs).2
      exact h
  next hplus =>
    refine ⟨fun h => ⟨cs, Or.inl rfl, h⟩, ?_⟩
    rintro ⟨digits, rfl | rfl, h⟩
    · exact h
    · exact absurd rfl hplus

theorem Signed.ne_nil (h : Signed cs n) : cs ≠ [] := by
  obtain ⟨digits, rfl | rfl, hne, -⟩ := h
  · exact hne
  · exact List.cons_ne_nil _ _

theorem Signed.not_blank (h : Signed cs n) : ∀ c ∈ cs, isBlank c = false := by
  obtain ⟨digits, rfl | rfl, -, hdigits, -⟩ := h
  · exact fun c hc => isBlank_of_isDigit (hdigits c hc)
  · rw [List.forall_mem_cons]
    exact ⟨by decide, fun c hc => isBlank_of_isDigit (hdigits c hc)⟩

theorem numeral_iff : Numeral cs n ↔ Signed (trim cs) n := by
  constructor
  · rintro ⟨front, signed, back, rfl, hfront, hback, h⟩
    rwa [trim_append hfront hback h.not_blank h.ne_nil]
  · intro h
    obtain ⟨front, back, hcs, hfront, hback⟩ := exists_trim cs
    exact ⟨front, trim cs, back, hcs, hfront, hback, h⟩

theorem number?_eq_some_iff : number? cs = some n ↔ Numeral cs n ∧ 1 ≤ n ∧ n < UInt64.size := by
  rw [numeral_iff, ← signed_iff, number?]
  split
  next k hk =>
    rw [hk, Option.some.injEq]
    split
    next hrange =>
      rw [Option.some.injEq]
      refine ⟨?_, And.left⟩
      rintro rfl
      exact ⟨rfl, hrange⟩
    next hrange =>
      refine iff_of_false nofun ?_
      rintro ⟨rfl, h⟩
      exact hrange h
  next hnone => rw [hnone]; simp

theorem parts_of_parted (h : Parted cs front back) : parts cs = (front, back) := by
  have hpass {xs : List Char} (hxs : ':' ∉ xs) : ∀ c ∈ xs, decide (c ≠ ':') = true := by
    intro c hc
    apply decide_eq_true
    rintro rfl
    exact hxs hc
  rw [parts, List.span_eq_takeWhile_dropWhile]
  obtain ⟨hnone, rfl, rfl⟩ | ⟨hfront, rfl⟩ := h
  · rw [List.dropWhile_eq_nil_iff.mpr (hpass hnone)]
  · rw [List.takeWhile_append_of_pos (hpass hfront), List.dropWhile_append_of_pos (hpass hfront)]
    simp

theorem parts_parted (cs : List Char) : Parted cs (parts cs).1 (parts cs).2 := by
  by_cases h : ':' ∈ cs
  · obtain ⟨front, back, rfl, hfront⟩ := List.eq_append_cons_of_mem h
    have hparted : Parted (front ++ ':' :: back) front back := Or.inr ⟨hfront, rfl⟩
    rwa [parts_of_parted hparted]
  · have hparted : Parted cs cs cs := Or.inl ⟨h, rfl, rfl⟩
    rwa [parts_of_parted hparted]

theorem names_iff : Names cs n m ↔ Numeral (parts cs).1 n ∧ Numeral (parts cs).2 m := by
  constructor
  · rintro ⟨front, back, hparted, h⟩
    rwa [parts_of_parted hparted]
  · exact fun h => ⟨_, _, parts_parted cs, h⟩

/-- The parts of a specification stand for these numbers, and each of them is positive and has at most 64
bits. -/
def Chosen (cs : List Char) (n m : Nat) : Prop :=
  Names cs n m ∧ (1 ≤ n ∧ n < UInt64.size) ∧ 1 ≤ m ∧ m < UInt64.size

theorem chosen_iff : Chosen cs n m ↔ number? (parts cs).1 = some n ∧ number? (parts cs).2 = some m := by
  rw [number?_eq_some_iff, number?_eq_some_iff, Chosen, names_iff, and_and_and_comm]

theorem chosen_and_le_iff :
    Chosen cs n m ∧ n ≤ m ↔ Names cs n m ∧ 1 ≤ n ∧ n ≤ m ∧ m < UInt64.size := by
  constructor
  · rintro ⟨⟨hnames, hn, hm⟩, hle⟩
    exact ⟨hnames, hn.1, hle, hm.2⟩
  · rintro ⟨hnames, hn, hle, hm⟩
    exact ⟨⟨hnames, ⟨hn, Nat.lt_of_le_of_lt hle hm⟩, Nat.le_trans hn hle, hm⟩, hle⟩

theorem chosen_and_lt_iff :
    Chosen cs n m ∧ m < n ↔ Names cs n m ∧ 1 ≤ m ∧ m < n ∧ n < UInt64.size := by
  constructor
  · rintro ⟨⟨hnames, hn, hm⟩, hlt⟩
    exact ⟨hnames, hm.1, hlt, hn.2⟩
  · rintro ⟨hnames, hm, hlt, hn⟩
    exact ⟨⟨hnames, ⟨Nat.le_trans hm (Nat.le_of_lt hlt), hn⟩, hm, Nat.lt_trans hlt hn⟩, hlt⟩

theorem Chosen.pos (h : Chosen cs n m) : 1 ≤ n ∧ 1 ≤ m := ⟨h.2.1.1, h.2.2.1⟩

theorem chosen_cases (cs : List Char) : (∃ n m, Chosen cs n m ∧ n ≤ m) ∨ (∃ n m, Chosen cs n m ∧ m < n) ∨
    ∀ n m, ¬ Chosen cs n m := by
  by_cases h : ∃ n m, Chosen cs n m
  · obtain ⟨n, m, hchosen⟩ := h
    rcases Nat.lt_or_ge m n with hlt | hle
    · exact Or.inr (Or.inl ⟨n, m, hchosen, hlt⟩)
    · exact Or.inl ⟨n, m, hchosen, hle⟩
  · exact Or.inr (Or.inr fun n m hchosen => h ⟨n, m, hchosen⟩)

theorem ofSpec_of_le (h : Chosen spec.toList n m) (hle : n ≤ m) :
    ofSpec spec = .ok ⟨n - 1, m - 1, Nat.sub_le_sub_right hle 1⟩ := by
  obtain ⟨hn, hm⟩ := chosen_iff.mp h
  simp only [ofSpec, hn, hm, dif_pos hle]

theorem ofSpec_of_lt (h : Chosen spec.toList n m) (hlt : m < n) : ofSpec spec = .error (.noLines spec) := by
  obtain ⟨hn, hm⟩ := chosen_iff.mp h
  simp only [ofSpec, hn, hm, dif_neg (Nat.not_le_of_lt hlt)]

theorem ofSpec_of_not_chosen (h : ∀ n m, ¬ Chosen spec.toList n m) :
    ofSpec spec = .error (.notANumber spec) := by
  simp only [ofSpec]
  split
  next n m hn hm => exact absurd (chosen_iff.mpr ⟨hn, hm⟩) (h n m)
  next => rfl

theorem ofSpec_eq_ok_iff :
    ofSpec spec = .ok f ↔ ∃ n m, Chosen spec.toList n m ∧ n ≤ m ∧ f.first + 1 = n ∧ f.last + 1 = m := by
  constructor
  · intro h
    obtain ⟨n, m, hchosen, hle⟩ | ⟨n, m, hchosen, hlt⟩ | hnone := chosen_cases spec.toList
    · rw [ofSpec_of_le hchosen hle] at h
      obtain rfl := Except.ok.inj h
      exact ⟨n, m, hchosen, hle, Nat.sub_add_cancel hchosen.pos.1, Nat.sub_add_cancel hchosen.pos.2⟩
    · rw [ofSpec_of_lt hchosen hlt] at h
      cases h
    · rw [ofSpec_of_not_chosen hnone] at h
      cases h
  · obtain ⟨first, last, hf⟩ := f
    rintro ⟨_, _, hchosen, hle, rfl, rfl⟩
    exact ofSpec_of_le hchosen hle

theorem ofSpec_eq_noLines_iff :
    ofSpec spec = .error (.noLines spec) ↔ ∃ n m, Chosen spec.toList n m ∧ m < n := by
  constructor
  · intro h
    obtain ⟨n, m, hchosen, hle⟩ | hlt | hnone := chosen_cases spec.toList
    · rw [ofSpec_of_le hchosen hle] at h
      cases h
    · exact hlt
    · rw [ofSpec_of_not_chosen hnone] at h
      cases h
  · rintro ⟨n, m, hchosen, hlt⟩
    exact ofSpec_of_lt hchosen hlt

theorem ofSpec_eq_notANumber_iff :
    ofSpec spec = .error (.notANumber spec) ↔ ∀ n m, ¬ Chosen spec.toList n m := by
  refine ⟨fun h => ?_, ofSpec_of_not_chosen⟩
  obtain ⟨n, m, hchosen, hle⟩ | ⟨n, m, hchosen, hlt⟩ | hnone := chosen_cases spec.toList
  · rw [ofSpec_of_le hchosen hle] at h
    cases h
  · rw [ofSpec_of_lt hchosen hlt] at h
    cases h
  · exact hnone

theorem numeral_toString (n : Nat) : Numeral (toString n).toList n := by
  have hdigits : (toString n).toList = Nat.toDigits 10 n := by
    rw [Nat.toString_eq_ofList_toDigits, String.toList_ofList]
  refine ⟨[], (toString n).toList, [], by simp, nofun, nofun, (toString n).toList, Or.inl rfl, ?_, ?_, ?_⟩
  · rw [hdigits]
    exact Nat.toDigits_ne_nil
  · exact fun c hc => Digit.isDigit_of_mem_toString hc
  · rw [hdigits, Nat.ofDigitChars_ten_toDigits]

theorem names_toString (n m : Nat) : Names (toString n ++ ":" ++ toString m).toList n m := by
  refine ⟨(toString n).toList, (toString m).toList, Or.inr ⟨fun hcolon => ?_, ?_⟩, numeral_toString n,
    numeral_toString m⟩
  · exact absurd (Digit.isDigit_of_mem_toString hcolon) (by decide)
  · rw [String.toList_append, String.toList_append, List.append_assoc]
    rfl

end LineFilter

namespace Arguments

open LineFilter

/-- A specification is accepted exactly if its parts are numerals for `n` and `m`, which are at least one, in
order and of at most 64 bits; then the lines from the one before `n` to the one before `m` are chosen, counted
from zero. It fails for two such numbers that are not in order, and for all else. In particular two numbers in
decimal digits with a colon between are accepted. -/
theorem lineFilter_reads (a : Arguments) (spec : String) :
    let filter := ({ a with lines := some spec } : Arguments).lineFilter
    (∀ f, filter = .ok (some f) ↔ ∃ n m, Names spec.toList n m ∧ 1 ≤ n ∧ n ≤ m ∧ m < UInt64.size ∧
      f.first + 1 = n ∧ f.last + 1 = m) ∧
    (filter = .error (.noLines spec) ↔ ∃ n m, Names spec.toList n m ∧ 1 ≤ m ∧ m < n ∧ n < UInt64.size) ∧
    (filter = .error (.notANumber spec) ↔ ∀ n m, Names spec.toList n m →
      ¬ ((1 ≤ n ∧ n < UInt64.size) ∧ 1 ≤ m ∧ m < UInt64.size)) ∧
    ((∃ f, filter = .ok (some f)) ∨ filter = .error (.noLines spec) ∨ filter = .error (.notANumber spec)) ∧
    ∀ n m, 1 ≤ n → n ≤ m → m < UInt64.size → ∃ f,
      ({ a with lines := some (toString n ++ ":" ++ toString m) } : Arguments).lineFilter = .ok (some f) ∧
        f.first = n - 1 ∧ f.last = m - 1 := by
  intro filter
  have hfilter : filter = some <$> ofSpec spec := rfl
  refine ⟨fun f => ?_, ?_, ?_, ?_, ?_⟩
  · simp only [hfilter, map_some_eq_ok_iff, ofSpec_eq_ok_iff, ← and_assoc, chosen_and_le_iff]
  · simp only [hfilter, map_eq_error_iff, ofSpec_eq_noLines_iff, chosen_and_lt_iff]
  · simp only [hfilter, map_eq_error_iff, ofSpec_eq_notANumber_iff, Chosen, not_and]
  · simp only [hfilter, map_some_eq_ok_iff, map_eq_error_iff]
    obtain ⟨n, m, hchosen, hle⟩ | ⟨n, m, hchosen, hlt⟩ | hnone := chosen_cases spec.toList
    · exact Or.inl ⟨_, ofSpec_of_le hchosen hle⟩
    · exact Or.inr (Or.inl (ofSpec_of_lt hchosen hlt))
    · exact Or.inr (Or.inr (ofSpec_of_not_chosen hnone))
  · intro n m hn hle hm
    have hchosen := chosen_and_le_iff.mpr ⟨names_toString n m, hn, hle, hm⟩
    exact ⟨_, map_some_eq_ok_iff.mpr (ofSpec_of_le hchosen.1 hle), rfl, rfl⟩

-- White space, a plus sign and zeros in front do not matter.
example : (({ lines := some " +07:9\u00a0" } : Arguments).lineFilter.toOption.bind id).map
    (fun f => (f.first, f.last)) = some (6, 8) := by decide

end Arguments
end LineTint
