namespace LineTint.Digit

def value? (c : Char) : Option Nat :=
  if '0' ≤ c ∧ c ≤ '9' then some (c.toNat - '0'.toNat)
  else if 'a' ≤ c ∧ c ≤ 'f' then some (c.toNat - 'a'.toNat + 10)
  else if 'A' ≤ c ∧ c ≤ 'F' then some (c.toNat - 'A'.toNat + 10)
  else none

def extend? (base n : Nat) : List Char → Option Nat
  | [] => some n
  | c :: cs =>
    match value? c with
    | some d => if d < base then extend? base (base * n + d) cs else none
    | none => none

/-- The number that some digits stand for; no digit is no number. -/
def number? (base : Nat) (cs : List Char) : Option Nat :=
  if cs.isEmpty then none else extend? base 0 cs

def upper (n : Nat) : Char :=
  if n < 10 then Char.ofNat ('0'.toNat + n) else Char.ofNat ('A'.toNat + (n - 10))

theorem isDigit_of_mem_toString {n : Nat} {c : Char} (h : c ∈ (toString n).toList) : c.isDigit = true := by
  rw [Nat.toString_eq_ofList_toDigits, String.toList_ofList] at h
  exact Nat.isDigit_of_mem_toDigits (by omega) (by omega) h

theorem exists_of_mem_toDigits {base n : Nat} {c : Char} (hbase : 1 < base) (h : c ∈ Nat.toDigits base n) :
    ∃ d < base, c = Nat.digitChar d := by
  induction n using Nat.strongRecOn with
  | _ n ih =>
      rcases Nat.lt_or_ge n base with hn | hn
      · rw [Nat.toDigits_of_lt_base hn] at h
        exact ⟨n, hn, List.mem_singleton.mp h⟩
      · rw [Nat.toDigits_of_base_le hbase hn, List.mem_append, List.mem_singleton] at h
        rcases h with h | h
        · exact ih (n / base) (Nat.div_lt_self (by omega) hbase) h
        · exact ⟨n % base, Nat.mod_lt n (by omega), h⟩

theorem digitChar_inj : ∀ m < 16, ∀ n < 16, Nat.digitChar m = Nat.digitChar n → m = n := by decide

theorem toDigits_inj {base m n : Nat} (hbase : 1 < base) (hle : base ≤ 16)
    (h : Nat.toDigits base m = Nat.toDigits base n) : m = n := by
  induction m using Nat.strongRecOn generalizing n with
  | _ m ih =>
      have hsingle {k l : Nat} (hk : k < base) (hl : base ≤ l) : Nat.toDigits base k ≠ Nat.toDigits base l := by
        rw [Nat.toDigits_of_lt_base hk, Nat.toDigits_of_base_le hbase hl]
        intro heq
        have hlength := congrArg List.length heq
        rw [List.length_append] at hlength
        exact Nat.toDigits_ne_nil (List.eq_nil_of_length_eq_zero (Nat.add_right_cancel hlength).symm)
      rcases Nat.lt_or_ge m base with hm | hm
      · rcases Nat.lt_or_ge n base with hn | hn
        · rw [Nat.toDigits_of_lt_base hm, Nat.toDigits_of_lt_base hn] at h
          exact digitChar_inj m (by omega) n (by omega) (List.singleton_inj.mp h)
        · exact (hsingle hm hn h).elim
      · rcases Nat.lt_or_ge n base with hn | hn
        · exact (hsingle hn hm h.symm).elim
        · rw [Nat.toDigits_of_base_le hbase hm, Nat.toDigits_of_base_le hbase hn] at h
          obtain ⟨hfront, hlast⟩ := List.append_inj' h rfl
          have hdiv := ih (m / base) (Nat.div_lt_self (by omega) hbase) hfront
          have hmod := digitChar_inj _ (Nat.lt_of_lt_of_le (Nat.mod_lt m (by omega)) hle) _
            (Nat.lt_of_lt_of_le (Nat.mod_lt n (by omega)) hle) (List.singleton_inj.mp hlast)
          rw [← Nat.div_add_mod m base, ← Nat.div_add_mod n base, hdiv, hmod]

theorem toString_inj {m n : Nat} (h : toString m = toString n) : m = n := by
  rw [Nat.toString_eq_ofList_toDigits, Nat.toString_eq_ofList_toDigits] at h
  exact toDigits_inj (by omega) (by omega) (String.ofList_injective h)

end LineTint.Digit
