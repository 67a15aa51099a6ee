import LineTint.Proofs.CharBytes

namespace LineTint.Text

open String (utf8EncodeChar)

/-- The byte that goes on with an open character is one that it can go on with. -/
def PartialChar.Takes (p : PartialChar) (b : Nat) : Prop := p.low ≤ b ∧ b ≤ p.high

theorem lead_two {v : Nat} (hlow : 127 < v) (hhigh : v ≤ 2047) :
    lead (v / 64 % 32 + 192) = .incomplete { bits := v / 64, owed := 1 } := by
  have hbits : v / 64 % 32 + 192 - 192 = v / 64 := by omega
  unfold lead
  rw [if_neg (by omega), if_neg (by omega), if_pos (by omega), hbits]

theorem lead_three {v : Nat} (hlow : 2047 < v) (hhigh : v ≤ 65535) (hvalid : v < 55296 ∨ 57343 < v) :
    ∃ p, lead (v / 4096 % 16 + 224) = .incomplete p ∧ p.bits = v / 4096 ∧ p.owed = 2 ∧
      p.Takes (v / 64 % 64 + 128) := by
  unfold lead PartialChar.Takes
  rw [if_neg (by omega), if_neg (by omega), if_neg (by omega)]
  split_ifs
  · exact ⟨_, rfl, by dsimp only; omega, rfl, by dsimp only; omega⟩
  · exact ⟨_, rfl, by dsimp only; omega, rfl, by dsimp only; omega⟩
  · exact ⟨_, rfl, by dsimp only; omega, rfl, by dsimp only; omega⟩
  all_goals omega

theorem lead_four {v : Nat} (hlow : 65535 < v) (hhigh : v < 1114112) :
    ∃ p, lead (v / 262144 % 8 + 240) = .incomplete p ∧ p.bits = v / 262144 ∧ p.owed = 3 ∧
      p.Takes (v / 4096 % 64 + 128) := by
  unfold lead PartialChar.Takes
  rw [if_neg (by omega), if_neg (by omega), if_neg (by omega), if_neg (by omega), if_neg (by omega), if_neg (by omega)]
  split_ifs
  · exact ⟨_, rfl, by dsimp only; omega, rfl, by dsimp only; omega⟩
  · exact ⟨_, rfl, by dsimp only; omega, rfl, by dsimp only; omega⟩
  · exact ⟨_, rfl, by dsimp only; omega, rfl, by dsimp only; omega⟩
  · omega

theorem toNat_byte {n : Nat} (hn : n < 256) : (UInt8.ofNat n).toNat = n := UInt8.toNat_ofNat_of_lt' hn

theorem decodeFrom_lead {n : Nat} {p : PartialChar} (hn : n < 256) (h : lead n = .incomplete p) (rest : List UInt8) :
    decodeFrom none (UInt8.ofNat n :: rest) = decodeFrom (some p) rest := by
  rw [decodeFrom, toNat_byte hn, h]

theorem takes_tail (bits owed n : Nat) : ({ bits, owed } : PartialChar).Takes (n % 64 + 128) := by
  unfold PartialChar.Takes
  dsimp only
  omega

variable {p : PartialChar} {n : Nat}

theorem decodeFrom_last (hn : p.Takes (n % 64 + 128)) (howed : p.owed = 1) (rest : List UInt8) :
    decodeFrom (some p) (UInt8.ofNat (n % 64 + 128) :: rest) =
      Char.ofNat (p.bits * 64 + n % 64) :: decodeFrom none rest := by
  rw [decodeFrom, toNat_byte (by omega), Nat.add_sub_cancel]
  exact (if_pos hn).trans (if_pos (Nat.le_of_eq howed))

theorem decodeFrom_next (hn : p.Takes (n % 64 + 128)) (howed : 1 < p.owed) (rest : List UInt8) :
    decodeFrom (some p) (UInt8.ofNat (n % 64 + 128) :: rest) =
      decodeFrom (some { bits := p.bits * 64 + n % 64, owed := p.owed - 1 }) rest := by
  rw [decodeFrom, toNat_byte (by omega), Nat.add_sub_cancel]
  exact (if_pos hn).trans (if_neg (Nat.not_le_of_lt howed))

theorem decodeFrom_encodeChar (c : Char) (rest : List UInt8) :
    decodeFrom none (utf8EncodeChar c ++ rest) = c :: decodeFrom none rest := by
  have hvalid : c.val.toNat < 55296 ∨ 57343 < c.val.toNat ∧ c.val.toNat < 1114112 := c.valid
  have hchar : Char.ofNat c.val.toNat = c := Char.ofNat_toNat c
  unfold utf8EncodeChar
  generalize c.val.toNat = v at hvalid hchar
  dsimp only
  split_ifs with hone htwo hthree
  · have hlead : lead v = .complete c := by rw [lead, if_pos (by omega), hchar]
    rw [List.singleton_append, decodeFrom, toNat_byte (by omega), hlead]
  · have hv : v / 64 * 64 + v % 64 = v := by omega
    rw [List.cons_append, List.singleton_append, decodeFrom_lead (by omega) (lead_two (by omega) htwo),
      decodeFrom_last (takes_tail _ _ v) rfl, hv, hchar]
  · obtain ⟨p, hlead, hbits, howed, htakes⟩ := lead_three (v := v) (by omega) hthree (by omega)
    have hv : (p.bits * 64 + v / 64 % 64) * 64 + v % 64 = v := by omega
    rw [List.cons_append, List.cons_append, List.singleton_append, decodeFrom_lead (by omega) hlead,
      decodeFrom_next htakes (by omega), decodeFrom_last (takes_tail _ _ v) (by dsimp only; omega), hv, hchar]
  · obtain ⟨p, hlead, hbits, howed, htakes⟩ := lead_four (v := v) (by omega) (by omega)
    have hv : ((p.bits * 64 + v / 4096 % 64) * 64 + v / 64 % 64) * 64 + v % 64 = v := by omega
    rw [List.cons_append, List.cons_append, List.cons_append, List.singleton_append,
      decodeFrom_lead (by omega) hlead, decodeFrom_next htakes (by omega),
      decodeFrom_next (takes_tail _ _ (v / 64)) (by dsimp only; omega),
      decodeFrom_last (takes_tail _ _ v) (by dsimp only; omega), hv, hchar]

theorem decode?_bytes (text : String) : decode? (bytes text) = some text := by
  have hdecode (cs : List Char) : decodeFrom none (encode cs) = cs := by
    induction cs with
    | nil => rfl
    | cons c cs ih => rw [encode_cons, decodeFrom_encodeChar, ih]
  have hlossy : decodeLossy (bytes text) = text := by rw [decodeLossy, bytes, hdecode, String.ofList_toList]
  rw [decode?, hlossy]
  exact if_pos rfl

end LineTint.Text
