import Mathlib

namespace EmbeddedOS.CText

abbrev Byte := UInt8

abbrev Text := List Byte

def lit (s : String) : Text := s.toList.map (fun c => c.toNat.toUInt8)

-- the literals of the small index types mean one term in every module
instance neZero_three : NeZero 3 := ⟨by decide⟩

instance neZero_four : NeZero 4 := ⟨by decide⟩

instance neZero_ten : NeZero 10 := ⟨by decide⟩

def newline : Byte := 10
def comma : Byte := 44

def chr (b : Byte) : ℤ := if b.toNat < 128 then b.toNat else b.toNat - 256

def int32 (n : ℤ) : ℤ := n.bmod (2 ^ 32)

def IsInt32 (n : ℤ) : Prop := -2 ^ 31 ≤ n ∧ n < 2 ^ 31

instance (n : ℤ) : Decidable (IsInt32 n) := inferInstanceAs (Decidable (_ ∧ _))

theorem int32_isInt32 (n : ℤ) : IsInt32 (int32 n) := by
  have hl := Int.le_bmod (x := n) (m := 2 ^ 32) (by norm_num)
  have hu := Int.bmod_lt (x := n) (m := 2 ^ 32) (by norm_num)
  simp only [int32, IsInt32]
  omega

theorem int32_of_isInt32 {n : ℤ} (h : IsInt32 n) : int32 n = n := by
  simp only [IsInt32] at h
  apply Int.bmod_eq_of_le <;> omega

theorem int32_succ (n : ℤ) : int32 (int32 n + 1) = int32 (n + 1) := by
  simp [int32]

def isspace (b : Byte) : Bool := b == 32 || (9 ≤ b && b ≤ 13)

def isdigit (b : Byte) : Bool := 48 ≤ b && b ≤ 57

theorem isdigit_iff (b : Byte) : isdigit b = true ↔ 48 ≤ b.toNat ∧ b.toNat ≤ 57 := by
  simp [isdigit, UInt8.le_iff_toNat_le]

theorem isspace_of_isdigit {b : Byte} (h : isdigit b = true) : isspace b = false := by
  rw [isdigit_iff] at h
  by_contra hs
  simp only [isspace, Bool.not_eq_false, Bool.or_eq_true, beq_iff_eq, Bool.and_eq_true,
    decide_eq_true_eq, UInt8.le_iff_toNat_le, UInt8.reduceToNat] at hs
  rcases hs with rfl | hs
  · exact absurd h (by decide)
  · omega

theorem chr_isdigit {b : Byte} (h : isdigit b = true) : chr b = b.toNat := by
  rw [isdigit_iff] at h
  simp only [chr, ite_eq_left_iff]
  omega

def digits (n : ℕ) : Text := (Nat.toDigits 10 n).map (fun c => c.toNat.toUInt8)

def decimal (n : ℤ) : Text := if n < 0 then 45 :: digits n.natAbs else digits n.natAbs

def snprintf (size : ℕ) (t : Text) : Text := t.take (size - 1)

theorem toUInt8_isdigit {c : Char} (h : c.isDigit = true) :
    isdigit c.toNat.toUInt8 = true ∧ c.toNat.toUInt8.toNat = c.toNat := by
  have hc : 48 ≤ c.toNat ∧ c.toNat ≤ 57 := by
    simp only [Char.isDigit, Bool.and_eq_true, decide_eq_true_eq, ge_iff_le, UInt32.le_iff_toNat_le] at h
    exact h
  have ht : c.toNat.toUInt8.toNat = c.toNat := by simp; omega
  exact ⟨by rw [isdigit_iff, ht]; exact hc, ht⟩

theorem isdigit_of_mem_digits {n : ℕ} {b : Byte} (h : b ∈ digits n) : isdigit b = true := by
  obtain ⟨c, hc, rfl⟩ := List.mem_map.mp h
  exact (toUInt8_isdigit (Nat.isDigit_of_mem_toDigits (by norm_num) (by norm_num) hc)).1

theorem digits_ne_nil (n : ℕ) : digits n ≠ [] := by simp [digits]

theorem digits_length_le {n k : ℕ} (hk : 0 < k) (h : n < 10 ^ k) : (digits n).length ≤ k := by
  simpa [digits] using (Nat.length_toDigits_le_iff (b := 10) (by norm_num) hk).mpr h

theorem decimal_ne_nil (n : ℤ) : decimal n ≠ [] := by
  simp only [decimal]
  split_ifs <;> simp [digits_ne_nil]

theorem mem_decimal {n : ℤ} {b : Byte} (h : b ∈ decimal n) : b = 45 ∨ isdigit b = true := by
  simp only [decimal] at h
  split_ifs at h
  · rcases List.mem_cons.mp h with h | h
    · exact Or.inl h
    · exact Or.inr (isdigit_of_mem_digits h)
  · exact Or.inr (isdigit_of_mem_digits h)

theorem not_mem_decimal {b : Byte} (hb : b ≠ 45 ∧ isdigit b = false) (n : ℤ) : b ∉ decimal n := by
  intro h
  rcases mem_decimal h with h | h
  · exact hb.1 h
  · rw [hb.2] at h
    cases h

theorem newline_not_mem_decimal (n : ℤ) : newline ∉ decimal n := not_mem_decimal (by decide) n

theorem comma_not_mem_decimal (n : ℤ) : comma ∉ decimal n := not_mem_decimal (by decide) n

theorem decimal_length_le {n : ℤ} (h : IsInt32 n) : (decimal n).length ≤ 11 := by
  simp only [IsInt32] at h
  have hd : (digits n.natAbs).length ≤ 10 := digits_length_le (by norm_num) (by omega)
  simp only [decimal]
  split_ifs
  · simp only [List.length_cons]
    omega
  · omega

end EmbeddedOS.CText
