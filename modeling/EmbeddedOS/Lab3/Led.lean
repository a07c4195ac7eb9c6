import EmbeddedOS.Library.Bytes

namespace EmbeddedOS.Lab3

open CText

inductive LedCall where
  | bit_set (led : Fin 8)
  | bit_clear (led : Fin 8)
  deriving DecidableEq

/-- The variables of the first loop. `binaryNumber` is a `long long`, which 31 terms cannot leave. -/
structure Packing where
  n : ℤ
  i : ℤ
  binaryNumber : ℤ

def Packing.next (p : Packing) : Packing where
  n := p.n.tdiv 2
  i := int32 (p.i * 10)
  binaryNumber := p.binaryNumber + int32 (p.n.tmod 2 * p.i)

def pack : ℕ → Packing → Option ℤ
  | 0, _ => none
  | rounds + 1, p => if p.n = 0 then some p.binaryNumber else pack rounds p.next

def unpack (binaryNumber : ℤ) : Vector ℤ 8 :=
  ((List.finRange 8).foldl
    (fun (s : Vector ℤ 8 × ℤ) (i : Fin 8) => (s.1.set (7 - i) (s.2.tmod 10), s.2.tdiv 10))
    (Vector.replicate 8 0, binaryNumber)).1

def led (on : Fin 8 → Prop) [DecidablePred on] : List LedCall :=
  (List.finRange 8).map fun i => if on i then .bit_set i else .bit_clear i

def print_led (n : ℤ) : Option (List LedCall) :=
  (pack 32 ⟨n.natAbs, 1, 0⟩).map fun binaryNumber =>
    let arr := unpack binaryNumber
    led fun i => arr[i] = 1

def lowBits (n : ℤ) : List LedCall := led fun k => n.natAbs.testBit (7 - k) = true

def weight (m k : ℕ) : ℤ := if m.testBit k then int32 (10 ^ k) else 0

def packed (m : ℕ) : ℤ := ∑ k ∈ Finset.range 31, weight m k

theorem int32_mul_ten (k : ℕ) : int32 (int32 (10 ^ k) * 10) = int32 (10 ^ (k + 1)) := by
  simp only [int32, pow_succ]
  exact Int.bmod_mul_bmod

theorem int32_remainder (m : ℕ) (k : ℕ) :
    int32 ((m : ℤ).tmod 2 * int32 (10 ^ k)) = if m.testBit 0 then int32 (10 ^ k) else 0 := by
  have hmod : (m : ℤ).tmod 2 = ((m % 2 : ℕ) : ℤ) := (Int.ofNat_tmod m 2).symm
  rw [hmod, Nat.testBit_zero]
  obtain h | h := Nat.mod_two_eq_zero_or_one m
  · simp [h, int32]
  · simp [h, int32_of_isInt32 (int32_isInt32 _)]

theorem pack_eq {r m : ℕ} (hm : m < 2 ^ r) (k : ℕ) (acc : ℤ) :
    pack (r + 1) ⟨m, int32 (10 ^ k), acc⟩ =
      some (acc + ∑ j ∈ Finset.range r, if m.testBit j then int32 (10 ^ (k + j)) else 0) := by
  induction r generalizing m k acc with
  | zero =>
    obtain rfl : m = 0 := by simpa using hm
    simp [pack]
  | succ r ih =>
    by_cases h0 : m = 0
    · simp [h0, pack]
    · have hdiv : (m : ℤ).tdiv 2 = ((m / 2 : ℕ) : ℤ) := (Int.ofNat_tdiv m 2).symm
      have hhalf : m / 2 < 2 ^ r := by omega
      rw [pack, if_neg (by simpa using h0), Packing.next]
      simp only [hdiv, int32_mul_ten, int32_remainder]
      rw [ih hhalf, Finset.sum_range_succ', add_assoc]
      congr 2
      rw [add_comm, add_zero]
      simp only [Nat.testBit_succ, Nat.add_right_comm k 1, Nat.add_assoc]

theorem pack_packed {m : ℕ} (hm : m < 2 ^ 31) : pack 32 ⟨m, 1, 0⟩ = some (packed m) := by
  have h := pack_eq hm 0 0
  have hone : int32 (10 ^ 0) = 1 := by decide
  rw [hone] at h
  rw [h]
  simp only [packed, weight, zero_add]

def remainder (x : ℤ) : ℕ → ℤ
  | 0 => x.tmod 10
  | j + 1 => remainder (x.tdiv 10) j

theorem unpack_get (x : ℤ) (k : Fin 8) : (unpack x)[k] = remainder x (7 - k) := by
  fin_cases k <;> rfl

theorem remainder_nonneg {x : ℤ} (hx : 0 ≤ x) (j : ℕ) : remainder x j = x / 10 ^ j % 10 := by
  induction j generalizing x with
  | zero => rw [remainder, pow_zero, Int.ediv_one, Int.tmod_eq_emod_of_nonneg hx]
  | succ j ih =>
    rw [remainder, Int.tdiv_eq_ediv_of_nonneg hx, ih (by omega), pow_succ',
      Int.ediv_ediv_of_nonneg (by norm_num)]

theorem remainder_neg (x : ℤ) (j : ℕ) : remainder (-x) j = -remainder x j := by
  induction j generalizing x with
  | zero => rw [remainder, remainder, Int.neg_tmod]
  | succ j ih => rw [remainder, remainder, Int.neg_tdiv, ih]

theorem remainder_nonpos {x : ℤ} (hx : x ≤ 0) (j : ℕ) : remainder x j ≤ 0 := by
  have h := remainder_neg x j
  rw [remainder_nonneg (Int.neg_nonneg_of_nonpos hx)] at h
  have hdigit := Int.emod_nonneg (-x / 10 ^ j) (b := 10) (by norm_num)
  omega

def bitDigits (b : ℕ → Bool) : ℕ → ℤ
  | 0 => 0
  | m + 1 => (if b 0 then 1 else 0) + 10 * bitDigits (fun j => b (j + 1)) m

theorem bitDigits_eq_sum (b : ℕ → Bool) (m : ℕ) :
    bitDigits b m = ∑ j ∈ Finset.range m, if b j then 10 ^ j else 0 := by
  induction m generalizing b with
  | zero => rfl
  | succ m ih =>
    rw [bitDigits, ih, Finset.sum_range_succ', Finset.mul_sum, add_comm]
    congr 1
    apply Finset.sum_congr rfl
    intro j _
    split_ifs <;> ring

theorem digits_add (b : ℕ → Bool) (s : ℤ) {k m : ℕ} (hkm : k ≤ m) :
    (∀ j < k, (bitDigits b m + s) / 10 ^ j % 10 = 1 ↔ b j = true) ↔
      ∀ j < k, if b j then s / 10 ^ j % 10 = 0 else s / 10 ^ j % 10 ≠ 1 := by
  induction k generalizing b s m with
  | zero => simp
  | succ k ih =>
    obtain ⟨m, rfl⟩ := Nat.exists_eq_add_of_le' (Nat.one_le_of_lt hkm)
    have hshift (x : ℤ) (j : ℕ) : x / 10 ^ (j + 1) = x / 10 / 10 ^ j := by
      rw [pow_succ', Int.ediv_ediv_of_nonneg (by norm_num)]
    simp only [Nat.forall_lt_succ_left, hshift, pow_zero, Int.ediv_one]
    have hfirst : ((bitDigits b (m + 1) + s) % 10 = 1 ↔ b 0 = true) ↔
        if b 0 then s % 10 = 0 else s % 10 ≠ 1 := by
      rw [bitDigits]
      by_cases hb : b 0 = true
      · simp only [hb, ↓reduceIte, iff_true]
        omega
      · rw [if_neg hb, if_neg hb, iff_false_right hb]
        omega
    rw [hfirst]
    apply and_congr_right
    intro hzero
    have hcarry : (bitDigits b (m + 1) + s) / 10 = bitDigits (fun j => b (j + 1)) m + s / 10 := by
      rw [bitDigits]
      by_cases hb : b 0 = true
      · rw [if_pos hb] at hzero ⊢
        omega
      · rw [if_neg hb]
        omega
    rw [hcarry]
    exact ih (fun j => b (j + 1)) (s / 10) (by omega)

def wrapped (n : ℤ) : ℤ := ∑ k ∈ Finset.Ico 10 31, if n.natAbs.testBit k then int32 (10 ^ k) else 0

def unwrapped (n : ℤ) : ℤ := ∑ k ∈ Finset.range 10, if n.natAbs.testBit k then 10 ^ k else 0

/-- The powers that wrapped leave the eight digits alone: they put a `0` under each `1` and no `1`
under a `0`, or make the number negative when there is no `1` to show. -/
def Undisturbed (n : ℤ) : Prop :=
  if 0 ≤ unwrapped n + wrapped n then
    ∀ j < 8, if n.natAbs.testBit j then wrapped n / 10 ^ j % 10 = 0 else wrapped n / 10 ^ j % 10 ≠ 1
  else ∀ j < 8, n.natAbs.testBit j = false

instance (n : ℤ) : Decidable (Undisturbed n) := inferInstanceAs (Decidable (ite _ _ _))

theorem packed_split (n : ℤ) : packed n.natAbs = unwrapped n + wrapped n := by
  have hunwrapped : ∑ k ∈ Finset.range 10, weight n.natAbs k = unwrapped n := by
    apply Finset.sum_congr rfl
    intro k hk
    have hk' := Finset.mem_range.mp hk
    have hle : (10 : ℤ) ^ k ≤ 10 ^ 9 := pow_le_pow_right₀ (by norm_num) (by omega)
    have hpos : (0 : ℤ) < 10 ^ k := by positivity
    rw [weight, int32_of_isInt32 ⟨by omega, by omega⟩]
  rw [packed, ← hunwrapped, Finset.range_eq_Ico, Finset.range_eq_Ico]
  exact (Finset.sum_Ico_consecutive _ (by norm_num) (by norm_num)).symm

theorem led_eq_iff {on on' : Fin 8 → Prop} [DecidablePred on] [DecidablePred on'] :
    led on = led on' ↔ ∀ k, on k ↔ on' k := by
  rw [led, led, List.map_inj_left]
  apply forall_congr'
  intro k
  simp only [List.mem_finRange, forall_const]
  by_cases h : on k <;> by_cases h' : on' k <;> simp [h, h']

theorem digits_shown (n : ℤ) :
    (∀ j < 8, remainder (packed n.natAbs) j = 1 ↔ n.natAbs.testBit j = true) ↔ Undisturbed n := by
  rw [packed_split, Undisturbed]
  split_ifs with h
  · have hbits : unwrapped n = bitDigits n.natAbs.testBit 10 := (bitDigits_eq_sum _ _).symm
    simp only [remainder_nonneg h]
    rw [hbits]
    exact digits_add _ _ (by norm_num)
  · have hle (j : ℕ) : remainder (unwrapped n + wrapped n) j ≠ 1 := by
      have := remainder_nonpos (x := unwrapped n + wrapped n) (by omega) j
      omega
    simp [hle]

theorem print_led_lowBits (n : ℤ) (hn : IsInt32 n) (hmin : n ≠ -2 ^ 31) :
    print_led n = some (lowBits n) ↔ Undisturbed n := by
  have habs : n.natAbs < 2 ^ 31 := by
    simp only [IsInt32] at hn
    omega
  rw [print_led, pack_packed habs, Option.map_some, Option.some_inj, lowBits, led_eq_iff, ← digits_shown]
  constructor
  · intro h j hj
    have hk := h ⟨7 - j, by omega⟩
    rw [unpack_get] at hk
    have hsub : 7 - (7 - j) = j := by omega
    simpa only [hsub] using hk
  · intro h k
    rw [unpack_get]
    exact h (7 - k) (by omega)

theorem print_led_seven :
    IsInt32 7 ∧ print_led 7 = some (lowBits 7) := by
  have hint : IsInt32 7 := by decide
  exact ⟨hint, (print_led_lowBits 7 hint (by decide)).mpr (by decide)⟩

theorem print_led_1024 :
    IsInt32 1024 ∧ print_led 1024 = some (LedCall.bit_set 0 :: (lowBits 1024).tail) ∧
      print_led 1024 ≠ some (lowBits 1024) := by
  decide

end EmbeddedOS.Lab3
