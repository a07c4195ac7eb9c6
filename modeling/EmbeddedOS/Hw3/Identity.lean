import EmbeddedOS.Hw3.Replay

namespace EmbeddedOS.Hw3

open CText

def letters : Text := lit "ABCDEFGHJKLMNPQRSTUVXYWZIO"

def letterValue (b : Byte) : ℤ := 10 + letters.idxOf b

def WellFormed (d : ID) : Prop := isupper (d 0) = true ∧ ∀ k : Fin 9, isdigit (d k.succ) = true

instance (d : ID) : Decidable (WellFormed d) := inferInstanceAs (Decidable (_ ∧ _))

structure IsIdentity (d : ID) : Prop where
  form : WellFormed d
  checksum : 10 ∣ letterValue (d 0) / 10 + 9 * (letterValue (d 0) % 10) + 8 * digitAt d 1 + 7 * digitAt d 2 +
    6 * digitAt d 3 + 5 * digitAt d 4 + 4 * digitAt d 5 + 3 * digitAt d 6 + 2 * digitAt d 7 + digitAt d 8 + digitAt d 9

theorem letterValue_eq {b : Byte} (h : isupper b = true) (y : ℤ) : letterCode y b = letterValue b := by
  refine isupper_cases (P := fun b => letterCode y b = letterValue b) ?_ h
  intro n hl hu
  interval_cases n <;> rfl

theorem digitAt_bounds {d : ID} {k : Fin 10} (h : isdigit (d k) = true) : 0 ≤ digitAt d k ∧ digitAt d k ≤ 9 := by
  have hb := (isdigit_iff _).mp h
  rw [digitAt, chr_isdigit h]
  omega

def idSum (y : ℤ) (d : ID) : ℤ :=
  (letterCode y (d 0)).tdiv 10 + (letterCode y (d 0)).tmod 10 * 9 + digitSum d

theorem check_ID_completes (y : ℤ) (d : ID) : check_ID y d = true ↔ (idSum y d).tmod 10 + digitAt d 9 = 10 := by
  rw [check_ID_iff, checkDigit, idSum]
  omega

theorem WellFormed.identity_iff {d : ID} (h : WellFormed d) (y : ℤ) :
    0 ≤ idSum y d ∧ (IsIdentity d ↔ 10 ∣ idSum y d + digitAt d 9) := by
  have hcode : 0 ≤ letterValue (d 0) := by
    unfold letterValue
    omega
  have hdigit (k : Fin 9) : 0 ≤ digitAt d k.succ := (digitAt_bounds (h.2 k)).1
  have hdigits : 0 ≤ digitSum d := by
    have h1 : 0 ≤ digitAt d 1 := hdigit 0
    have h2 : 0 ≤ digitAt d 2 := hdigit 1
    have h3 : 0 ≤ digitAt d 3 := hdigit 2
    have h4 : 0 ≤ digitAt d 4 := hdigit 3
    have h5 : 0 ≤ digitAt d 5 := hdigit 4
    have h6 : 0 ≤ digitAt d 6 := hdigit 5
    have h7 : 0 ≤ digitAt d 7 := hdigit 6
    have h8 : 0 ≤ digitAt d 8 := hdigit 7
    unfold digitSum
    positivity
  have hsum : idSum y d = letterValue (d 0) / 10 + letterValue (d 0) % 10 * 9 + digitSum d := by
    rw [idSum, letterValue_eq h.1, Int.tdiv_eq_ediv_of_nonneg hcode, Int.tmod_eq_emod_of_nonneg hcode]
  have htotal : idSum y d + digitAt d 9 = letterValue (d 0) / 10 + 9 * (letterValue (d 0) % 10) + 8 * digitAt d 1 +
      7 * digitAt d 2 + 6 * digitAt d 3 + 5 * digitAt d 4 + 4 * digitAt d 5 + 3 * digitAt d 6 + 2 * digitAt d 7 +
      digitAt d 8 + digitAt d 9 := by
    rw [hsum, digitSum]
    ring
  constructor
  · rw [hsum]
    omega
  · rw [htotal]
    exact ⟨fun hid => hid.checksum, fun hten => ⟨h, hten⟩⟩

theorem check_ID_correct_iff (y : ℤ) (d : ID) : (check_ID y d = true ↔ IsIdentity d) ↔
    (WellFormed d → ¬ (10 ∣ idSum y d ∧ digitAt d 9 = 0)) ∧
      (¬ WellFormed d → (idSum y d).tmod 10 + digitAt d 9 ≠ 10) := by
  rw [check_ID_completes]
  by_cases hform : WellFormed d
  · obtain ⟨hpos, hid⟩ := hform.identity_iff y
    have hlast : 0 ≤ digitAt d 9 ∧ digitAt d 9 ≤ 9 := digitAt_bounds (hform.2 8)
    rw [hid, Int.tmod_eq_emod_of_nonneg hpos]
    simp only [hform, not_true_eq_false, forall_true_left, false_implies, and_true]
    omega
  · have hnot : ¬ IsIdentity d := fun h => hform h.form
    simp [hform, hnot]

def idOf (t : Text) : ID := fun k => t.getD k 0

theorem check_ID_correct_fails :
    IsIdentity (idOf (lit "A000000090")) ∧ check_ID 0 (idOf (lit "A000000090")) = false := by
  constructor
  · constructor
    · decide
    · decide
  · decide

theorem atoi_not_digit {b : Byte} (h : isdigit b = false) : atoi [b] = 0 := by
  have hnone : (scanSign ([b].dropWhile isspace)).2.takeWhile isdigit = [] := by
    by_cases hs : isspace b = true
    · simp [scanSign, hs]
    · unfold scanSign
      split_ifs <;> simp [hs, h]
  simp [atoi, scanInt, hnone]

def readTotal (y : ℤ) (d : ID) : ℤ :=
  (letterCode y (d 0)).tdiv 10 + (letterCode y (d 0)).tmod 10 * 9 + readSum d

theorem judge_completes {d : ID} (hletter : isupper (d 0) = true) (y : ℤ) (u : Scratch) :
    judge_correction u (List.ofFn d) = true ↔ (readTotal y d).tmod 10 + readAt d 9 = 10 := by
  rw [judge_correction_iff, letterNum_eq hletter y, readTotal]
  omega

theorem judges_agree_iff (y : ℤ) (u : Scratch) (d : ID) (hletter : isupper (d 0) = true) :
    check_ID y d = judge_correction u (List.ofFn d) ↔
      (isdigit (d 9) = true ∧ (idSum y d).tmod 10 = (readTotal y d).tmod 10) ∨
        ((idSum y d).tmod 10 + digitAt d 9 ≠ 10 ∧ (readTotal y d).tmod 10 + readAt d 9 ≠ 10) := by
  rw [Bool.eq_iff_iff, check_ID_completes, judge_completes hletter y]
  cases hlast : isdigit (d 9) with
  | true =>
    have hread : readAt d 9 = digitAt d 9 := atoi_digit hlast
    rw [hread]
    simp only [true_and]
    omega
  | false =>
    have hread : readAt d 9 = 0 := atoi_not_digit hlast
    have hlt := Int.tmod_lt_of_pos (readTotal y d) (show 0 < 10 by norm_num)
    rw [hread]
    simp only [Bool.false_eq_true, false_and, false_or]
    omega

theorem judges_agree_sample : check_ID 0 (idOf (lit "A123456789")) =
    judge_correction ⟨fun _ => 0, 0, 0, fun _ => 0⟩ (List.ofFn (idOf (lit "A123456789"))) :=
  (judges_agree_iff 0 ⟨fun _ => 0, 0, 0, fun _ => 0⟩ (idOf (lit "A123456789")) (by decide)).mpr (Or.inl (by decide))

theorem judges_disagree : check_ID 0 (idOf (lit "A;00000001")) = true ∧
    judge_correction ⟨fun _ => 0, 0, 0, fun _ => 0⟩ (List.ofFn (idOf (lit "A;00000001"))) = false := by
  decide

end EmbeddedOS.Hw3
