import EmbeddedOS.Hw3.History

namespace EmbeddedOS.Hw3

open CText Runs

def buyText (type city : Text) (X : Fin 3 → Text) : Text :=
  lit "buy" ++ 32 :: (type ++ 32 :: (city ++ 32 :: (X 0 ++ 32 :: (X 1 ++ 32 :: X 2))))

theorem kind_buy (rest : Text) : kind (lit "buy" ++ rest) = .buy := rfl

theorem isWord_buy : IsWord (lit "buy") := by simp [IsWord, lit, isspace]

theorem isWord_login : IsWord (lit "login") := by simp [IsWord, lit, isspace]

theorem sscanf_buyText {type city tail : Text} {X : Fin 3 → Text} {m : Fin 3 → ℤ} (ht : IsWord type)
    (hc : IsWord city) (hX : ∀ j, Numeral (m j) (X j)) (hm : ∀ j, IsInt32 (m j))
    (htail : ∀ b ∈ tail, isspace b = true) :
    sscanf buyFormat (buyText type city X ++ tail) =
      [.word (lit "buy"), .word type, .word city, .int (m 0), .int (m 1), .int (m 2)] := by
  have hblanks : Blanks tail := htail
  simp only [buyFormat, buyText, List.append_assoc, List.cons_append]
  rw [sscanf_first (.word isWord_buy) (stops_blank _), sscanf_next (.word ht) (stops_blank _),
    sscanf_next (.word hc) (stops_blank _), sscanf_next (.int (hX 0) (hm 0)) (stops_blank _),
    sscanf_next (.int (hX 1) (hm 1)) (stops_blank _), sscanf_next (.int (hX 2) (hm 2)) hblanks.stops, sscanf]

theorem scanRequest_buyText (l : Locals) {type city tail : Text} {X : Fin 3 → Text} {m : Fin 3 → ℤ}
    (ht : IsWord type) (hc : IsWord city) (hX : ∀ j, Numeral (m j) (X j)) (hm : ∀ j, IsInt32 (m j))
    (htail : ∀ b ∈ tail, isspace b = true) :
    scanRequest l (buyText type city X ++ tail) = ⟨spillString 17 city type, city.head hc.1, m⟩ := by
  simp only [scanRequest, sscanf_buyText ht hc hX hm htail, wordAt, intAt]
  congr 1
  · simp [List.head?_eq_some_head hc.1]
  · funext j
    fin_cases j <;> rfl

theorem decimal_digit_length {c : ℕ} (hc : c ≤ 9) : (decimal c).length < 17 := by
  interval_cases c <;> decide

theorem city_num_digit {c : ℕ} (hc : 1 ≤ c ∧ c ≤ 9) : chr ((decimal c).head (decimal_ne_nil c)) - 48 = c := by
  obtain ⟨h1, h9⟩ := hc
  interval_cases c <;> decide

def digitSum (d : ID) : ℤ := digitAt d 1 * 8 + digitAt d 2 * 7 + digitAt d 3 * 6 + digitAt d 4 * 5 +
  digitAt d 5 * 4 + digitAt d 6 * 3 + digitAt d 7 * 2 + digitAt d 8 * 1

def checkDigit (y : ℤ) (d : ID) : ℤ :=
  10 - ((letterCode y (d 0)).tdiv 10 + (letterCode y (d 0)).tmod 10 * 9 + digitSum d).tmod 10

theorem check_ID_iff (y : ℤ) (d : ID) : check_ID y d = true ↔ checkDigit y d = digitAt d 9 := by
  simp only [check_ID, checkDigit, digitSum, beq_iff_eq, add_assoc]

theorem checkDigit_bounds (y : ℤ) (d : ID) : 1 ≤ checkDigit y d ∧ checkDigit y d ≤ 19 := by
  unfold checkDigit
  generalize (letterCode y (d 0)).tdiv 10 + _ + _ = x
  have hl := Int.lt_tmod_of_pos x (show 0 < 10 by norm_num)
  have hu := Int.tmod_lt_of_pos x (show 0 < 10 by norm_num)
  omega

theorem check_ID_digit {y : ℤ} {d : ID} (h : check_ID y d = true) :
    1 ≤ digitAt d 9 ∧ digitAt d 9 ≤ 19 := by
  rw [← (check_ID_iff y d).mp h]
  exact checkDigit_bounds y d

theorem type_num_after (b : Boot) (es : List Event) (a : ℤ) :
    ((b.after es).globals.data a).type_num = (b.data a).type_num := by
  have h := (same_after b es).label a
  simp only [Inv.label, Prod.mk.injEq] at h
  exact h.2.1

theorem type_after (b : Boot) (es : List Event) (a : ℤ) :
    ((b.after es).globals.data a).type = (b.data a).type := by
  have h := (same_after b es).label a
  simp only [Inv.label, Prod.mk.injEq] at h
  exact h.2.2.2.1

theorem num_after (b : Boot) (es : List Event) : (b.after es).globals.num = b.num :=
  (same_after b es).num

theorem row_after_type (b : Boot) (es : List Event) (i : ℕ) :
    ((b.after es).globals.row i 0).type = (b.data (100 * i)).type := by
  rw [Globals.row, type_after, add_zero]

theorem row_after_type_num (b : Boot) (es : List Event) (i : ℕ) :
    ((b.after es).globals.row i 0).type_num = (b.data (100 * i)).type_num := by
  rw [Globals.row, type_num_after, add_zero]

theorem findType_first {b : Boot} (es : List Event) {i : ℕ} (hi : i < b.num)
    (hfirst : ∀ k < i, (b.data (100 * i)).type ≠ (b.data (100 * k)).type) :
    findType (b.after es).globals (b.data (100 * i)).type = some i := by
  rw [findType, List.find?_range_eq_some]
  simp only [row_after_type, beq_self_eq_true, num_after, List.mem_range, hi, true_and,
    Bool.not_eq_true', beq_eq_false_iff_ne]
  exact hfirst

theorem findType_after {b : Boot} (hb : b.DistinctTypes) (es : List Event) {i : ℕ} (hi : i < b.num) :
    findType (b.after es).globals (b.data (100 * i)).type = some i := by
  apply findType_first es hi
  intro k hk he
  have hik := hb i hi k (hk.trans hi) he
  omega

end EmbeddedOS.Hw3
