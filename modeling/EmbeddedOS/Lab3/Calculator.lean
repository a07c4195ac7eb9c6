import EmbeddedOS.Library.Bytes
import EmbeddedOS.Library.Expressions

/-!
The evaluator of `lab3.c`. Whether `char` has a sign is left to the compiler; a load past the end
of the array, and a division by zero, give no result.
-/

namespace EmbeddedOS.Lab3

open CText Expressions

def byte (c : Char) : Byte := c.toNat.toUInt8

def charInt (charSigned : Bool) (b : Byte) : ℤ := if charSigned then chr b else b.toNat

structure Number where
  num : ℤ
  oper : Byte

variable (charSigned : Bool)

def readNumber (ch : Text) (i_cal : ℕ) : Option (Number × ℕ) :=
  match ch[i_cal]?, ch[i_cal + 1]? with
  | some v, some o => some (⟨charInt charSigned v - 48, o⟩, i_cal + 2)
  | _, _ => none

def factors (ch : Text) : ℕ → Number → ℕ → Option (Number × ℕ)
  | 0, _, _ => none
  | rounds + 1, second, i_cal =>
    if second.oper = byte '*' ∨ second.oper = byte '/' then
      match readNumber charSigned ch i_cal with
      | none => none
      | some (third, i_cal) =>
        if second.oper = byte '*' then
          factors ch rounds ⟨int32 (second.num * third.num), third.oper⟩ i_cal
        else if third.num = 0 then none
        else factors ch rounds ⟨int32 (second.num.tdiv third.num), third.oper⟩ i_cal
    else some (second, i_cal)

def secondNumber (ch : Text) (rounds i_cal : ℕ) : Option (Number × ℕ) :=
  match readNumber charSigned ch i_cal with
  | none => none
  | some (second, i_cal) => factors charSigned ch rounds second i_cal

def addSecond (first second : Number) : ℤ :=
  if first.oper = byte '+' then int32 (first.num + second.num)
  else if first.oper = byte '-' then int32 (first.num - second.num)
  else first.num

/-- The outer loop. A round of either loop reads two characters, so `ch.length` rounds are enough. -/
def terms (ch : Text) : ℕ → Number → ℕ → Option (ℤ × ℕ)
  | 0, _, _ => none
  | rounds + 1, first, i_cal =>
    if first.oper = byte '=' then some (first.num, i_cal)
    else
      match secondNumber charSigned ch ch.length i_cal with
      | none => none
      | some (second, i_cal) => terms ch rounds ⟨addSecond first second, second.oper⟩ i_cal

def calculator (ch : Text) : Option (ℤ × ℕ) :=
  terms charSigned ch (ch.length + 1) ⟨0, byte '+'⟩ 0

def operatorChar : Operator → Byte
  | .plus => byte '+'
  | .minus => byte '-'
  | .times => byte '*'
  | .divide => byte '/'

def rowText (x : Byte) (row : List (Operator × Byte)) : Text :=
  x :: row.flatMap fun q => [operatorChar q.1, q.2]

def operandValue (x : Byte) : ℤ := charInt charSigned x - 48

theorem operandValue_isInt32 (x : Byte) : IsInt32 (operandValue charSigned x) := by
  have hx := x.toNat_lt
  unfold operandValue charInt chr IsInt32
  split_ifs <;> omega

theorem rowText_append (x : Byte) (row row' : List (Operator × Byte)) :
    rowText x (row ++ row') = rowText x row ++ row'.flatMap fun q => [operatorChar q.1, q.2] := by
  simp [rowText]

theorem rowText_length (x : Byte) (row : List (Operator × Byte)) : (rowText x row).length = 2 * row.length + 1 := by
  induction row using List.reverseRecOn with
  | nil => rfl
  | append_singleton row q ih =>
    rw [rowText_append, List.length_append, ih]
    simp
    omega

theorem readNumber_drop {ch : Text} {i_cal : ℕ} {v o : Byte} {tail : Text} (h : ch.drop i_cal = v :: o :: tail) :
    readNumber charSigned ch i_cal = some (⟨operandValue charSigned v, o⟩, i_cal + 2) ∧ ch.drop (i_cal + 2) = tail := by
  have hv : ch[i_cal]? = some v := by
    rw [← Nat.add_zero i_cal, ← List.getElem?_drop, h]
    rfl
  have ho : ch[i_cal + 1]? = some o := by
    rw [← List.getElem?_drop, h]
    rfl
  constructor
  · simp only [readNumber, hv, ho]
    rfl
  · rw [← List.drop_drop, h]
    rfl

theorem drop_behind {ch t : Text} {i_cal : ℕ} {o : Byte} {tail : Text} (h : ch.drop i_cal = t ++ o :: tail) :
    ch.drop (i_cal + t.length + 1) = tail := by
  rw [Nat.add_assoc, ← List.drop_drop, h, ← List.drop_drop, List.drop_left]
  rfl

theorem readNumber_behind {ch : Text} {i_cal : ℕ} {x y o : Byte} {row : List (Operator × Byte)} {op : Operator}
    {tail : Text} (h : ch.drop i_cal = rowText x (row ++ [(op, y)]) ++ o :: tail) :
    ch.drop i_cal = rowText x row ++ operatorChar op :: (y :: o :: tail) ∧
      readNumber charSigned ch (i_cal + (rowText x row).length + 1) =
        some (⟨operandValue charSigned y, o⟩, i_cal + (rowText x (row ++ [(op, y)])).length + 1) := by
  rw [rowText_append, List.append_assoc] at h
  obtain ⟨hread, -⟩ := readNumber_drop charSigned (drop_behind h)
  refine ⟨h, ?_⟩
  rw [hread, rowText_length, rowText_length, List.length_append, List.length_singleton, Nat.mul_add,
    Nat.add_right_comm _ _ 1]
  rfl

theorem snoc_rounds (row : List (Operator × Byte)) (q : Operator × Byte) (rounds : ℕ) :
    (row ++ [q]).length + rounds = row.length + (rounds + 1) := by
  rw [List.length_append, List.length_singleton]
  omega

theorem secondNumber_product (p : Product Byte) {ch : Text} {i_cal : ℕ} {o : Byte} {tail : Text}
    (h : ch.drop i_cal = rowText p.first p.rest ++ o :: tail) (rounds : ℕ) :
    secondNumber charSigned ch (p.rest.length + rounds) i_cal =
      (p.evaluate (operandValue charSigned) int32).bind fun n =>
        factors charSigned ch rounds ⟨n, o⟩ (i_cal + (rowText p.first p.rest).length + 1) := by
  induction p generalizing o tail rounds with
  | operand x =>
    have hread := (readNumber_drop charSigned h).1
    simp only [secondNumber, hread, Product.rest, List.length_nil, Nat.zero_add]
    rfl
  | times p x ih =>
    rw [Product.rest, Product.first] at h
    obtain ⟨hp, hread⟩ := readNumber_behind charSigned h
    rw [Product.rest, Product.first, snoc_rounds, ih hp (rounds + 1), Product.evaluate, Option.bind_map]
    congr 1
    funext n
    simp only [factors, operatorChar, hread, true_or, ↓reduceIte, Function.comp_apply]
  | divide p x ih =>
    rw [Product.rest, Product.first] at h
    obtain ⟨hp, hread⟩ := readNumber_behind charSigned h
    have hslash : byte '/' ≠ byte '*' := by decide
    rw [Product.rest, Product.first, snoc_rounds, ih hp (rounds + 1), Product.evaluate, Option.bind_assoc]
    congr 1
    funext n
    simp only [factors, operatorChar, hread, hslash, false_or, ↓reduceIte]
    split_ifs <;> rfl

theorem terms_product (p : Product Byte) {ch : Text} {i_cal : ℕ} {o : Byte} {tail : Text}
    (h : ch.drop i_cal = rowText p.first p.rest ++ o :: tail) (ho : o ≠ byte '*' ∧ o ≠ byte '/') {first : Number}
    (hfirst : first.oper ≠ byte '=') (rounds : ℕ) :
    terms charSigned ch (rounds + 1) first i_cal =
      (p.evaluate (operandValue charSigned) int32).bind fun n =>
        terms charSigned ch rounds ⟨addSecond first ⟨n, o⟩, o⟩ (i_cal + (rowText p.first p.rest).length + 1) := by
  have hlen : p.rest.length + (ch.length - p.rest.length - 1 + 1) = ch.length := by
    have hl := congrArg List.length h
    rw [List.length_drop, List.length_append, rowText_length, List.length_cons] at hl
    omega
  have hp := secondNumber_product charSigned p h (ch.length - p.rest.length - 1 + 1)
  rw [hlen] at hp
  rw [terms, if_neg hfirst, hp]
  cases p.evaluate (operandValue charSigned) int32 with
  | none => rfl
  | some n =>
    have hstop : ¬ (o = byte '*' ∨ o = byte '/') := not_or.mpr ho
    simp only [Option.bind_some, factors, hstop, ↓reduceIte]

theorem terms_sum (s : Sum Byte) {ch : Text} {i_cal : ℕ} {o : Byte} {tail : Text}
    (h : ch.drop i_cal = rowText s.first s.rest ++ o :: tail) (ho : o ≠ byte '*' ∧ o ≠ byte '/') (rounds : ℕ) :
    terms charSigned ch (s.size + rounds) ⟨0, byte '+'⟩ i_cal =
      (s.evaluate (operandValue charSigned) int32).bind fun n =>
        terms charSigned ch rounds ⟨n, o⟩ (i_cal + (rowText s.first s.rest).length + 1) := by
  have hplus : byte '+' ≠ byte '=' ∧ byte '+' ≠ byte '*' ∧ byte '+' ≠ byte '/' := by decide
  have hminus : byte '-' ≠ byte '=' ∧ byte '-' ≠ byte '*' ∧ byte '-' ≠ byte '/' := by decide
  have hsplit (s : Sum Byte) (op : Operator) (p : Product Byte) (t : Text) :
      rowText s.first (s.rest ++ (op, p.first) :: p.rest) ++ t =
        rowText s.first s.rest ++ operatorChar op :: (rowText p.first p.rest ++ t) := by
    simp [rowText]
  have hat (s : Sum Byte) (o : Operator) (p : Product Byte) :
      i_cal + (rowText s.first s.rest).length + 1 + (rowText p.first p.rest).length + 1 =
        i_cal + (rowText s.first (s.rest ++ (o, p.first) :: p.rest)).length + 1 := by
    simp only [rowText_length, List.length_append, List.length_cons]
    omega
  induction s generalizing o tail rounds with
  | product p =>
    rw [Sum.size, Nat.add_comm, terms_product charSigned p h ho hplus.1, Sum.evaluate]
    cases hn : p.evaluate (operandValue charSigned) int32 with
    | none => rfl
    | some n =>
      have hint : IsInt32 n := Product.evaluate_mem (operandValue_isInt32 charSigned) int32_isInt32 hn
      have hsum : addSecond ⟨0, byte '+'⟩ ⟨n, o⟩ = n := by
        rw [addSecond, if_pos rfl, zero_add, int32_of_isInt32 hint]
      rw [Option.bind_some, Option.bind_some, hsum]
      rfl
  | plus s p ih =>
    have hrow := h.trans (hsplit s .plus p (o :: tail))
    have hs := ih hrow hplus.2 (rounds + 1)
    rw [Sum.size, Nat.add_assoc, Nat.add_comm 1 rounds, hs, Sum.evaluate, Option.bind_assoc]
    congr 1
    funext m
    rw [terms_product charSigned p (drop_behind hrow) ho hplus.1, Option.bind_map, hat s .plus]
    rfl
  | minus s p ih =>
    have hrow := h.trans (hsplit s .minus p (o :: tail))
    have hs := ih hrow hminus.2 (rounds + 1)
    rw [Sum.size, Nat.add_assoc, Nat.add_comm 1 rounds, hs, Sum.evaluate, Option.bind_assoc]
    congr 1
    funext m
    rw [terms_product charSigned p (drop_behind hrow) ho hminus.1, Option.bind_map, hat s .minus]
    rfl

theorem calculator_sum (s : Sum Byte) (behind : Text) :
    calculator charSigned (rowText s.first s.rest ++ byte '=' :: behind) =
      (s.evaluate (operandValue charSigned) int32).map fun n => (n, 2 * (s.rest.length + 1)) := by
  have hrounds : (rowText s.first s.rest ++ byte '=' :: behind).length + 1 =
      s.size + (2 * s.rest.length + 2 + behind.length - s.size + 1) := by
    have hsize := s.size_le
    rw [List.length_append, rowText_length, List.length_cons]
    omega
  have hstart : (rowText s.first s.rest ++ byte '=' :: behind).drop 0 =
      rowText s.first s.rest ++ byte '=' :: behind := rfl
  rw [calculator, hrounds, terms_sum charSigned s hstart (by decide)]
  cases s.evaluate (operandValue charSigned) int32 with
  | none => rfl
  | some n =>
    have hread : 0 + (rowText s.first s.rest).length + 1 = 2 * (s.rest.length + 1) := by
      rw [rowText_length]
      omega
    rw [Option.bind_some, terms, if_pos rfl, hread]
    rfl

theorem calculator_value (charSigned : Bool) (x : Byte) (row : List (Operator × Byte)) (behind : Text)
    (hdivisors : (parse x row).Defined (operandValue charSigned))
    (hfits : (parse x row).Within (operandValue charSigned) IsInt32) :
    (∀ s : Sum Byte, s.first = x ∧ s.rest = row ↔ s = parse x row) ∧
      calculator charSigned (rowText x row ++ byte '=' :: behind) =
        some ((parse x row).value (operandValue charSigned), 2 * (row.length + 1)) := by
  obtain ⟨hfirst, hrest⟩ := parse_row x row
  constructor
  · intro s
    constructor
    · rintro ⟨rfl, rfl⟩
      exact (parse_eq s).symm
    · rintro rfl
      exact ⟨hfirst, hrest⟩
  · have hcalc := calculator_sum charSigned (parse x row) behind
    rwa [hfirst, hrest, Sum.evaluate_exact (fun n => int32_of_isInt32) hdivisors hfits] at hcalc

theorem calculator_value_mixed :
    calculator true (rowText (byte '8') [(.minus, byte '9'), (.divide, byte '2'), (.times, byte '3')] ++
      byte '=' :: []) = some (-4, 8) :=
  (calculator_value true (byte '8') [(.minus, byte '9'), (.divide, byte '2'), (.times, byte '3')] []
    (by decide) (by decide)).2

end EmbeddedOS.Lab3
