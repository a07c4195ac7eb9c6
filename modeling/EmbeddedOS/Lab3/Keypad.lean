import EmbeddedOS.Library.Scanning
import EmbeddedOS.Lab3.Calculator

/-!
The keypad loop of `lab3.c`. A store past the end of an array gives no result, as does what
`calculator` gives none for.
-/

namespace EmbeddedOS.Lab3

open CText Expressions

def change_operator (keyin : Byte) : Byte :=
  if keyin = byte 'A' then byte '+'
  else if keyin = byte 'B' then byte '-'
  else if keyin = byte 'C' then byte '*'
  else if keyin = byte 'D' then byte '/'
  else if keyin = byte '*' then byte 'C'
  else if keyin = byte '#' then byte '='
  else keyin

structure Pad where
  c : Vector Byte 20
  c_new : Vector Byte 20
  index_c : ℕ
  ans : ℤ

def store (ch : Vector Byte 20) (i : ℕ) (b : Byte) : Option (Vector Byte 20) :=
  if h : i < 20 then some (ch.set i b) else none

structure Tokens where
  i_new : ℕ
  tmp : ℤ
  c_new : Vector Byte 20

variable (charSigned : Bool)

def convertChar (t : Tokens) (b : Byte) : Option Tokens :=
  if b ≠ byte '+' ∧ b ≠ byte '-' ∧ b ≠ byte '*' ∧ b ≠ byte '/' ∧ b ≠ byte '=' then
    some { t with tmp := int32 (int32 (t.tmp * 10) + (charInt charSigned b - 48)) }
  else
    match store t.c_new t.i_new (UInt8.ofInt (int32 (t.tmp + 48))) with
    | none => none
    | some c_new => (store c_new (t.i_new + 1) b).map fun c_new => ⟨t.i_new + 2, 0, c_new⟩

def convert (p : Pad) : Option Tokens :=
  (p.c.toList.take p.index_c).foldlM (convertChar charSigned) ⟨0, 0, p.c_new⟩

def press (p : Pad) (key : Byte) : Option Pad :=
  match store p.c p.index_c (change_operator key) with
  | none => none
  | some c =>
    let p : Pad := { p with c := c, index_c := p.index_c + 1 }
    if key = byte '#' then
      match convert charSigned p with
      | none => none
      | some t => (calculator charSigned t.c_new.toList).map fun r => { p with c_new := t.c_new, ans := r.1 }
    else if key = byte '*' then some { p with index_c := 0 }
    else some p

def enter (p : Pad) (keys : List Byte) : Option Pad := keys.foldlM (press charSigned) p

def Pad.cleared (p : Pad) : Pad := { p with index_c := 0 }

def operatorKey : Operator → Byte
  | .plus => byte 'A'
  | .minus => byte 'B'
  | .times => byte 'C'
  | .divide => byte 'D'

def IsOperand (w : Text) : Prop := w ≠ [] ∧ ∀ b ∈ w, isdigit b = true

instance (w : Text) : Decidable (IsOperand w) :=
  decidable_of_iff (w ≠ [] ∧ w.all isdigit = true) (and_congr_right' List.all_eq_true)

def keysOf (s : Sum Text) : List Byte :=
  s.first ++ (s.rest.flatMap fun q => operatorKey q.1 :: q.2) ++ [byte '#']

def carried (n : ℤ) : ℤ := charInt charSigned (UInt8.ofInt (n + 48)) - 48

def largestOperand : ℤ := if charSigned then 79 else 207

theorem carried_eq_iff {n : ℤ} (h : 0 ≤ n) : carried charSigned n = n ↔ n ≤ largestOperand charSigned := by
  have hb : (UInt8.ofInt (n + 48)).toNat = ((n + 48) % 256).toNat := by
    simp only [UInt8.ofInt, UInt8.toNat_ofNat']
    omega
  unfold carried charInt chr largestOperand
  rw [hb]
  split_ifs <;> omega

theorem ofInt_int32 (n : ℤ) : UInt8.ofInt (int32 (int32 n + 48)) = UInt8.ofInt (n + 48) := by
  have hmod : int32 (int32 n + 48) % 2 ^ 8 = (n + 48) % 2 ^ 8 := by
    unfold int32
    rw [Int.bmod_add_bmod]
    have h := Int.bmod_emod (x := n + 48) (m := 2 ^ 32)
    omega
  rw [UInt8.ofInt, hmod]
  rfl

def Begins (ch : Vector Byte 20) (i : ℕ) (t : Text) : Prop := i = t.length ∧ t <+: ch.toList

theorem store_begins {ch : Vector Byte 20} {i : ℕ} {t : Text} (h : Begins ch i t) (hroom : t.length < 20) (b : Byte) :
    ∃ ch', store ch i b = some ch' ∧ Begins ch' (i + 1) (t ++ [b]) := by
  obtain ⟨rfl, tail, ht⟩ := h
  have hlen := congrArg List.length ht
  rw [List.length_append, Vector.length_toList] at hlen
  obtain ⟨x, tail, rfl⟩ : ∃ x tail', tail = x :: tail' := List.exists_cons_of_length_pos (by omega)
  refine ⟨ch.set t.length b, dif_pos hroom, by simp, tail, ?_⟩
  rw [Vector.toList_set, ← ht, List.set_append_right _ _ le_rfl]
  simp

theorem press_begins {p : Pad} {t : Text} (h : Begins p.c p.index_c t) (hroom : t.length < 20) {key : Byte}
    (hkey : key ≠ byte '#' ∧ key ≠ byte '*') :
    ∃ p', press charSigned p key = some p' ∧ Begins p'.c p'.index_c (t ++ [change_operator key]) := by
  obtain ⟨c, hc, hbegins⟩ := store_begins h hroom (change_operator key)
  refine ⟨{ p with c := c, index_c := p.index_c + 1 }, ?_, hbegins⟩
  simp only [press, hc, if_neg hkey.1, if_neg hkey.2]

theorem enter_begins {keys : List Byte} (hkeys : ∀ key ∈ keys, key ≠ byte '#' ∧ key ≠ byte '*')
    {p : Pad} {t : Text} (h : Begins p.c p.index_c t) (hroom : t.length + keys.length ≤ 20) :
    ∃ p', enter charSigned p keys = some p' ∧ Begins p'.c p'.index_c (t ++ keys.map change_operator) := by
  induction keys generalizing p t with
  | nil => exact ⟨p, rfl, by simpa using h⟩
  | cons key keys ih =>
    rw [List.length_cons] at hroom
    obtain ⟨p₁, hpress, h₁⟩ := press_begins charSigned h (by omega) (hkeys key (by simp))
    obtain ⟨p₂, henter, h₂⟩ := ih (fun k hk => hkeys k (by simp [hk])) h₁ (by simp; omega)
    refine ⟨p₂, ?_, by simpa using h₂⟩
    rw [enter, List.foldlM_cons, hpress]
    exact henter

theorem charInt_digit {b : Byte} (h : isdigit b = true) : charInt charSigned b = b.toNat := by
  unfold charInt
  rw [chr_isdigit h, ite_self]

theorem digit_ne {b o : Byte} (h : isdigit b = true) (ho : isdigit o = false) : b ≠ o := by
  rintro rfl
  rw [h] at ho
  cases ho

theorem convertChar_digit {i_new : ℕ} {ch : Vector Byte 20} {b : Byte} (h : isdigit b = true) (v : ℕ) :
    convertChar charSigned ⟨i_new, int32 v, ch⟩ b = some ⟨i_new, int32 ↑(10 * v + (b.toNat - 48)), ch⟩ := by
  have hb := (isdigit_iff b).mp h
  have hno : ∀ o : Byte, isdigit o = false → b ≠ o := fun o => digit_ne h
  rw [convertChar, if_pos ⟨hno _ rfl, hno _ rfl, hno _ rfl, hno _ rfl, hno _ rfl⟩, charInt_digit charSigned h]
  have htmp : int32 (int32 (int32 v * 10) + (b.toNat - 48)) = int32 ↑(10 * v + (b.toNat - 48)) := by
    unfold int32
    rw [Int.bmod_mul_bmod, Int.bmod_add_bmod]
    congr 1
    omega
  rw [htmp]

theorem convert_digits {w : Text} (h : ∀ b ∈ w, isdigit b = true) (i_new : ℕ) (ch : Vector Byte 20) (v : ℕ) :
    w.foldlM (convertChar charSigned) ⟨i_new, int32 v, ch⟩ =
      some ⟨i_new, int32 ↑(w.foldl (fun v b => 10 * v + (b.toNat - 48)) v), ch⟩ := by
  induction w generalizing v with
  | nil => rfl
  | cons b w ih =>
    rw [List.foldlM_cons, convertChar_digit charSigned (h b (by simp))]
    exact ih (fun x hx => h x (by simp [hx])) _

def IsOperator (o : Byte) : Prop :=
  o = byte '+' ∨ o = byte '-' ∨ o = byte '*' ∨ o = byte '/' ∨ o = byte '='

def storedAs (w : Text) : Byte := UInt8.ofInt (digitsValue w + 48)

theorem convert_operand {w : Text} (hw : ∀ b ∈ w, isdigit b = true) {o : Byte} (ho : IsOperator o) {i_new : ℕ}
    {ch : Vector Byte 20} {t : Text} (h : Begins ch i_new t) (hroom : t.length + 2 ≤ 20) :
    ∃ ch', (w ++ [o]).foldlM (convertChar charSigned) ⟨i_new, 0, ch⟩ = some ⟨i_new + 2, 0, ch'⟩ ∧
      Begins ch' (i_new + 2) (t ++ [storedAs w, o]) := by
  obtain ⟨ch₁, hs₁, h₁⟩ := store_begins h (by omega) (storedAs w)
  obtain ⟨ch₂, hs₂, h₂⟩ := store_begins h₁ (by simp; omega) o
  refine ⟨ch₂, ?_, by simpa using h₂⟩
  have hno : ¬ (o ≠ byte '+' ∧ o ≠ byte '-' ∧ o ≠ byte '*' ∧ o ≠ byte '/' ∧ o ≠ byte '=') := by
    unfold IsOperator at ho
    tauto
  have hdigits := convert_digits charSigned hw i_new ch 0
  rw [List.foldlM_append]
  change (w.foldlM (convertChar charSigned) ⟨i_new, int32 (0 : ℕ), ch⟩ >>= _) = _
  rw [hdigits]
  change convertChar charSigned ⟨i_new, int32 (digitsValue w), ch⟩ o >>= _ = _
  rw [convertChar, if_neg hno, ofInt_int32]
  change ((match store ch i_new (storedAs w) with
    | none => none
    | some c_new => (store c_new (i_new + 1) o).map fun c_new => ⟨i_new + 2, 0, c_new⟩ : Option Tokens) >>= _) = _
  simp [hs₁, hs₂]

theorem operatorChar_isOperator (o : Operator) : IsOperator (operatorChar o) := by
  cases o <;> simp [operatorChar, IsOperator]

theorem convert_row {rest : List (Operator × Text)} {w : Text} (hw : ∀ b ∈ w, isdigit b = true)
    (hrest : ∀ q ∈ rest, ∀ b ∈ q.2, isdigit b = true) {i_new : ℕ} {ch : Vector Byte 20} {t : Text}
    (h : Begins ch i_new t) (hroom : t.length + 2 * (rest.length + 1) ≤ 20) :
    ∃ i ch', (w ++ ((rest.flatMap fun q => operatorChar q.1 :: q.2) ++ [byte '='])).foldlM (convertChar charSigned)
        ⟨i_new, 0, ch⟩ = some ⟨i, 0, ch'⟩ ∧
      Begins ch' i (t ++ (rowText (storedAs w) (rest.map fun q => (q.1, storedAs q.2)) ++ [byte '='])) := by
  induction rest generalizing w i_new ch t with
  | nil =>
    have hequals : IsOperator (byte '=') := by simp [IsOperator]
    obtain ⟨ch', hconvert, h'⟩ := convert_operand charSigned hw hequals h hroom
    exact ⟨i_new + 2, ch', hconvert, h'⟩
  | cons q rest ih =>
    rw [List.length_cons] at hroom
    obtain ⟨ch₁, hconvert, h₁⟩ := convert_operand charSigned hw (operatorChar_isOperator q.1) h (by omega)
    obtain ⟨i, ch', hrow, h'⟩ := ih (hrest q (by simp)) (fun r hr => hrest r (by simp [hr])) h₁ (by simp; omega)
    refine ⟨i, ch', ?_, by simpa [rowText] using h'⟩
    have hsplit : w ++ (((q :: rest).flatMap fun q => operatorChar q.1 :: q.2) ++ [byte '=']) =
        (w ++ [operatorChar q.1]) ++ (q.2 ++ ((rest.flatMap fun q => operatorChar q.1 :: q.2) ++ [byte '='])) := by
      simp
    rw [hsplit, List.foldlM_append, hconvert]
    exact hrow

theorem change_operator_digit {b : Byte} (h : isdigit b = true) : change_operator b = b := by
  have hno : ∀ o : Byte, isdigit o = false → b ≠ o := fun o => digit_ne h
  rw [change_operator, if_neg (hno _ rfl), if_neg (hno _ rfl), if_neg (hno _ rfl), if_neg (hno _ rfl),
    if_neg (hno _ rfl), if_neg (hno _ rfl)]

theorem change_operator_key (o : Operator) : change_operator (operatorKey o) = operatorChar o := by
  cases o <;> decide

def rowKeys (s : Sum Text) : List Byte := s.first ++ s.rest.flatMap fun q => operatorKey q.1 :: q.2

theorem keysOf_eq (s : Sum Text) : keysOf s = rowKeys s ++ [byte '#'] := rfl

theorem row_changed {w : Text} (hw : ∀ b ∈ w, isdigit b = true) {rest : List (Operator × Text)}
    (hrest : ∀ q ∈ rest, ∀ b ∈ q.2, isdigit b = true) :
    (w ++ rest.flatMap fun q => operatorKey q.1 :: q.2).map change_operator =
      w ++ rest.flatMap fun q => operatorChar q.1 :: q.2 := by
  have hsame {w : Text} (hw : ∀ b ∈ w, isdigit b = true) : w.map change_operator = w := by
    rw [List.map_congr_left fun b hb => change_operator_digit (hw b hb), List.map_id']
  rw [List.map_append, hsame hw, List.map_flatMap]
  congr 1
  apply List.flatMap_congr
  intro q hq
  rw [List.map_cons, change_operator_key, hsame (hrest q hq)]

section Operands

variable {s : Sum Text} (hs : ∀ w ∈ s.operands, IsOperand w)

include hs

theorem rest_isOperand : ∀ q ∈ s.rest, IsOperand q.2 := by
  intro q hq
  apply hs
  exact List.mem_cons_of_mem _ (List.mem_map_of_mem hq)

theorem rowKeys_changed :
    (rowKeys s).map change_operator = s.first ++ s.rest.flatMap fun q => operatorChar q.1 :: q.2 :=
  row_changed (hs _ (List.mem_cons_self ..)).2 fun q hq => (rest_isOperand hs q hq).2

theorem rowKeys_ordinary : ∀ key ∈ rowKeys s, key ≠ byte '#' ∧ key ≠ byte '*' := by
  have hdigit {b : Byte} (hb : isdigit b = true) : b ≠ byte '#' ∧ b ≠ byte '*' :=
    ⟨digit_ne hb (by decide), digit_ne hb (by decide)⟩
  intro key hkey
  rcases List.mem_append.mp hkey with hkey | hkey
  · exact hdigit ((hs _ (List.mem_cons_self ..)).2 key hkey)
  · obtain ⟨q, hq, hkey⟩ := List.mem_flatMap.mp hkey
    rcases List.mem_cons.mp hkey with rfl | hkey
    · cases q.1 <;> decide
    · exact hdigit ((rest_isOperand hs q hq).2 key hkey)

theorem rowKeys_length : 2 * (s.rest.length + 1) ≤ (rowKeys s).length + 1 := by
  have hfirst : 1 ≤ s.first.length := List.length_pos_iff.mpr (hs _ (List.mem_cons_self ..)).1
  have hrest := rest_isOperand hs
  have hflat : ∀ rest : List (Operator × Text), (∀ q ∈ rest, IsOperand q.2) →
      2 * rest.length ≤ (rest.flatMap fun q => operatorKey q.1 :: q.2).length := by
    intro rest hrest
    induction rest with
    | nil => exact Nat.zero_le _
    | cons q rest ih =>
      have hq : 1 ≤ q.2.length := List.length_pos_iff.mpr (hrest q (by simp)).1
      have hrest' := ih fun r hr => hrest r (by simp [hr])
      simp only [List.flatMap_cons, List.length_append, List.length_cons]
      omega
  have hrow := hflat s.rest hrest
  rw [rowKeys, List.length_append]
  omega

theorem enter_keys (hkeys : (keysOf s).length ≤ 20) (p : Pad) :
    (enter charSigned p.cleared (keysOf s)).map Pad.ans =
      s.evaluate (fun w => carried charSigned (digitsValue w)) int32 := by
  rw [keysOf_eq, List.length_append, List.length_singleton] at hkeys
  have hstart : Begins p.cleared.c p.cleared.index_c [] := ⟨rfl, List.nil_prefix⟩
  obtain ⟨p₁, henter, h₁⟩ := enter_begins charSigned (rowKeys_ordinary hs) hstart (by simp; omega)
  obtain ⟨c, hstore, hc⟩ := store_begins h₁ (by simp; omega) (byte '=')
  have hread : c.toList.take (p₁.index_c + 1) =
      s.first ++ ((s.rest.flatMap fun q => operatorChar q.1 :: q.2) ++ [byte '=']) := by
    rw [hc.1, ← List.prefix_iff_eq_take.mp hc.2, List.nil_append, rowKeys_changed hs, List.append_assoc]
  have hempty : Begins p₁.c_new 0 [] := ⟨rfl, List.nil_prefix⟩
  obtain ⟨i, ch, hrow, hch⟩ := convert_row charSigned (hs _ (List.mem_cons_self ..)).2
    (fun q hq => (rest_isOperand hs q hq).2) hempty (by simpa using (rowKeys_length hs).trans hkeys)
  obtain ⟨behind, hbehind⟩ := hch.2
  have hcalc := calculator_sum charSigned (s.map storedAs) behind
  rw [(s.map_row storedAs).1, (s.map_row storedAs).2, Sum.evaluate_map] at hcalc
  have hlist : ch.toList =
      rowText (storedAs s.first) (s.rest.map fun q => (q.1, storedAs q.2)) ++ byte '=' :: behind := by
    rw [← hbehind]
    simp
  have hpress : (press charSigned p₁ (byte '#')).map Pad.ans = (calculator charSigned ch.toList).map Prod.fst := by
    have hequals : change_operator (byte '#') = byte '=' := by decide
    simp only [press, convert, hequals, hstore, ↓reduceIte, hread, hrow, Option.map_map]
    rfl
  calc (enter charSigned p.cleared (keysOf s)).map Pad.ans
      = (press charSigned p₁ (byte '#')).map Pad.ans := by
        rw [enter] at henter
        rw [keysOf_eq, enter, List.foldlM_append, henter]
        simp
    _ = s.evaluate (fun w => operandValue charSigned (storedAs w)) int32 := by
        rw [hpress, hlist, hcalc, Option.map_map]
        exact Option.map_id'
    _ = s.evaluate (fun w => carried charSigned (digitsValue w)) int32 := rfl

end Operands

def Computes (charSigned : Bool) (s : Sum Text) : Prop :=
  ∀ p : Pad, (enter charSigned p.cleared (keysOf s)).map Pad.ans = some (s.value fun w => digitsValue w)

theorem keypad_value (charSigned : Bool) (s : Sum Text) (hs : ∀ w ∈ s.operands, IsOperand w)
    (hkeys : (keysOf s).length ≤ 20) (hdivisors : s.Defined fun w => digitsValue w)
    (hfits : s.Within (fun w => digitsValue w) IsInt32) :
    (Computes charSigned s ↔
        s.evaluate (fun w => carried charSigned (digitsValue w)) int32 = some (s.value fun w => digitsValue w)) ∧
      ((∀ w ∈ s.operands, digitsValue w ≤ largestOperand charSigned) → Computes charSigned s) := by
  have hiff : Computes charSigned s ↔
      s.evaluate (fun w => carried charSigned (digitsValue w)) int32 = some (s.value fun w => digitsValue w) := by
    constructor
    · intro h
      have hp := h ⟨Vector.replicate 20 0, Vector.replicate 20 0, 0, 0⟩
      rwa [enter_keys charSigned hs hkeys] at hp
    · intro h p
      rw [enter_keys charSigned hs hkeys, h]
  refine ⟨hiff, fun hsmall => hiff.mpr ?_⟩
  have hcarried : ∀ w ∈ s.operands, carried charSigned (digitsValue w) = digitsValue w :=
    fun w hw => (carried_eq_iff charSigned (by omega)).mpr (hsmall w hw)
  rw [Sum.evaluate_congr int32 hcarried]
  exact Sum.evaluate_exact (fun n => int32_of_isInt32) hdivisors hfits

theorem keypad_value_small : Computes true (parse (lit "12") [(.times, lit "3"), (.minus, lit "70")]) :=
  (keypad_value true (parse (lit "12") [(.times, lit "3"), (.minus, lit "70")]) (by decide) (by decide) (by decide)
    (by
      have h : digitsValue (lit "12") = 12 ∧ digitsValue (lit "3") = 3 ∧ digitsValue (lit "70") = 70 := by decide
      simp [parse, Sum.push, Sum.Within, Product.Within, Product.value, Sum.value, IsInt32, h])).2 (by decide)

def threeHundred : Sum Text := .product (.operand (lit "300"))

def clearPad : Pad := Pad.cleared ⟨Vector.replicate 20 0, Vector.replicate 20 0, 0, 0⟩

theorem threeHundred_answer (charSigned : Bool) :
    (enter charSigned clearPad (keysOf threeHundred)).map Pad.ans = some 44 := by
  have hoperand : ∀ w ∈ threeHundred.operands, IsOperand w := by decide
  have hcarried : threeHundred.evaluate (fun w => carried charSigned (digitsValue w)) int32 = some 44 := by
    cases charSigned <;> decide
  rw [clearPad, enter_keys charSigned hoperand (by decide), hcarried]

theorem not_computes_threeHundred (charSigned : Bool) : ¬ Computes charSigned threeHundred := by
  intro h
  have hvalue := h ⟨Vector.replicate 20 0, Vector.replicate 20 0, 0, 0⟩
  rw [← clearPad, threeHundred_answer] at hvalue
  exact absurd hvalue (by decide)

theorem keypad_value_fails :
    ((enter true clearPad (keysOf threeHundred)).map Pad.ans = some 44 ∧ ¬ Computes true threeHundred) ∧
      (enter false clearPad (keysOf threeHundred)).map Pad.ans = some 44 ∧ ¬ Computes false threeHundred :=
  ⟨⟨threeHundred_answer true, not_computes_threeHundred true⟩,
    threeHundred_answer false, not_computes_threeHundred false⟩

end EmbeddedOS.Lab3
