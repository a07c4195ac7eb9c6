import EmbeddedOS.Board.Lights
import EmbeddedOS.Lab3.Led

/-!
What an answer looks like on the board. `lab3.c` prints it on the digits of the seven segment driver and on its LEDs;
other programs may use the keypad and the EEPROM meanwhile.
-/

namespace EmbeddedOS.Lab3

open CText Board Runs

def hexValue (t : Text) : ℕ := t.foldl (fun v b => 16 * v + (b.toNat - 48)) 0

def LONG_MAX : ℕ := 0x7fffffff

/-- `hex` has ten characters: a longer text with its NUL does not fit. -/
def print_positive (n : ℤ) : Option (List LightCall) :=
  let hex := decimal n
  if 10 ≤ hex.length then none else some [.seg_set ⟨1, 15, BitVec.ofNat 32 (min (hexValue hex) LONG_MAX)⟩]

def countDigits : ℕ → ℕ → ℕ
  | 0, _ => 0
  | rounds + 1, n_abs => if n_abs = 0 then 0 else countDigits rounds (n_abs / 10) + 1

def segPattern (which : BitVec 8) (value : ℕ) : LightCall := .seg_set ⟨0, which, BitVec.ofNat 32 value⟩

def segHex (which : BitVec 8) (value : ℕ) : LightCall := .seg_set ⟨1, which, BitVec.ofNat 32 value⟩

def print_negative (n : ℤ) : List LightCall :=
  let a := n.natAbs
  match countDigits 32 a with
  | 1 => [segPattern 8 0, segPattern 4 0, segHex 1 a, segPattern 2 0x40]
  | 2 => [segPattern 8 0, segHex 2 (a / 10), segHex 1 (a % 10), segPattern 4 0x40]
  | 3 => [segHex 4 (a / 100), segHex 2 (a / 10 % 10), segHex 1 (a % 100 % 10), segPattern 8 0x40]
  | _ => []

def LedCall.call : LedCall → LightCall
  | .bit_set led => .led .bit_set (BitVec.ofNat 16 led)
  | .bit_clear led => .led .bit_clear (BitVec.ofNat 16 led)

/-- What `main` does with an answer after the LCD. -/
def print_answer (ans : ℤ) : Option (List LightCall) :=
  match if ans ≥ 0 then print_positive ans else some (print_negative ans), print_led ans with
  | some seg, some led => some (seg ++ led.map LedCall.call)
  | _, _ => none

def minus : BitVec 8 := 0x40

/-- A positive answer has its last four digits, from `80000000` on `FFFF`; a negative one of more than three digits
leaves what was there. -/
def shownAnswer (n : ℤ) (digits : Fin 4 → BitVec 8) : Fin 4 → BitVec 8 :=
  let a := n.natAbs
  if 80000000 ≤ n then fun _ => hexGlyph 15
  else if 0 ≤ n then fun i => hexGlyph (a / 10 ^ (3 - i.val) % 10)
  else if a < 10 then ![0, 0, minus, hexGlyph a]
  else if a < 100 then ![0, minus, hexGlyph (a / 10), hexGlyph (a % 10)]
  else if a < 1000 then ![minus, hexGlyph (a / 100), hexGlyph (a / 10 % 10), hexGlyph (a % 10)]
  else digits

theorem digitChar_value {d : ℕ} (h : d < 10) : d.digitChar.toNat.toUInt8.toNat - 48 = d := by
  interval_cases d <;> rfl

theorem hexValue_of_lt {n : ℕ} (h : n < 10) : hexValue (digits n) = n := by
  rw [digits, Nat.toDigits_of_lt_base h]
  simp only [hexValue, List.map_cons, List.map_nil, List.foldl_cons, List.foldl_nil, digitChar_value h]
  omega

theorem hexValue_of_le {n : ℕ} (h : 10 ≤ n) : hexValue (digits n) = 16 * hexValue (digits (n / 10)) + n % 10 := by
  rw [digits, Nat.toDigits_of_base_le (by norm_num) h, List.map_append, hexValue, List.foldl_append]
  simp only [List.map_cons, List.map_nil, List.foldl_cons, List.foldl_nil]
  rw [digitChar_value (Nat.mod_lt n (by norm_num))]
  rfl

theorem hexValue_step (n : ℕ) :
    hexValue (digits n) / 16 = hexValue (digits (n / 10)) ∧ hexValue (digits n) % 16 = n % 10 := by
  rcases Nat.lt_or_ge n 10 with hlt | hge
  · have hzero : n / 10 = 0 := by omega
    rw [hexValue_of_lt hlt, hzero, hexValue_of_lt (by norm_num)]
    omega
  · rw [hexValue_of_le hge]
    omega

theorem hexValue_nibble (n k : ℕ) : hexValue (digits n) / 16 ^ k % 16 = n / 10 ^ k % 10 := by
  induction k generalizing n with
  | zero => simpa using (hexValue_step n).2
  | succ k ih => rw [pow_succ', pow_succ', ← Nat.div_div_eq_div_mul, ← Nat.div_div_eq_div_mul, (hexValue_step n).1, ih]

theorem le_hexValue (n : ℕ) : n ≤ hexValue (digits n) := by
  induction n using Nat.strong_induction_on with
  | h n ih =>
    rcases Nat.lt_or_ge n 10 with hlt | hge
    · exact (hexValue_of_lt hlt).ge
    · have hdiv := ih (n / 10) (by omega)
      rw [hexValue_of_le hge]
      omega

theorem hexValue_lt_iff {m : ℕ} (hm : m ≤ 10) (n k : ℕ) :
    hexValue (digits n) < m * 16 ^ k ↔ n < m * 10 ^ k := by
  induction k generalizing n with
  | zero =>
    rcases Nat.lt_or_ge n 10 with hlt | hge
    · rw [hexValue_of_lt hlt, pow_zero, pow_zero]
    · have hle := le_hexValue n
      rw [pow_zero, pow_zero]
      omega
  | succ k ih =>
    have hsixteen : hexValue (digits n) < m * 16 ^ k * 16 ↔ hexValue (digits n) / 16 < m * 16 ^ k :=
      (Nat.div_lt_iff_lt_mul (by norm_num)).symm
    have hten : n < m * 10 ^ k * 10 ↔ n / 10 < m * 10 ^ k := (Nat.div_lt_iff_lt_mul (by norm_num)).symm
    rw [pow_succ, pow_succ, ← mul_assoc, ← mul_assoc, hsixteen, hten, (hexValue_step n).1, ih]

def writes : LightCall → Bool
  | .scan => false
  | .irq => false
  | .ee _ => false
  | _ => true

def written (t : Lamps) : (Fin 4 → BitVec 8) × Finset (Fin 8) × Bool := (t.digits, t.leds, t.running)

theorem written_other (t : Lamps) {e : LightCall} (he : writes e = false) : written (lamps.step t e).1 = written t := by
  cases e <;> try cases he
  · rfl
  · simp only [lamps]
    split_ifs <;> rfl
  · rfl

theorem written_step {t u : Lamps} (h : written t = written u) (e : LightCall) :
    written (lamps.step t e).1 = written (lamps.step u e).1 := by
  simp only [written, Prod.mk.injEq] at h
  obtain ⟨hdigits, hleds, hrunning⟩ := h
  cases e with
  | led cmd led =>
    cases cmd with
    | set => simp [lamps, written, Lamps.light, hdigits, hrunning]
    | bit_set =>
      simp only [lamps]
      split_ifs <;> simp [written, Lamps.light, hdigits, hleds, hrunning]
    | bit_clear =>
      simp only [lamps]
      split_ifs <;> simp [written, Lamps.light, hdigits, hleds, hrunning]
  | seg_on => simp [lamps, written, hdigits, hleds]
  | seg_off => simp [lamps, written, hdigits, hleds]
  | seg_set info =>
    simp only [lamps, Lamps.put]
    split_ifs <;> simp [written, hdigits, hleds, hrunning]
  | scan => simp [lamps, written, hdigits, hleds, hrunning]
  | irq =>
    simp only [lamps]
    split_ifs <;> simp [written, hdigits, hleds, hrunning]
  | ee e => simp [lamps, written, hdigits, hleds, hrunning]

theorem written_run {t u : Lamps} (h : written t = written u) (fs : List LightCall) :
    written (lamps.run t fs) = written (lamps.run u (fs.filter writes)) := by
  induction fs generalizing t u with
  | nil => exact h
  | cons e fs ih =>
    cases he : writes e with
    | false =>
      rw [List.filter_cons_of_neg (by simp [he])]
      exact ih ((written_other t he).trans h)
    | true =>
      rw [List.filter_cons_of_pos he]
      exact ih (written_step h e)

def index : Fin 4 → BitVec 8 := ![8, 4, 2, 1]

theorem arrange_index (piece : ℕ → BitVec 8) (i : Fin 4) (d : Fin 4 → BitVec 8) :
    arrange piece (index i) d = Function.update d i (piece 0) := by
  funext j
  fin_cases i <;> fin_cases j <;> rfl

theorem arrange_all (piece : ℕ → BitVec 8) (d : Fin 4 → BitVec 8) : arrange piece 15 d = fun i => piece (3 - i.val) := by
  funext j
  fin_cases j <;> rfl

theorem step_hex (t : Lamps) (i : Fin 4) {v : ℕ} (hv : v < 16) :
    (lamps.step t (segHex (index i) v)).1 = { t with digits := Function.update t.digits i (hexGlyph v) } := by
  have hpiece : hexPiece (BitVec.ofNat 32 v) 0 = hexGlyph v := by
    rw [hexPiece, BitVec.toNat_ofNat, pow_zero, Nat.div_one, Nat.mod_eq_of_lt (by omega : v < 2 ^ 32),
      Nat.mod_eq_of_lt hv]
  simp only [segHex, lamps, Lamps.put, arrange_index, hpiece]
  rfl

theorem step_pattern (t : Lamps) (i : Fin 4) (v : ℕ) :
    (lamps.step t (segPattern (index i) v)).1 =
      { t with digits := Function.update t.digits i (patternPiece (BitVec.ofNat 32 v) 0) } := by
  simp only [segPattern, lamps, Lamps.put, arrange_index]
  rfl

theorem countDigits_pos (rounds : ℕ) {a : ℕ} (ha : a ≠ 0) :
    countDigits (rounds + 1) a = countDigits rounds (a / 10) + 1 := if_neg ha

theorem countDigits_zero (rounds : ℕ) : countDigits rounds 0 = 0 := by
  cases rounds <;> rfl

theorem positive_shown {n : ℤ} (hn : 0 ≤ n) {seg : List LightCall} (h : print_positive n = some seg) (t : Lamps) :
    lamps.run t seg = { t with digits := shownAnswer n t.digits } := by
  obtain ⟨a, rfl⟩ := Int.eq_ofNat_of_zero_le hn
  have hdecimal : decimal (a : ℤ) = digits a := if_neg (by omega)
  have hseg : seg = [.seg_set ⟨1, 15, BitVec.ofNat 32 (min (hexValue (digits a)) LONG_MAX)⟩] := by
    rw [print_positive, hdecimal] at h
    split_ifs at h
    exact (Option.some.inj h).symm
  have hput (v : ℕ) : (lamps.step t (.seg_set ⟨1, 15, BitVec.ofNat 32 v⟩)).1 =
      { t with digits := fun i => hexPiece (BitVec.ofNat 32 v) (3 - i.val) } := by
    simp only [lamps, Lamps.put, arrange_all]
    rfl
  rw [hseg, Machine.run_cons, Machine.run_nil, hput]
  congr 1
  have hfits := hexValue_lt_iff (by norm_num : 8 ≤ 10) a 7
  unfold shownAnswer
  by_cases hlarge : (80000000 : ℤ) ≤ a
  · have hmin : min (hexValue (digits a)) LONG_MAX = LONG_MAX := by
      rw [LONG_MAX]
      omega
    rw [if_pos hlarge, hmin]
    decide
  · have hmin : min (hexValue (digits a)) LONG_MAX = hexValue (digits a) := by
      rw [LONG_MAX]
      omega
    rw [if_neg hlarge, if_pos hn, hmin]
    funext i
    have hword : hexValue (digits a) < 2 ^ 32 := by omega
    rw [hexPiece, BitVec.toNat_ofNat, Nat.mod_eq_of_lt hword, hexValue_nibble]
    rfl

theorem one_digit {n : ℤ} (hpos : 0 < n.natAbs) (hlt : n.natAbs < 10) : print_negative n =
    [segPattern (index 0) 0, segPattern (index 1) 0, segHex (index 3) n.natAbs, segPattern (index 2) 0x40] := by
  have hcount : countDigits 32 n.natAbs = 1 := by
    have hzero : n.natAbs / 10 = 0 := by omega
    rw [countDigits_pos 31 (by omega), hzero, countDigits_zero]
  simp only [print_negative, hcount]
  rfl

theorem two_digits {n : ℤ} (hle : 10 ≤ n.natAbs) (hlt : n.natAbs < 100) : print_negative n =
    [segPattern (index 0) 0, segHex (index 2) (n.natAbs / 10), segHex (index 3) (n.natAbs % 10),
      segPattern (index 1) 0x40] := by
  have hcount : countDigits 32 n.natAbs = 2 := by
    have hzero : n.natAbs / 10 / 10 = 0 := by omega
    rw [countDigits_pos 31 (by omega), countDigits_pos 30 (by omega), hzero, countDigits_zero]
  simp only [print_negative, hcount]
  rfl

theorem three_digits {n : ℤ} (hle : 100 ≤ n.natAbs) (hlt : n.natAbs < 1000) : print_negative n =
    [segHex (index 1) (n.natAbs / 100), segHex (index 2) (n.natAbs / 10 % 10), segHex (index 3) (n.natAbs % 10),
      segPattern (index 0) 0x40] := by
  have hcount : countDigits 32 n.natAbs = 3 := by
    have hzero : n.natAbs / 10 / 10 / 10 = 0 := by omega
    rw [countDigits_pos 31 (by omega), countDigits_pos 30 (by omega), countDigits_pos 29 (by omega), hzero,
      countDigits_zero]
  have hlast : n.natAbs % 100 % 10 = n.natAbs % 10 := by omega
  simp only [print_negative, hcount, hlast]
  rfl

theorem more_digits {n : ℤ} (hle : 1000 ≤ n.natAbs) : print_negative n = [] := by
  have hcount : countDigits 32 n.natAbs = countDigits 28 (n.natAbs / 10 / 10 / 10 / 10) + 4 := by
    rw [countDigits_pos 31 (by omega), countDigits_pos 30 (by omega), countDigits_pos 29 (by omega),
      countDigits_pos 28 (by omega)]
  simp only [print_negative, hcount]

theorem negative_shown {n : ℤ} (hn : n < 0) (t : Lamps) :
    lamps.run t (print_negative n) = { t with digits := shownAnswer n t.digits } := by
  have hminus : patternPiece (BitVec.ofNat 32 0x40) 0 = minus := by decide
  have hblank : patternPiece (BitVec.ofNat 32 0) 0 = 0 := by decide
  unfold shownAnswer
  rw [if_neg (by omega), if_neg (by omega)]
  rcases Nat.lt_or_ge n.natAbs 10 with hone | hten
  · rw [if_pos hone, one_digit (by omega) hone]
    simp only [Machine.run_cons, Machine.run_nil, step_pattern, step_hex _ _ (by omega : n.natAbs < 16), hminus, hblank]
    congr 1
    funext i
    fin_cases i <;> rfl
  rw [if_neg (by omega)]
  rcases Nat.lt_or_ge n.natAbs 100 with htwo | hhundred
  · rw [if_pos htwo, two_digits hten htwo]
    simp only [Machine.run_cons, Machine.run_nil, step_pattern, step_hex _ _ (by omega : n.natAbs / 10 < 16),
      step_hex _ _ (by omega : n.natAbs % 10 < 16), hminus, hblank]
    congr 1
    funext i
    fin_cases i <;> rfl
  rw [if_neg (by omega)]
  rcases Nat.lt_or_ge n.natAbs 1000 with hthree | hthousand
  · rw [if_pos hthree, three_digits hhundred hthree]
    simp only [Machine.run_cons, Machine.run_nil, step_pattern, step_hex _ _ (by omega : n.natAbs / 100 < 16),
      step_hex _ _ (by omega : n.natAbs / 10 % 10 < 16), step_hex _ _ (by omega : n.natAbs % 10 < 16), hminus]
    congr 1
    funext i
    fin_cases i <;> rfl
  · rw [if_neg (by omega), more_digits hthousand]
    rfl

theorem step_led (t : Lamps) (call : LedCall) : (lamps.step t call.call).1 = t.light (match call with
    | .bit_set k => insert k t.leds
    | .bit_clear k => t.leds.erase k) := by
  cases call with
  | bit_set k =>
    have hk : (BitVec.ofNat 16 k.val).toNat % 256 = k := by
      rw [BitVec.toNat_ofNat]
      omega
    simp only [LedCall.call, lamps, hk]
    exact congrArg Prod.fst (dif_pos k.isLt)
  | bit_clear k =>
    have hk : (BitVec.ofNat 16 k.val).toNat % 256 = k := by
      rw [BitVec.toNat_ofNat]
      omega
    simp only [LedCall.call, lamps, hk]
    exact congrArg Prod.fst (dif_pos k.isLt)

theorem led_shown (on : Fin 8 → Prop) [DecidablePred on] (t : Lamps) (ks : List (Fin 8)) :
    let t' := lamps.run t (ks.map fun i => (if on i then LedCall.bit_set i else .bit_clear i).call)
    (∀ k, k ∈ t'.leds ↔ if k ∈ ks then on k else k ∈ t.leds) ∧ t'.digits = t.digits ∧ t'.running = t.running := by
  induction ks generalizing t with
  | nil => simp
  | cons i ks ih =>
    intro t'
    obtain ⟨hleds, hdigits, hrunning⟩ :=
      ih (lamps.step t (if on i then LedCall.bit_set i else .bit_clear i).call).1
    refine ⟨fun k => ?_, hdigits.trans ?_, hrunning.trans ?_⟩
    · apply (hleds k).trans
      rw [step_led]
      by_cases hk : k ∈ ks
      · simp [hk]
      · by_cases hi : k = i
        · subst hi
          by_cases hon : on k <;> simp [hk, hon, Lamps.light]
        · by_cases hon : on i <;> simp [hk, hi, hon, Lamps.light]
    · rw [step_led]
      rfl
    · rw [step_led]
      rfl

theorem lit_step (t : Lamps) (e : LightCall) :
    (lamps.step t e).1.lit = t.lit ∧ (lamps.step t e).1.leds = t.leds ∨
      (lamps.step t e).1.lit = some (lamps.step t e).1.leds := by
  cases e with
  | led cmd led =>
    cases cmd with
    | set => exact Or.inr rfl
    | bit_set =>
      simp only [lamps]
      split_ifs
      · exact Or.inr rfl
      · exact Or.inl ⟨rfl, rfl⟩
    | bit_clear =>
      simp only [lamps]
      split_ifs
      · exact Or.inr rfl
      · exact Or.inl ⟨rfl, rfl⟩
  | seg_on => exact Or.inl ⟨rfl, rfl⟩
  | seg_off => exact Or.inl ⟨rfl, rfl⟩
  | seg_set info =>
    simp only [lamps, Lamps.put]
    split_ifs <;> exact Or.inl ⟨rfl, rfl⟩
  | scan => exact Or.inr rfl
  | irq =>
    simp only [lamps]
    split_ifs <;> exact Or.inl ⟨rfl, rfl⟩
  | ee e => exact Or.inl ⟨rfl, rfl⟩

theorem start_lit (es : List LightCall) :
    (lamps.run Lamps.start es).lit = none ∨ (lamps.run Lamps.start es).lit = some (lamps.run Lamps.start es).leds := by
  induction es using List.reverseRecOn with
  | nil => exact Or.inl rfl
  | append_singleton es e ih =>
    rw [Machine.run_snoc]
    rcases lit_step (lamps.run Lamps.start es) e with ⟨hlit, hleds⟩ | hnow
    · rwa [hlit, hleds]
    · exact Or.inr hnow

theorem leds_shown {t : Lamps} (h : t.lit = none ∨ t.lit = some t.leds) {fs : List LightCall}
    (hfs : t.lit = some t.leds ∨ ∃ call : LedCall, call.call ∈ fs) :
    (lamps.run t fs).lit = some (lamps.run t fs).leds := by
  induction fs generalizing t with
  | nil =>
    rcases hfs with hfs | ⟨call, hcall⟩
    · exact hfs
    · cases hcall
  | cons e fs ih =>
    rw [Machine.run_cons]
    rcases lit_step t e with ⟨hlit, hleds⟩ | hnow
    · apply ih
      · rwa [hlit, hleds]
      · rcases hfs with hfs | ⟨call, hcall⟩
        · left
          rwa [hlit, hleds]
        · rcases List.mem_cons.mp hcall with rfl | hcall
          · left
            rw [step_led]
            rfl
          · exact Or.inr ⟨call, hcall⟩
    · exact ih (Or.inr hnow) (Or.inl hnow)

theorem answer_written {n : ℤ} {calls : List LightCall} {leds : List LedCall} (hcalls : print_answer n = some calls)
    (hleds : print_led n = some leds) (t : Lamps) :
    written (lamps.run t calls) = (shownAnswer n t.digits, Finset.univ.filter fun k => .bit_set k ∈ leds, t.running) ∧
      ∃ call : LedCall, call.call ∈ calls := by
  obtain ⟨binaryNumber, -, hon⟩ := Option.map_eq_some_iff.mp hleds
  have hseg : ∃ seg, calls = seg ++ leds.map LedCall.call ∧
      lamps.run t seg = { t with digits := shownAnswer n t.digits } := by
    rw [print_answer, hleds] at hcalls
    by_cases hn : n ≥ 0
    · rw [if_pos hn] at hcalls
      cases hpositive : print_positive n with
      | none =>
        rw [hpositive] at hcalls
        cases hcalls
      | some seg =>
        rw [hpositive] at hcalls
        exact ⟨seg, (Option.some.inj hcalls).symm, positive_shown hn hpositive t⟩
    · rw [if_neg hn] at hcalls
      exact ⟨print_negative n, (Option.some.inj hcalls).symm, negative_shown (by omega) t⟩
  obtain ⟨seg, rfl, hrun⟩ := hseg
  have hmap : leds.map LedCall.call = (List.finRange 8).map fun i =>
      (if (unpack binaryNumber)[i] = 1 then LedCall.bit_set i else .bit_clear i).call := by
    rw [← hon, led, List.map_map]
    rfl
  have hmem (k : Fin 8) : .bit_set k ∈ leds ↔ (unpack binaryNumber)[k] = 1 := by
    rw [← hon, led, List.mem_map]
    constructor
    · rintro ⟨i, -, hi⟩
      split_ifs at hi with h
      rwa [← LedCall.bit_set.inj hi]
    · intro h
      exact ⟨k, List.mem_finRange k, if_pos h⟩
  refine ⟨?_, ?_⟩
  · obtain ⟨hshown, hdigits, hrunning⟩ := led_shown (fun i => (unpack binaryNumber)[i] = 1)
      { t with digits := shownAnswer n t.digits } (List.finRange 8)
    rw [Machine.run_append, hrun, hmap, written, hdigits, hrunning, Prod.mk.injEq, Prod.mk.injEq]
    refine ⟨rfl, ?_, rfl⟩
    ext k
    rw [hshown, if_pos (List.mem_finRange k), Finset.mem_filter, hmem]
    simp
  · refine ⟨if (unpack binaryNumber)[(0 : Fin 8)] = 1 then .bit_set 0 else .bit_clear 0, ?_⟩
    rw [hmap]
    exact List.mem_append_right _ (List.mem_map_of_mem (List.mem_finRange (0 : Fin 8)))

theorem answer_shown (es fs gs : List LightCall) {n : ℤ} {calls : List LightCall} {leds : List LedCall}
    (hcalls : print_answer n = some calls) (hleds : print_led n = some leds)
    (hon : (lights.run Initial_7SEG es).Start7SegmentLED = true) (hfs : fs.filter writes = calls)
    (hgs : ∀ e ∈ gs, writes e = false) (hfour : 4 ≤ gs.countP isIrq) :
    lookAll Lamps.start.seen (lights.trace Initial_7SEG (es ++ (fs ++ gs))) =
        shownAnswer n (fun i => ~~~(lights.run Initial_7SEG es).seven_seg_buf i) ∧
      (lights.run Initial_7SEG (es ++ (fs ++ gs))).IO_REG2.map litLeds =
        some (Finset.univ.filter fun k => .bit_set k ∈ leds) := by
  obtain ⟨hrun, -, hseen⟩ := start_shines.run (es ++ (fs ++ gs))
  obtain ⟨hes, -, -⟩ := start_shines.run es
  have hdigits : (fun i => ~~~(lights.run Initial_7SEG es).seven_seg_buf i) = (lamps.run Lamps.start es).digits :=
    funext hes.digits
  have hrunning : (lamps.run Lamps.start es).running = true := hes.running.symm.trans hon
  rw [hseen, hrun.lit, Machine.run_append, Machine.run_append, hdigits]
  have hlit := start_lit es
  generalize lamps.run Lamps.start es = t at hrunning hlit
  obtain ⟨hwritten, call, hcall⟩ := answer_written hcalls hleds t
  have hfs' : written (lamps.run t fs) = written (lamps.run t calls) := by
    rw [← hfs]
    exact written_run rfl fs
  have hgs' : written (lamps.run (lamps.run t fs) gs) = written (lamps.run t fs) := by
    have hnone : gs.filter writes = [] := List.filter_eq_nil_iff.mpr fun e he => by simp [hgs e he]
    have hrest := written_run (t := lamps.run t fs) rfl gs
    rwa [hnone] at hrest
  have hquiet : ∀ e ∈ gs, Quiet e := by
    intro e he
    have hno := hgs e he
    cases e <;> trivial
  rw [hwritten] at hfs'
  rw [hfs'] at hgs'
  simp only [written, Prod.mk.injEq] at hfs' hgs'
  refine ⟨?_, ?_⟩
  · rw [← hfs'.1]
    exact lamps_refreshed (hfs'.2.2.trans hrunning) hquiet hfour
  · have hmem : call.call ∈ fs ++ gs := by
      rw [← hfs] at hcall
      exact List.mem_append_left _ (List.mem_of_mem_filter hcall)
    have hshown := leds_shown hlit (Or.inr ⟨call, hmem⟩)
    rw [Machine.run_append] at hshown
    rw [hshown, hgs'.2.1]

theorem answer_shown_minus_seven :
    let fs := (print_answer (-7)).getD []
    lookAll Lamps.start.seen (lights.trace Initial_7SEG (fs ++ [.irq, .irq, .irq, .irq])) = ![0, 0, minus, hexGlyph 7] ∧
      (lights.run Initial_7SEG (fs ++ [.irq, .irq, .irq, .irq])).IO_REG2.map litLeds = some {5, 6, 7} := by
  intro fs
  have hcalls : print_answer (-7) = some fs := rfl
  have hleds : print_led (-7) = some (lowBits (-7)) := by decide
  have h := answer_shown [] fs [.irq, .irq, .irq, .irq] hcalls hleds rfl
    rfl (by decide) (by decide)
  refine ⟨h.1.trans ?_, h.2.trans ?_⟩
  · decide
  · decide

end EmbeddedOS.Lab3
