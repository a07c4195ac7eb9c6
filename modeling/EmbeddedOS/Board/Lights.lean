import EmbeddedOS.Library.Bytes
import EmbeddedOS.Library.Runs

/-!
The LEDs, the four seven segment digits and the EEPROM of `creator-pxa270-lcd.c`. The digits take turns at `IO_REG0`:
each interrupt of their timer lights the next. The EEPROM has three other bits of that register, and it is the same
interrupt that writes them.
-/

namespace EmbeddedOS.Board

open Runs

inductive LedCmd where
  | set
  | bit_set
  | bit_clear
  deriving DecidableEq

structure _7seg_info_t where
  Mode : BitVec 8
  Which : BitVec 8
  Value : BitVec 32

/-- What `EE_ISSUE_CMD` does between two delays. -/
inductive EeStep where
  | select
  | clock_down
  | data (bit : Bool)
  | clock_up
  | sample (CPLD_STATUS : BitVec 16)
  | stop
  deriving DecidableEq

/-- `IO_REG2` has no value until the driver writes it. `d_out` is the variable of `EE_ISSUE_CMD`. -/
structure Lights where
  scan_led : BitVec 16
  IO_REG2 : Option (BitVec 16)
  seven_seg_buf : Fin 4 → BitVec 8
  seven_seg_idx : Fin 4
  Start7SegmentLED : Bool
  OMCR4 : BitVec 32
  io_reg0 : BitVec 16
  IO_REG0 : BitVec 16
  d_out : BitVec 16

def EINVAL : ℤ := 22
def EFAULT : ℤ := 14
def ENOTTY : ℤ := 25

def ledBit (led : BitVec 8) : BitVec 8 := (List.range led.toNat).foldl (fun bit _ => bit <<< 1) 1

def Creator_pxa270_led_cmd (s : Lights) (cmd : LedCmd) (led : BitVec 8) : Lights × ℤ :=
  let show_ (scan_led : BitVec 16) : Lights × ℤ :=
    ({ s with scan_led := scan_led, IO_REG2 := some (scan_led ||| 0xfe) }, 0)
  match cmd with
  | .set => show_ ((~~~led.setWidth 32 <<< 8).setWidth 16)
  | .bit_set =>
    if 8 ≤ led.toNat then (s, -EINVAL)
    else show_ ((s.scan_led.setWidth 32 &&& (~~~(ledBit led).setWidth 32 <<< 8)).setWidth 16)
  | .bit_clear =>
    if 8 ≤ led.toNat then (s, -EINVAL)
    else show_ ((s.scan_led.setWidth 32 ||| ((ledBit led).setWidth 32 <<< 8)).setWidth 16)

def LED_tbl : List (BitVec 8) :=
  [0xc0, 0xf9, 0xa4, 0xb0, 0x99, 0x92, 0x82, 0xf8, 0x80, 0x90, 0xa0, 0x83, 0xc6, 0xa1, 0x84, 0x8e, 0x7f, 0xff]

def patternData (value : BitVec 32) : BitVec 8 := ~~~(value &&& 0xff).setWidth 8

def hexData (value : BitVec 32) : BitVec 8 := LED_tbl.getD (value &&& 0xf).toNat 0

def putRound (data : BitVec 32 → BitVec 8) (width : ℕ) (s : (Fin 4 → BitVec 8) × BitVec 8 × BitVec 32)
    (Index : Fin 4) : (Fin 4 → BitVec 8) × BitVec 8 × BitVec 32 :=
  let (buf, which, value) := s
  let SetLED := which &&& 1
  let which := which >>> 1
  if SetLED = 0 then (buf, which, value) else (Function.update buf Index (data value), which, value >>> width)

def putLoop (data : BitVec 32 → BitVec 8) (width : ℕ) (buf : Fin 4 → BitVec 8) (which : BitVec 8)
    (value : BitVec 32) : Fin 4 → BitVec 8 :=
  (([3, 2, 1, 0] : List (Fin 4)).foldl (putRound data width) (buf, which, value)).1

def _7SEG_put_led (s : Lights) (info : _7seg_info_t) : Lights × ℤ :=
  if info.Mode = 0 then
    ({ s with seven_seg_buf := putLoop patternData 8 s.seven_seg_buf info.Which info.Value }, 0)
  else if info.Mode = 1 then
    ({ s with seven_seg_buf := putLoop hexData 4 s.seven_seg_buf info.Which info.Value }, 0)
  else (s, -ENOTTY)

def tbl_7seg_com : Fin 4 → BitVec 16 := ![0x0e00, 0x0d00, 0x0b00, 0x0700]

def _7segment_timer_irq (s : Lights) : Lights :=
  let s := { s with seven_seg_idx := s.seven_seg_idx + 1 }
  { s with
    IO_REG0 := s.io_reg0 ||| tbl_7seg_com s.seven_seg_idx ||| (s.seven_seg_buf s.seven_seg_idx).setWidth 16 }

def EeStep.run (s : Lights) : EeStep → Lights
  | select => { s with io_reg0 := s.io_reg0 ||| 0x1000 }
  | clock_down => { s with io_reg0 := s.io_reg0 &&& 0xdfff }
  | data bit => { s with io_reg0 := if bit then s.io_reg0 ||| 0x4000 else s.io_reg0 &&& 0xbfff }
  | clock_up => { s with io_reg0 := s.io_reg0 ||| 0x2000 }
  | sample CPLD_STATUS => { s with d_out := (s.d_out <<< 1) ||| (CPLD_STATUS &&& 1) }
  | stop => { s with io_reg0 := s.io_reg0 &&& 0xcfff }

/-- `scan` is a `ScanTimer` that reads the keys. -/
inductive LightCall where
  | led (cmd : LedCmd) (led : BitVec 16)
  | seg_on
  | seg_off
  | seg_set (info : _7seg_info_t)
  | scan
  | irq
  | ee (e : EeStep)

def lights : Machine Lights LightCall ℤ where
  step s e :=
    match e with
    | .led cmd led =>
      let (s', rc) := Creator_pxa270_led_cmd s cmd (led.setWidth 8)
      (s', if rc < -EFAULT then -EINVAL else 0)
    | .seg_on => if s.Start7SegmentLED then (s, 0) else ({ s with OMCR4 := 0xca, Start7SegmentLED := true }, 0)
    | .seg_off => if s.Start7SegmentLED then ({ s with OMCR4 := 0, Start7SegmentLED := false }, 0) else (s, 0)
    | .seg_set info => _7SEG_put_led s info
    | .scan => ({ s with IO_REG2 := some (s.scan_led ||| 0xf7) }, 0)
    -- the timer is stopped while `OMCR4` is zero
    | .irq => (if s.OMCR4 = 0 then s else _7segment_timer_irq s, 0)
    | .ee e => (e.run s, 0)

/-- The driver as the board starts: the timer has been set up, and `creator_pxa270_core_init` has written `IO_REG0`. -/
def Initial_7SEG : Lights where
  scan_led := 0x5500
  IO_REG2 := none
  seven_seg_buf := ![0x90, 0xa3, 0xa3, 0xa1]
  seven_seg_idx := 0
  Start7SegmentLED := true
  OMCR4 := 0xca
  io_reg0 := 0xc000
  IO_REG0 := 0xc000
  d_out := 0

def litLeds (IO_REG2 : BitVec 16) : Finset (Fin 8) := Finset.univ.filter fun i => IO_REG2.getLsbD (8 + i) = false

/-- The segments of a digit are lit by a `0` while its own bit of `IO_REG0` is `0`, and are seen until its next turn. -/
def look (seen : Fin 4 → BitVec 8) (IO_REG0 : BitVec 16) : Fin 4 → BitVec 8 := fun i =>
  if IO_REG0.getLsbD (8 + i) then seen i else ~~~IO_REG0.setWidth 8

def lookAll (seen : Fin 4 → BitVec 8) (tr : List (Moment Lights LightCall ℤ)) : Fin 4 → BitVec 8 :=
  tr.foldl (fun seen q => look seen q.post.IO_REG0) seen

structure Lamps where
  leds : Finset (Fin 8)
  lit : Option (Finset (Fin 8))
  digits : Fin 4 → BitVec 8
  turn : Fin 4
  running : Bool
  seen : Fin 4 → BitVec 8

def ledSet (led : BitVec 8) : Finset (Fin 8) := Finset.univ.filter fun i => led.getLsbD i

def Lamps.light (t : Lamps) (leds : Finset (Fin 8)) : Lamps := { t with leds := leds, lit := some leds }

def chosen (which : BitVec 8) (k : ℕ) : ℕ := ((Finset.range k).filter fun j => which.getLsbD j).card

def arrange (piece : ℕ → BitVec 8) (which : BitVec 8) (digits : Fin 4 → BitVec 8) : Fin 4 → BitVec 8 := fun i =>
  if which.getLsbD (3 - i) then piece (chosen which (3 - i)) else digits i

def hexGlyph (n : ℕ) : BitVec 8 := ~~~LED_tbl.getD n 0

def patternPiece (value : BitVec 32) (k : ℕ) : BitVec 8 := (value >>> (8 * k)).setWidth 8

def hexPiece (value : BitVec 32) (k : ℕ) : BitVec 8 := hexGlyph (value.toNat / 16 ^ k % 16)

def Lamps.put (t : Lamps) (info : _7seg_info_t) : Lamps × ℤ :=
  if info.Mode = 0 then ({ t with digits := arrange (patternPiece info.Value) info.Which t.digits }, 0)
  else if info.Mode = 1 then ({ t with digits := arrange (hexPiece info.Value) info.Which t.digits }, 0)
  else (t, -ENOTTY)

def lamps : Machine Lamps LightCall ℤ where
  step t e :=
    match e with
    | .led .set led => (t.light (ledSet (led.setWidth 8)), 0)
    | .led .bit_set led =>
      if h : led.toNat % 256 < 8 then (t.light (insert ⟨led.toNat % 256, h⟩ t.leds), 0) else (t, -EINVAL)
    | .led .bit_clear led =>
      if h : led.toNat % 256 < 8 then (t.light (t.leds.erase ⟨led.toNat % 256, h⟩), 0) else (t, -EINVAL)
    | .seg_on => ({ t with running := true }, 0)
    | .seg_off => ({ t with running := false }, 0)
    | .seg_set info => t.put info
    | .scan => ({ t with lit := some t.leds }, 0)
    | .irq =>
      (if t.running then
        { t with turn := t.turn + 1, seen := Function.update t.seen (t.turn + 1) (t.digits (t.turn + 1)) }
      else t, 0)
    | .ee _ => (t, 0)

def Lamps.start : Lamps := ⟨{1, 3, 5, 7}, none, ![0x6f, 0x5c, 0x5c, 0x5e], 0, true, fun _ => 0xff⟩

structure Shines (s : Lights) (t : Lamps) : Prop where
  leds : ∀ i : Fin 8, s.scan_led.getLsbD (8 + i) = !decide (i ∈ t.leds)
  rows : s.scan_led.setWidth 8 = 0#8
  lit : s.IO_REG2.map litLeds = t.lit
  written : ∀ r ∈ s.IO_REG2, r.setWidth 8 = 0xfe ∨ r.setWidth 8 = 0xf7
  digits : ∀ i, ~~~s.seven_seg_buf i = t.digits i
  turn : s.seven_seg_idx = t.turn
  running : s.Start7SegmentLED = t.running
  timer : s.OMCR4 = 0 ↔ t.running = false
  free : s.io_reg0.setWidth 12 = 0#12
  rests : look t.seen s.IO_REG0 = t.seen

theorem ledBit_eq (led : BitVec 8) : ledBit led = 1#8 <<< led.toNat := by
  have hloop (n : ℕ) : (List.range n).foldl (fun (bit : BitVec 8) _ => bit <<< 1) 1 = 1#8 <<< n := by
    induction n with
    | zero => rfl
    | succ n ih =>
      rw [List.range_succ, List.foldl_append, ih]
      exact (BitVec.shiftLeft_add ..).symm
  exact hloop led.toNat

theorem ledBit_getLsbD {led : BitVec 8} (h : led.toNat < 8) (i : Fin 8) :
    (ledBit led).getLsbD i = decide (i = ⟨led.toNat, h⟩) := by
  have hi := i.isLt
  rw [ledBit_eq, BitVec.getLsbD_shiftLeft, Bool.eq_iff_iff]
  simp [Fin.ext_iff, BitVec.getLsbD_one]
  omega

theorem litLeds_or {scan_led low : BitVec 16} {leds : Finset (Fin 8)}
    (hleds : ∀ i : Fin 8, scan_led.getLsbD (8 + i) = !decide (i ∈ leds))
    (hlow : ∀ i : Fin 8, low.getLsbD (8 + i) = false) : litLeds (scan_led ||| low) = leds := by
  ext i
  simp [litLeds, hleds, hlow]

theorem rows_or {scan_led : BitVec 16} (h : scan_led.setWidth 8 = 0#8) (low : BitVec 16) :
    (scan_led ||| low).setWidth 8 = low.setWidth 8 := by
  rw [BitVec.setWidth_or, h, BitVec.zero_or]

theorem Shines.light {s : Lights} {t : Lamps} (h : Shines s t) {scan_led : BitVec 16} {leds : Finset (Fin 8)}
    (hleds : ∀ i : Fin 8, scan_led.getLsbD (8 + i) = !decide (i ∈ leds)) (hrows : scan_led.setWidth 8 = 0#8) :
    Shines { s with scan_led := scan_led, IO_REG2 := some (scan_led ||| 0xfe) } (t.light leds) := by
  refine ⟨hleds, hrows, ?_, ?_, h.digits, h.turn, h.running, h.timer, h.free, h.rests⟩
  · apply congrArg some
    exact litLeds_or hleds (by decide)
  · intro r hr
    obtain rfl := Option.mem_some.mp hr
    left
    exact rows_or hrows 0xfe

theorem led_set {led : BitVec 8} (i : Fin 8) :
    ((~~~led.setWidth 32 <<< 8).setWidth 16).getLsbD (8 + i) = !decide (i ∈ ledSet led) := by
  have hi : 8 + (i : ℕ) < 16 := by omega
  simp [ledSet, hi]

section Bits

variable {scan_led : BitVec 16} {leds : Finset (Fin 8)} {led : BitVec 8}

theorem led_bit_set (hleds : ∀ i : Fin 8, scan_led.getLsbD (8 + i) = !decide (i ∈ leds)) (h : led.toNat < 8)
    (i : Fin 8) :
    ((scan_led.setWidth 32 &&& (~~~(ledBit led).setWidth 32 <<< 8)).setWidth 16).getLsbD (8 + i) =
      !decide (i ∈ insert ⟨led.toNat, h⟩ leds) := by
  have hi : 8 + (i : ℕ) < 16 := by omega
  have hi' : (i : ℕ) < 16 := by omega
  have hbit := ledBit_getLsbD h i
  simp [hi, hi', hleds, hbit, -BitVec.getLsbD_eq_getElem]
  rw [Bool.and_comm]

theorem led_bit_clear (hleds : ∀ i : Fin 8, scan_led.getLsbD (8 + i) = !decide (i ∈ leds)) (h : led.toNat < 8)
    (i : Fin 8) :
    ((scan_led.setWidth 32 ||| ((ledBit led).setWidth 32 <<< 8)).setWidth 16).getLsbD (8 + i) =
      !decide (i ∈ leds.erase ⟨led.toNat, h⟩) := by
  have hi : 8 + (i : ℕ) < 16 := by omega
  have hi' : (i : ℕ) < 16 := by omega
  have hbit := ledBit_getLsbD h i
  simp [hi, hi', hleds, hbit, -BitVec.getLsbD_eq_getElem]
  rw [Bool.or_comm]

theorem rows_set : ((~~~led.setWidth 32 <<< 8).setWidth 16).setWidth 8 = 0#8 := by
  ext j hj
  simp

theorem rows_bit_set :
    ((scan_led.setWidth 32 &&& (~~~(ledBit led).setWidth 32 <<< 8)).setWidth 16).setWidth 8 = 0#8 := by
  ext j hj
  simp

theorem rows_bit_clear (hrows : scan_led.setWidth 8 = 0#8) :
    ((scan_led.setWidth 32 ||| ((ledBit led).setWidth 32 <<< 8)).setWidth 16).setWidth 8 = 0#8 := by
  have hlow : ∀ j < 8, scan_led.getLsbD j = false := by
    intro j hj
    have hzero := congrArg (fun r => r.getLsbD j) hrows
    simpa [hj] using hzero
  ext j hj
  simp [hlow j hj]

end Bits

theorem and_one_eq_zero (which : BitVec 8) : which &&& 1 = 0 ↔ which.getLsbD 0 = false := by
  constructor
  · intro h
    have hbit := congrArg (fun r => r.getLsbD 0) h
    simpa using hbit
  · intro h
    ext j hj
    cases j with
    | zero => simpa using h
    | succ j => simp

theorem chosen_succ (which : BitVec 8) (k : ℕ) :
    chosen which (k + 1) = chosen which k + if which.getLsbD k then 1 else 0 := by
  rw [chosen, Finset.range_add_one, Finset.filter_insert]
  split_ifs with h
  · exact Finset.card_insert_of_notMem (by simp)
  · rfl

section Loop

variable (data : BitVec 32 → BitVec 8) (width : ℕ) (buf : Fin 4 → BitVec 8) (which : BitVec 8) (value : BitVec 32)

def putState (k : ℕ) : (Fin 4 → BitVec 8) × BitVec 8 × BitVec 32 :=
  (fun i => if 3 - i.val < k then arrange (fun n => data (value >>> (width * n))) which buf i else buf i,
    which >>> k, value >>> (width * chosen which k))

theorem putRound_putState {k : ℕ} {Index : Fin 4} (hk : Index + k = 3) :
    putRound data width (putState data width buf which value k) Index = putState data width buf which value (k + 1) := by
  have hbit : (which >>> k).getLsbD 0 = which.getLsbD k := by simp
  simp only [putState, putRound, and_one_eq_zero, hbit, ← BitVec.shiftRight_add, chosen_succ]
  by_cases h : which.getLsbD k = true
  · rw [if_neg (by simp [h]), if_pos h, Nat.mul_succ, Prod.mk.injEq]
    refine ⟨?_, rfl⟩
    funext i
    by_cases hi : i = Index
    · have hthree : 3 - (i : ℕ) = k := by
        rw [hi]
        omega
      rw [hi, Function.update_self, ← hi, hthree, if_pos (by omega), arrange, hthree, if_pos h]
    · have hne : 3 - (i : ℕ) ≠ k := by
        rw [Fin.ext_iff] at hi
        omega
      rw [Function.update_of_ne hi]
      congr 1
      rw [eq_iff_iff]
      omega
  · rw [if_pos (by simpa using h), if_neg h, Prod.mk.injEq]
    refine ⟨?_, rfl⟩
    funext i
    by_cases hi : 3 - (i : ℕ) = k
    · rw [if_neg (by omega), if_pos (by omega), arrange, hi, if_neg h]
    · congr 1
      rw [eq_iff_iff]
      omega

theorem putLoop_eq :
    putLoop data width buf which value = arrange (fun n => data (value >>> (width * n))) which buf := by
  have hstart : (buf, which, value) = putState data width buf which value 0 := by simp [putState, chosen]
  have hend : (putState data width buf which value 4).1 = arrange (fun n => data (value >>> (width * n))) which buf := by
    funext i
    exact if_pos (by omega)
  rw [putLoop, hstart, ← hend]
  simp only [List.foldl_cons, List.foldl_nil]
  have hround {k : ℕ} (Index : Fin 4) (hk : Index + k = 3) :
      putRound data width (putState data width buf which value k) Index = putState data width buf which value (k + 1) :=
    putRound_putState data width buf which value hk
  rw [hround 3 rfl, hround 2 rfl, hround 1 rfl, hround 0 rfl]

end Loop

theorem not_patternData (value : BitVec 32) (k : ℕ) :
    ~~~patternData (value >>> (8 * k)) = patternPiece value k := by
  rw [patternData, BitVec.not_not, patternPiece, BitVec.setWidth_and]
  exact BitVec.and_allOnes

theorem not_hexData (value : BitVec 32) (k : ℕ) : ~~~hexData (value >>> (4 * k)) = hexPiece value k := by
  have hnibble : (value >>> (4 * k) &&& 0xf).toNat = value.toNat / 16 ^ k % 16 := by
    rw [BitVec.toNat_and, BitVec.toNat_ushiftRight, Nat.shiftRight_eq_div_pow, pow_mul]
    exact Nat.and_two_pow_sub_one_eq_mod _ 4
  rw [hexData, hnibble, hexPiece, hexGlyph]

theorem not_arrange (piece : ℕ → BitVec 8) (which : BitVec 8) (digits : Fin 4 → BitVec 8) (i : Fin 4) :
    ~~~arrange piece which digits i = arrange (fun k => ~~~piece k) which (fun i => ~~~digits i) i := by
  simp only [arrange]
  split_ifs <;> rfl

theorem Shines.put {s : Lights} {t : Lamps} (h : Shines s t) (info : _7seg_info_t) :
    Shines (_7SEG_put_led s info).1 (t.put info).1 ∧ (_7SEG_put_led s info).2 = (t.put info).2 := by
  have hdigits : (fun i => ~~~s.seven_seg_buf i) = t.digits := funext h.digits
  rw [_7SEG_put_led, Lamps.put]
  split_ifs with hpattern hhex
  · refine ⟨⟨h.leds, h.rows, h.lit, h.written, ?_, h.turn, h.running, h.timer, h.free, h.rests⟩, rfl⟩
    intro i
    simp only [putLoop_eq, not_arrange, not_patternData, hdigits]
  · refine ⟨⟨h.leds, h.rows, h.lit, h.written, ?_, h.turn, h.running, h.timer, h.free, h.rests⟩, rfl⟩
    intro i
    simp only [putLoop_eq, not_arrange, not_hexData, hdigits]
  · exact ⟨h, rfl⟩

theorem tbl_7seg_com_bits : ∀ i j : Fin 4, (tbl_7seg_com j).getLsbD (8 + i) = !decide (i = j) := by decide

theorem tbl_7seg_com_low : ∀ j : Fin 4, (tbl_7seg_com j).setWidth 8 = 0#8 := by decide

theorem look_turn {io_reg0 : BitVec 16} (h : io_reg0.setWidth 12 = 0#12) (j : Fin 4) (d : BitVec 8)
    (seen : Fin 4 → BitVec 8) :
    look seen (io_reg0 ||| tbl_7seg_com j ||| d.setWidth 16) = Function.update seen j (~~~d) := by
  have hfree : ∀ k < 12, io_reg0.getLsbD k = false := by
    intro k hk
    have hzero := congrArg (fun r => r.getLsbD k) h
    simpa [hk] using hzero
  have hlow : io_reg0.setWidth 8 = 0#8 := by
    ext k hk
    simpa using hfree k (by omega)
  have hbyte : (io_reg0 ||| tbl_7seg_com j ||| d.setWidth 16).setWidth 8 = d := by
    rw [BitVec.setWidth_or, BitVec.setWidth_or, hlow, tbl_7seg_com_low]
    simp
  funext i
  have hcom : (io_reg0 ||| tbl_7seg_com j ||| d.setWidth 16).getLsbD (8 + i) = !decide (i = j) := by
    rw [BitVec.getLsbD_or, BitVec.getLsbD_or, hfree _ (by omega), tbl_7seg_com_bits]
    simp
  rw [look, hcom, hbyte]
  by_cases hi : i = j
  · simp [hi]
  · simp [hi]

theorem Shines.irq {s : Lights} {t : Lamps} (h : Shines s t) :
    Shines (lights.step s .irq).1 (lamps.step t .irq).1 ∧
      look t.seen (lights.step s .irq).1.IO_REG0 = (lamps.step t .irq).1.seen := by
  simp only [lights, lamps]
  cases hrunning : t.running with
  | false =>
    rw [if_pos (h.timer.mpr hrunning)]
    exact ⟨h, h.rests⟩
  | true =>
    have htimer : s.OMCR4 ≠ 0 := by
      intro hzero
      rw [h.timer.mp hzero] at hrunning
      cases hrunning
    rw [if_neg htimer, if_pos rfl]
    have hturn (seen : Fin 4 → BitVec 8) :
        look seen (_7segment_timer_irq s).IO_REG0 = Function.update seen (t.turn + 1) (t.digits (t.turn + 1)) := by
      rw [← h.turn, ← h.digits]
      exact look_turn h.free (s.seven_seg_idx + 1) (s.seven_seg_buf (s.seven_seg_idx + 1)) seen
    refine ⟨⟨h.leds, h.rows, h.lit, h.written, h.digits, ?_, ?_, ?_, h.free, ?_⟩, hturn t.seen⟩
    · exact congrArg (· + 1) h.turn
    · exact h.running.trans hrunning
    · rw [← hrunning]
      exact h.timer
    · rw [hturn]
      exact Function.update_idem ..

theorem EeStep.free {s : Lights} (h : s.io_reg0.setWidth 12 = 0#12) (e : EeStep) :
    (e.run s).io_reg0.setWidth 12 = 0#12 := by
  cases e with
  | select => rw [EeStep.run, BitVec.setWidth_or, h]; rfl
  | clock_down => rw [EeStep.run, BitVec.setWidth_and, h, BitVec.zero_and]
  | data bit =>
    cases bit with
    | false =>
      change (s.io_reg0 &&& 0xbfff).setWidth 12 = 0#12
      rw [BitVec.setWidth_and, h, BitVec.zero_and]
    | true =>
      change (s.io_reg0 ||| 0x4000).setWidth 12 = 0#12
      rw [BitVec.setWidth_or, h]
      rfl
  | clock_up => rw [EeStep.run, BitVec.setWidth_or, h]; rfl
  | sample CPLD_STATUS => exact h
  | stop => rw [EeStep.run, BitVec.setWidth_and, h, BitVec.zero_and]

theorem Shines.ee {s : Lights} {t : Lamps} (h : Shines s t) (e : EeStep) : Shines (e.run s) t := by
  have hfree := e.free h.free
  cases e <;> exact ⟨h.leds, h.rows, h.lit, h.written, h.digits, h.turn, h.running, h.timer, hfree, h.rests⟩

theorem Shines.led {s : Lights} {t : Lamps} (h : Shines s t) (cmd : LedCmd) (led : BitVec 16) :
    Shines (lights.step s (.led cmd led)).1 (lamps.step t (.led cmd led)).1 ∧
      (lights.step s (.led cmd led)).2 = (lamps.step t (.led cmd led)).2 := by
  have hmod : (led.setWidth 8).toNat = led.toNat % 256 := BitVec.toNat_setWidth ..
  cases cmd with
  | set => exact ⟨h.light led_set rows_set, rfl⟩
  | bit_set =>
    simp only [lights, lamps, Creator_pxa270_led_cmd]
    by_cases hlt : led.toNat % 256 < 8
    · have hlt' : (led.setWidth 8).toNat < 8 := by omega
      have hlight := h.light (led_bit_set h.leds hlt') rows_bit_set
      simp only [hmod] at hlight
      rw [if_neg (by omega), dif_pos hlt]
      exact ⟨hlight, rfl⟩
    · rw [if_pos (by omega), dif_neg hlt]
      exact ⟨h, rfl⟩
  | bit_clear =>
    simp only [lights, lamps, Creator_pxa270_led_cmd]
    by_cases hlt : led.toNat % 256 < 8
    · have hlt' : (led.setWidth 8).toNat < 8 := by omega
      have hlight := h.light (led_bit_clear h.leds hlt') (rows_bit_clear h.rows)
      simp only [hmod] at hlight
      rw [if_neg (by omega), dif_pos hlt]
      exact ⟨hlight, rfl⟩
    · rw [if_pos (by omega), dif_neg hlt]
      exact ⟨h, rfl⟩

theorem Lamps.led_seen (t : Lamps) (cmd : LedCmd) (led : BitVec 16) :
    (lamps.step t (.led cmd led)).1.seen = t.seen := by
  cases cmd with
  | set => rfl
  | bit_set =>
    simp only [lamps]
    split_ifs <;> rfl
  | bit_clear =>
    simp only [lamps]
    split_ifs <;> rfl

theorem Lamps.put_seen (t : Lamps) (info : _7seg_info_t) : (t.put info).1.seen = t.seen := by
  unfold Lamps.put
  split_ifs <;> rfl

theorem Shines.step {s : Lights} {t : Lamps} (h : Shines s t) (e : LightCall) :
    Shines (lights.step s e).1 (lamps.step t e).1 ∧ (lights.step s e).2 = (lamps.step t e).2 ∧
      look t.seen (lights.step s e).1.IO_REG0 = (lamps.step t e).1.seen := by
  have hrests {s' : Lights} {t' : Lamps} (h' : Shines s' t') (hseen : t'.seen = t.seen) :
      look t.seen s'.IO_REG0 = t'.seen := by
    rw [← hseen]
    exact h'.rests
  cases e with
  | led cmd led =>
    obtain ⟨hled, hout⟩ := h.led cmd led
    exact ⟨hled, hout, hrests hled (t.led_seen cmd led)⟩
  | seg_on =>
    have hon : Shines (lights.step s .seg_on).1 { t with running := true } := by
      simp only [lights]
      split_ifs with hstart
      · have hrunning : t.running = true := h.running.symm.trans hstart
        exact ⟨h.leds, h.rows, h.lit, h.written, h.digits, h.turn, hstart, hrunning ▸ h.timer, h.free, h.rests⟩
      · exact ⟨h.leds, h.rows, h.lit, h.written, h.digits, h.turn, rfl, by simp, h.free, h.rests⟩
    refine ⟨hon, ?_, hrests hon rfl⟩
    simp only [lights]
    split_ifs <;> rfl
  | seg_off =>
    have hoff : Shines (lights.step s .seg_off).1 { t with running := false } := by
      simp only [lights]
      split_ifs with hstart
      · exact ⟨h.leds, h.rows, h.lit, h.written, h.digits, h.turn, rfl, by simp, h.free, h.rests⟩
      · have hrunning : t.running = false := h.running.symm.trans (by simpa using hstart)
        exact ⟨h.leds, h.rows, h.lit, h.written, h.digits, h.turn, by simpa using hstart, hrunning ▸ h.timer, h.free,
          h.rests⟩
    refine ⟨hoff, ?_, hrests hoff rfl⟩
    simp only [lights]
    split_ifs <;> rfl
  | seg_set info =>
    obtain ⟨hput, hout⟩ := h.put info
    exact ⟨hput, hout, hrests hput (t.put_seen info)⟩
  | scan =>
    have hscan : Shines (lights.step s .scan).1 { t with lit := some t.leds } := by
      refine ⟨h.leds, h.rows, ?_, ?_, h.digits, h.turn, h.running, h.timer, h.free, h.rests⟩
      · apply congrArg some
        exact litLeds_or h.leds (by decide)
      · intro r hr
        obtain rfl := Option.mem_some.mp hr
        right
        exact rows_or h.rows 0xf7
    exact ⟨hscan, rfl, hrests hscan rfl⟩
  | irq =>
    obtain ⟨hirq, hlook⟩ := h.irq
    exact ⟨hirq, rfl, hlook⟩
  | ee e => exact ⟨h.ee e, rfl, hrests (h.ee e) rfl⟩

theorem Shines.run {s : Lights} {t : Lamps} (h : Shines s t) (es : List LightCall) :
    Shines (lights.run s es) (lamps.run t es) ∧
      (lights.trace s es).map Moment.out = (lamps.trace t es).map Moment.out ∧
      lookAll t.seen (lights.trace s es) = (lamps.run t es).seen := by
  induction es generalizing s t with
  | nil => exact ⟨h, rfl, rfl⟩
  | cons e es ih =>
    obtain ⟨hstep, hout, hlook⟩ := h.step e
    obtain ⟨hrun, houts, hseen⟩ := ih hstep
    refine ⟨hrun, ?_, ?_⟩
    · rw [Machine.trace, Machine.trace, List.map_cons, List.map_cons, houts]
      exact congrArg (· :: _) hout
    · rw [Machine.trace, lookAll, List.foldl_cons, Machine.moment_post, hlook]
      exact hseen

theorem start_shines : Shines Initial_7SEG Lamps.start := by
  refine ⟨?_, rfl, rfl, ?_, ?_, rfl, rfl, ?_, rfl, ?_⟩
  · decide
  · intro r hr
    cases hr
  · decide
  · decide
  · decide

theorem lights_are_lamps (es : List LightCall) :
    let s := lights.run Initial_7SEG es
    let t := lamps.run Lamps.start es
    (lights.trace Initial_7SEG es).map Moment.out = (lamps.trace Lamps.start es).map Moment.out ∧
      s.IO_REG2.map litLeds = t.lit ∧ lookAll Lamps.start.seen (lights.trace Initial_7SEG es) = t.seen ∧
      (∀ r ∈ s.IO_REG2, r.setWidth 8 = 0xfe ∨ r.setWidth 8 = 0xf7) ∧
      ∀ row : BitVec 16, (s.scan_led ||| row).setWidth 8 = row.setWidth 8 := by
  obtain ⟨hrun, hout, hseen⟩ := start_shines.run es
  exact ⟨hout, hrun.lit, hseen, hrun.written, rows_or hrun.rows⟩

def isIrq : LightCall → Bool
  | .irq => true
  | _ => false

def Quiet : LightCall → Prop
  | .seg_set _ => False
  | .seg_off => False
  | _ => True

instance : DecidablePred Quiet := fun e => by
  cases e <;> unfold Quiet <;> infer_instance

theorem lamps_quiet (t : Lamps) {e : LightCall} (he : Quiet e) (hirq : isIrq e = false) :
    (lamps.step t e).1.digits = t.digits ∧ (lamps.step t e).1.turn = t.turn ∧ (lamps.step t e).1.seen = t.seen ∧
      (t.running = true → (lamps.step t e).1.running = true) := by
  cases e with
  | led cmd led =>
    cases cmd with
    | set => exact ⟨rfl, rfl, rfl, id⟩
    | bit_set =>
      simp only [lamps]
      split_ifs <;> exact ⟨rfl, rfl, rfl, id⟩
    | bit_clear =>
      simp only [lamps]
      split_ifs <;> exact ⟨rfl, rfl, rfl, id⟩
  | seg_on => exact ⟨rfl, rfl, rfl, fun _ => rfl⟩
  | seg_off => exact he.elim
  | seg_set info => exact he.elim
  | scan => exact ⟨rfl, rfl, rfl, id⟩
  | irq => cases hirq
  | ee e => exact ⟨rfl, rfl, rfl, id⟩

theorem lamps_irq {t : Lamps} (hrunning : t.running = true) :
    (lamps.step t .irq).1 =
      { t with turn := t.turn + 1, seen := Function.update t.seen (t.turn + 1) (t.digits (t.turn + 1)) } :=
  if_pos hrunning

theorem lamps_turns {t : Lamps} (hrunning : t.running = true) {fs : List LightCall} (hquiet : ∀ e ∈ fs, Quiet e)
    (i : Fin 4) (hi : t.seen i = t.digits i ∨ ∃ k : ℕ, k < fs.countP isIrq ∧ i = t.turn + 1 + Fin.ofNat 4 k) :
    (lamps.run t fs).seen i = t.digits i := by
  induction fs generalizing t with
  | nil =>
    obtain hi | ⟨k, hk, -⟩ := hi
    · exact hi
    · simp at hk
  | cons e fs ih =>
    have hrest : ∀ f ∈ fs, Quiet f := fun f hf => hquiet f (List.mem_cons_of_mem _ hf)
    rw [Machine.run_cons]
    cases hirq : isIrq e with
    | false =>
      obtain ⟨hdigits, hturn, hseen, hon⟩ := lamps_quiet t (hquiet e (List.mem_cons_self ..)) hirq
      rw [← hdigits]
      apply ih (hon hrunning) hrest
      rw [hdigits, hturn, hseen]
      rwa [List.countP_cons_of_neg (by simp [hirq])] at hi
    | true =>
      cases e <;> try cases hirq
      rw [lamps_irq hrunning]
      refine ih (t := { t with turn := _, seen := _ }) hrunning hrest ?_
      by_cases hnow : i = t.turn + 1
      · left
        rw [hnow]
        exact Function.update_self ..
      · obtain hi | ⟨k, hk, rfl⟩ := hi
        · left
          exact (Function.update_of_ne hnow _ _).trans hi
        · right
          cases k with
          | zero => exact absurd (by simp) hnow
          | succ k =>
            rw [List.countP_cons_of_pos rfl] at hk
            have hsucc : Fin.ofNat 4 (k + 1) = 1 + Fin.ofNat 4 k := by
              ext
              simp only [Fin.val_ofNat, Fin.val_add, Fin.val_one]
              omega
            refine ⟨k, by omega, ?_⟩
            rw [hsucc, ← add_assoc]

theorem lamps_refreshed {t : Lamps} (hrunning : t.running = true) {fs : List LightCall} (hquiet : ∀ e ∈ fs, Quiet e)
    (hfour : 4 ≤ fs.countP isIrq) : (lamps.run t fs).seen = t.digits := by
  funext i
  apply lamps_turns hrunning hquiet
  right
  refine ⟨(i - t.turn - 1 : Fin 4).val, by omega, ?_⟩
  rw [Fin.ofNat_val_eq_self]
  abel

theorem display_refreshed (es fs : List LightCall) (hon : (lights.run Initial_7SEG es).Start7SegmentLED = true)
    (hquiet : ∀ e ∈ fs, Quiet e) (hfour : 4 ≤ fs.countP isIrq) :
    lookAll Lamps.start.seen (lights.trace Initial_7SEG (es ++ fs)) =
      fun i => ~~~(lights.run Initial_7SEG es).seven_seg_buf i := by
  have hes := (start_shines.run es).1
  have hseen := (start_shines.run (es ++ fs)).2.2
  have hrunning : (lamps.run Lamps.start es).running = true := hes.running.symm.trans hon
  rw [hseen, Machine.run_append, lamps_refreshed hrunning hquiet hfour]
  funext i
  exact (hes.digits i).symm

theorem display_refreshed_greeting :
    lookAll Lamps.start.seen (lights.trace Initial_7SEG [.irq, .irq, .irq, .irq]) = ![0x6f, 0x5c, 0x5c, 0x5e] := by
  have h := display_refreshed [] [.irq, .irq, .irq, .irq] rfl (by decide) (by decide)
  rw [List.nil_append] at h
  rw [h]
  decide

end EmbeddedOS.Board
