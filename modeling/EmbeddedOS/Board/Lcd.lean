import EmbeddedOS.Board.Font
import EmbeddedOS.Library.Runs

/-!
The text functions of `creator-pxa270-lcd.c`, and the LCD controller as its initialisation describes it: a memory of
`0x800` words that is written in order, and a register for the raster row that is shown at the top.
-/

namespace EmbeddedOS.Board

open Runs

abbrev LCD_CURSOR : ℕ := 8
abbrev LCD_VET_SCROLL : ℕ := 0xa
abbrev LCD_HOR_CURSOR_POS : ℕ := 0xb
abbrev LCD_VER_CURSOR_POS : ℕ := 0xc
abbrev LCD_RAM_ADDR : ℕ := 0x11
abbrev LCD_RAM_DATA : ℕ := 0x12

/-- `address` has the eleven bits AD10-0. -/
structure Controller where
  ram : ℕ → ℕ
  address : ℕ
  reg : ℕ → ℕ

def WriteLCD (k : Controller) (addr data : ℕ) : Controller :=
  if addr = LCD_RAM_ADDR then { k with address := data % 0x800 }
  else if addr = LCD_RAM_DATA then
    { k with ram := Function.update k.ram k.address data, address := (k.address + 1) % 0x800 }
  else { k with reg := Function.update k.reg addr data }

def Controller.glass (k : Controller) (raster column : ℕ) : ℕ :=
  k.ram (((raster + k.reg LCD_VET_SCROLL % 128) % 128) * 0x10 + column)

abbrev byFontHeight : ℕ := 8
abbrev byFontWidth : ℕ := 8
abbrev ScrWidth : ℕ := 128 / byFontWidth
abbrev ScrHeight : ℕ := 128 / byFontHeight
abbrev TABS : ℕ := 4

/-- `Xpos`, `Ypos` and `YScrollOffset` are `unsigned char`s. -/
structure Lcd where
  ctl : Controller
  Xpos : ℕ
  Ypos : ℕ
  YScrollOffset : ℕ
  byCursorOn : Bool
  byCursorMode : ℕ

def LCD_PutRAMData (k : Controller) (address data : ℕ) : Controller :=
  WriteLCD (WriteLCD k LCD_RAM_ADDR address) LCD_RAM_DATA data

/-- `addr` is an `unsigned short`, also where the line is above the first of the memory. -/
def LCD_displ (s : Lcd) (x y ch : ℕ) : Lcd :=
  let data := if 0x20 ≤ ch ∧ ch ≤ 0x7E then ch else 0x20
  let YRelation : ℤ := y - s.YScrollOffset
  let addr := ((x + YRelation * 0x80) % 0x10000).toNat
  let drawn := (List.range byFontWidth).foldl
    (fun (p : Controller × ℕ) i => (LCD_PutRAMData p.1 p.2 (charset data i), (p.2 + 0x10) % 0x10000)) (s.ctl, addr)
  { s with ctl := drawn.1 }

def LCD_ClearOneLine (s : Lcd) (y : ℕ) : Lcd :=
  { (List.range ScrWidth).foldl (fun s x => LCD_displ s x y 0x20) s with Xpos := 0 }

def LCD_scroll (s : Lcd) : Lcd :=
  let s := { s with YScrollOffset := if s.YScrollOffset = 0 then ScrHeight - 1 else s.YScrollOffset - 1 }
  let top := ((byFontHeight * ((s.Ypos : ℤ) - s.YScrollOffset + 1)) % 0x10000).toNat
  LCD_ClearOneLine { s with ctl := WriteLCD s.ctl LCD_VET_SCROLL top } s.Ypos

def LCD_SetCursor (s : Lcd) (x y : ℤ) : Lcd :=
  let HS := ((x * byFontWidth) % 0x10000).toNat
  let HE := (HS + (byFontWidth - 1)) % 0x10000
  let VS := (((y + 1) * byFontHeight - 2) % 0x10000).toNat
  { s with
    ctl := WriteLCD (WriteLCD s.ctl LCD_HOR_CURSOR_POS ((HE * 0x100 + HS) % 0x10000)) LCD_VER_CURSOR_POS
      (((VS + 1) * 0x100 + VS) % 0x10000)
    Xpos := (x % 0x100).toNat
    Ypos := (y % 0x100).toNat }

def placeCursor (s : Lcd) : Lcd := if s.byCursorOn then LCD_SetCursor s s.Xpos s.Ypos else s

def putNewline (s : Lcd) : Lcd :=
  placeCursor { (if s.Ypos = ScrHeight - 1 then LCD_scroll s else { s with Ypos := (s.Ypos + 1) % 0x100 }) with Xpos := 0 }

def putDefault (s : Lcd) (c : ℕ) : Lcd :=
  let s := if s.Xpos + 1 ≥ ScrWidth then putNewline s else s
  placeCursor { LCD_displ s s.Xpos s.Ypos c with Xpos := (s.Xpos + 1) % 0x100 }

def doWhile {σ : Type*} (body : σ → σ) (again : σ → Prop) [DecidablePred again] : ℕ → σ → Option σ
  | 0, _ => none
  | rounds + 1, s => if again (body s) then doWhile body again rounds (body s) else some (body s)

/-- The loop of a tab has ended after at most `2 * TABS` rounds. -/
def LCD_putchar (s : Lcd) (c : ℕ) : Lcd :=
  if c = 10 then putNewline s
  else if c = 9 then
    placeCursor ((doWhile (fun s => putDefault s 0x20) (fun s => s.Xpos % TABS ≠ 0) (2 * TABS) s).getD s)
  else putDefault s c

def LCD_ClearViewArea (k : Controller) : Controller :=
  let k := WriteLCD k LCD_RAM_ADDR 0
  let k := (List.range 0x800).foldl (fun k _ => WriteLCD k LCD_RAM_DATA 0) k
  WriteLCD k LCD_VET_SCROLL 0

def LCD_ClearScreen (s : Lcd) : Lcd :=
  let s := { s with ctl := LCD_ClearViewArea s.ctl, Xpos := 0, Ypos := 0, YScrollOffset := 0 }
  let s := { s with ctl := WriteLCD s.ctl LCD_VET_SCROLL 0 }
  LCD_SetCursor s s.Xpos s.Ypos

def LCD_EnableCursor (s : Lcd) (bCursorOn : Bool) : Lcd :=
  { s with
    byCursorOn := bCursorOn
    ctl := WriteLCD s.ctl LCD_CURSOR (if bCursorOn then s.byCursorMode ||| 0x04 else 0) }

def initialRegisters : List (ℕ × ℕ) :=
  [(0, 1), (1, 0x030f), (2, 0), (3, 0x23c), (4, 0x18), (5, 0x10), (6, 0), (LCD_CURSOR, 4), (9, 0),
    (LCD_VET_SCROLL, 0), (LCD_HOR_CURSOR_POS, 0), (0x10, 0), (LCD_RAM_ADDR, 0), (7, 1)]

/-- `Initial_LCD`, and the cursor that the module switches on after it. -/
def Initial_LCD (k : Controller) : Lcd :=
  let k := initialRegisters.foldl (fun k p => WriteLCD k p.1 p.2) k
  let s := LCD_ClearScreen ⟨k, 0, 0, 0, false, 0⟩
  let s := { s with byCursorMode := 1 &&& 0x3 }
  LCD_EnableCursor (LCD_EnableCursor s false) true

inductive Ioctl where
  | clear
  | write (msg : List ℕ)
  | cur_on
  | cur_off
  | cur_get
  | cur_set (x y : ℤ)

def lcd : Machine Lcd Ioctl (Option (ℕ × ℕ)) where
  step s e :=
    match e with
    | .clear => (LCD_ClearScreen s, none)
    | .write msg => (msg.foldl LCD_putchar s, none)
    | .cur_on => (LCD_EnableCursor s true, none)
    | .cur_off => (LCD_EnableCursor s false, none)
    | .cur_get => (s, some (s.Xpos, s.Ypos))
    | .cur_set x y => (LCD_SetCursor s x y, none)

section Writes

variable (k : Controller) (addr data : ℕ)

theorem WriteLCD_reg (h : addr ≠ LCD_RAM_ADDR) (h' : addr ≠ LCD_RAM_DATA) :
    WriteLCD k addr data = { k with reg := Function.update k.reg addr data } := by
  rw [WriteLCD, if_neg h, if_neg h']

theorem putRAMData_ram : (LCD_PutRAMData k addr data).ram = Function.update k.ram (addr % 0x800) data := rfl

end Writes

theorem strokes (k : Controller) {addr : ℕ} (haddr : addr < 0x10000) (f : ℕ → ℕ) {n : ℕ} (hn : n ≤ 8) :
    let p := (List.range n).foldl
      (fun (p : Controller × ℕ) i => (LCD_PutRAMData p.1 p.2 (f i), (p.2 + 0x10) % 0x10000)) (k, addr)
    p.2 = (addr + 0x10 * n) % 0x10000 ∧ p.1.reg = k.reg ∧
      (∀ i < n, p.1.ram ((addr + 0x10 * i) % 0x800) = f i) ∧
      ∀ a, (∀ i < n, a ≠ (addr + 0x10 * i) % 0x800) → p.1.ram a = k.ram a := by
  induction n with
  | zero => exact ⟨(Nat.mod_eq_of_lt haddr).symm, rfl, fun i hi => absurd hi (Nat.not_lt_zero i), fun _ _ => rfl⟩
  | succ n ih =>
    obtain ⟨hnext, hreg, hdrawn, hother⟩ := ih (by omega)
    simp only [List.range_succ, List.foldl_append, List.foldl_cons, List.foldl_nil]
    set p := (List.range n).foldl
      (fun (p : Controller × ℕ) i => (LCD_PutRAMData p.1 p.2 (f i), (p.2 + 0x10) % 0x10000)) (k, addr)
    have hat : p.2 % 0x800 = (addr + 0x10 * n) % 0x800 := by omega
    refine ⟨by omega, hreg, fun i hi => ?_, fun a ha => ?_⟩
    · rw [putRAMData_ram, hat]
      by_cases hin : i = n
      · rw [hin, Function.update_self]
      · rw [Function.update_of_ne (by omega), hdrawn i (by omega)]
    · rw [putRAMData_ram, hat, Function.update_of_ne (ha n (by omega))]
      exact hother a fun i hi => ha i (by omega)

def cellAddr (offset r c i : ℕ) : ℕ := ((((r : ℤ) - offset) * 0x80 + 0x10 * i + c) % 0x800).toNat

theorem cellAddr_inj {offset r c i r' c' i' : ℕ} (hr : r ≤ 15) (hc : c ≤ 15) (hi : i < 8) (hr' : r' ≤ 15)
    (hc' : c' ≤ 15) (hi' : i' < 8) (h : cellAddr offset r c i = cellAddr offset r' c' i') :
    r = r' ∧ c = c' ∧ i = i' := by
  unfold cellAddr at h
  omega

def Lcd.cell (s : Lcd) (r c i : ℕ) : ℕ := s.ctl.ram (cellAddr s.YScrollOffset r c i)

def shown (ch : ℕ) : ℕ := if 0x20 ≤ ch ∧ ch ≤ 0x7E then ch else 0x20

section Displ

variable (s : Lcd) {x y : ℕ} (ch : ℕ)

theorem displ_drawn (hx : x ≤ 15) :
    (LCD_displ s x y ch).ctl.reg = s.ctl.reg ∧
      (∀ i < 8, (LCD_displ s x y ch).ctl.ram (cellAddr s.YScrollOffset y x i) = charset (shown ch) i) ∧
      ∀ a, (∀ i < 8, a ≠ cellAddr s.YScrollOffset y x i) → (LCD_displ s x y ch).ctl.ram a = s.ctl.ram a := by
  set addr := (((x : ℤ) + ((y : ℤ) - s.YScrollOffset) * 0x80) % 0x10000).toNat with haddr
  have hlt : addr < 0x10000 := by omega
  have hcell (i : ℕ) : (addr + 0x10 * i) % 0x800 = cellAddr s.YScrollOffset y x i := by
    unfold cellAddr
    omega
  obtain ⟨-, hreg, hdrawn, hother⟩ := strokes s.ctl hlt (charset (shown ch)) (le_refl 8)
  refine ⟨hreg, fun i hi => ?_, fun a ha => ?_⟩
  · rw [← hcell i]
    exact hdrawn i hi
  · apply hother
    intro i hi
    rw [hcell i]
    exact ha i hi

theorem displ_reg (hx : x ≤ 15) : (LCD_displ s x y ch).ctl.reg = s.ctl.reg := (displ_drawn s ch hx).1

theorem displ_cell (hx : x ≤ 15) (hy : y ≤ 15) {r c i : ℕ} (hr : r ≤ 15) (hc : c ≤ 15) (hi : i < 8) :
    (LCD_displ s x y ch).cell r c i = if r = y ∧ c = x then charset (shown ch) i else s.cell r c i := by
  obtain ⟨-, hdrawn, hother⟩ := displ_drawn s (y := y) ch hx
  by_cases h : r = y ∧ c = x
  · rw [if_pos h, h.1, h.2]
    exact hdrawn i hi
  · rw [if_neg h]
    apply hother
    intro j hj he
    have heq := cellAddr_inj hr hc hi hy hx hj he
    exact h ⟨heq.1, heq.2.1⟩

end Displ

structure Draws (s s' : Lcd) : Prop where
  reg : s'.ctl.reg = s.ctl.reg
  y : s'.Ypos = s.Ypos
  offset : s'.YScrollOffset = s.YScrollOffset
  on : s'.byCursorOn = s.byCursorOn
  mode : s'.byCursorMode = s.byCursorMode

def clearColumns (s : Lcd) (y n : ℕ) : Lcd := (List.range n).foldl (fun s x => LCD_displ s x y 0x20) s

theorem clearColumns_succ (s : Lcd) (y n : ℕ) :
    clearColumns s y (n + 1) = LCD_displ (clearColumns s y n) n y 0x20 := by
  simp [clearColumns, List.range_succ]

theorem clearOneLine_eq (s : Lcd) (y : ℕ) :
    LCD_ClearOneLine s y = { clearColumns s y ScrWidth with Xpos := 0 } := rfl

theorem clearColumns_draws (s : Lcd) (y : ℕ) {n : ℕ} (hn : n ≤ 16) : Draws s (clearColumns s y n) := by
  induction n with
  | zero => exact ⟨rfl, rfl, rfl, rfl, rfl⟩
  | succ n ih =>
    obtain ⟨hreg, hy, hoffset, hon, hmode⟩ := ih (by omega)
    rw [clearColumns_succ]
    exact ⟨(displ_reg _ _ (by omega)).trans hreg, hy, hoffset, hon, hmode⟩

theorem clearColumns_cell (s : Lcd) {y n : ℕ} (hn : n ≤ 16) (hy : y ≤ 15) {r c i : ℕ} (hr : r ≤ 15) (hc : c ≤ 15)
    (hi : i < 8) : (clearColumns s y n).cell r c i = if r = y ∧ c < n then charset 0x20 i else s.cell r c i := by
  induction n with
  | zero => exact (if_neg (by omega)).symm
  | succ n ih =>
    have hspace : shown 0x20 = 0x20 := rfl
    rw [clearColumns_succ, displ_cell _ _ (by omega) hy hr hc hi, ih (by omega), hspace]
    by_cases hrow : r = y
    · by_cases hcn : c = n
      · rw [if_pos ⟨hrow, hcn⟩, if_pos ⟨hrow, by omega⟩]
      · rw [if_neg (by omega)]
        by_cases hlt : c < n
        · rw [if_pos ⟨hrow, hlt⟩, if_pos ⟨hrow, by omega⟩]
        · rw [if_neg (by omega), if_neg (by omega)]
    · rw [if_neg (by omega), if_neg (by omega), if_neg (by omega)]

theorem clearOneLine_draws (s : Lcd) (y : ℕ) : Draws s (LCD_ClearOneLine s y) := by
  have h := clearColumns_draws s y (n := ScrWidth) (by decide)
  rw [clearOneLine_eq]
  generalize clearColumns s y ScrWidth = t at h ⊢
  exact ⟨h.reg, h.y, h.offset, h.on, h.mode⟩

theorem clearOneLine_cell (s : Lcd) {y : ℕ} (hy : y ≤ 15) {r c i : ℕ} (hr : r ≤ 15) (hc : c ≤ 15) (hi : i < 8) :
    (LCD_ClearOneLine s y).cell r c i = if r = y then charset 0x20 i else s.cell r c i := by
  have hcell := clearColumns_cell s (n := ScrWidth) (by decide) hy hr hc hi
  have hlt : c < ScrWidth := by
    change c < 16
    omega
  rw [clearOneLine_eq]
  generalize clearColumns s y ScrWidth = t at hcell ⊢
  change t.cell r c i = _
  rw [hcell]
  by_cases hrow : r = y
  · rw [if_pos ⟨hrow, hlt⟩, if_pos hrow]
  · rw [if_neg (fun h => hrow h.1), if_neg hrow]

end EmbeddedOS.Board
