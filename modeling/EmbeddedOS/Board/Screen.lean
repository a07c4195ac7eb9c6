import EmbeddedOS.Board.Lcd
import EmbeddedOS.Library.Terminals

namespace EmbeddedOS.Board

open Runs Terminals

theorem tabs_le : TABS ≤ ScrWidth - 1 := by decide

theorem scrHeight_pos : 0 < ScrHeight := by decide

def lcdFormat : Format := ⟨ScrWidth - 1, ScrHeight, TABS, Nat.succ_pos 3, tabs_le, scrHeight_pos⟩

structure Panel where
  terminal : Terminal ℕ
  cursorOn : Bool
  mark : ℕ × ℕ

def keyOf (c : ℕ) : Key ℕ := if c = 10 then .newline else if c = 9 then .tab else .char (shown c)

def Panel.moved (p : Panel) (t : Terminal ℕ) : Panel :=
  ⟨t, p.cursorOn, if p.cursorOn then (t.x, t.y) else p.mark⟩

def Panel.type (p : Panel) (c : ℕ) : Panel := p.moved (p.terminal.type lcdFormat 0x20 (keyOf c))

def panel : Machine Panel Ioctl (Option (ℕ × ℕ)) where
  step p e :=
    match e with
    | .clear => (⟨Terminal.cleared 0x20, p.cursorOn, (0, 0)⟩, none)
    | .write msg => (msg.foldl Panel.type p, none)
    | .cur_on => ({ p with cursorOn := true }, none)
    | .cur_off => ({ p with cursorOn := false }, none)
    | .cur_get => (p, some (p.terminal.x, p.terminal.y))
    | .cur_set x y => (⟨⟨p.terminal.screen, x.toNat, y.toNat⟩, p.cursorOn, (x.toNat, y.toNat)⟩, none)

def Ioctl.OnScreen : Ioctl → Prop
  | .cur_set x y => (0 ≤ x ∧ x ≤ 15) ∧ 0 ≤ y ∧ y ≤ 15
  | _ => True

def horizontal (x : ℕ) : ℕ := (8 * x + 7) * 0x100 + 8 * x

def vertical (y : ℕ) : ℕ := (8 * y + 7) * 0x100 + (8 * y + 6)

structure Shows (s : Lcd) (p : Panel) : Prop where
  x : s.Xpos = p.terminal.x
  y : s.Ypos = p.terminal.y
  within_ : p.terminal.Within lcdFormat
  offset : s.YScrollOffset ≤ 15
  top : s.ctl.reg LCD_VET_SCROLL % 128 = 8 * (16 - s.YScrollOffset) % 128
  cells : ∀ r ≤ 15, ∀ c ≤ 15, ∀ i < 8, s.cell r c i = charset (p.terminal.screen r c) i
  plain : ∀ r c, Printable (p.terminal.screen r c)
  on : s.byCursorOn = p.cursorOn
  mark : s.ctl.reg LCD_HOR_CURSOR_POS = horizontal p.mark.1 ∧ s.ctl.reg LCD_VER_CURSOR_POS = vertical p.mark.2

theorem printable_shown (ch : ℕ) : Printable (shown ch) := by
  unfold shown Printable
  split_ifs with h
  · exact h
  · decide

theorem setCursor_eq (s : Lcd) {x y : ℕ} (hx : x ≤ 15) (hy : y ≤ 15) :
    LCD_SetCursor s x y = { s with
      ctl := { s.ctl with
        reg := Function.update (Function.update s.ctl.reg LCD_HOR_CURSOR_POS (horizontal x)) LCD_VER_CURSOR_POS
          (vertical y) }
      Xpos := x
      Ypos := y } := by
  have hHS : (((x : ℤ) * byFontWidth) % 0x10000).toNat = 8 * x := by
    simp only [byFontWidth]
    omega
  have hVS : ((((y : ℤ) + 1) * byFontHeight - 2) % 0x10000).toNat = 8 * y + 6 := by
    simp only [byFontHeight]
    omega
  have hHE : (8 * x + (byFontWidth - 1)) % 0x10000 = 8 * x + 7 := Nat.mod_eq_of_lt (by change 8 * x + 7 < _; omega)
  have hhor : ((8 * x + 7) * 0x100 + 8 * x) % 0x10000 = horizontal x := Nat.mod_eq_of_lt (by omega)
  have hver : ((8 * y + 6 + 1) * 0x100 + (8 * y + 6)) % 0x10000 = vertical y := Nat.mod_eq_of_lt (by omega)
  have hX : ((x : ℤ) % 0x100).toNat = x := by omega
  have hY : ((y : ℤ) % 0x100).toNat = y := by omega
  rw [LCD_SetCursor]
  simp only [hHS, hVS, hHE, hhor, hver, hX, hY]
  rw [WriteLCD_reg _ _ _ (by decide) (by decide), WriteLCD_reg _ _ _ (by decide) (by decide)]

section Cursor

variable {s : Lcd} {p : Panel}

theorem Shows.setCursor (h : Shows s p) {x y : ℕ} (hx : x ≤ 15) (hy : y ≤ 15) :
    Shows (LCD_SetCursor s x y) ⟨⟨p.terminal.screen, x, y⟩, p.cursorOn, (x, y)⟩ := by
  have htop : Function.update (Function.update s.ctl.reg LCD_HOR_CURSOR_POS (horizontal x)) LCD_VER_CURSOR_POS
      (vertical y) LCD_VET_SCROLL = s.ctl.reg LCD_VET_SCROLL := by
    rw [Function.update_of_ne (by decide), Function.update_of_ne (by decide)]
  have hhor : Function.update (Function.update s.ctl.reg LCD_HOR_CURSOR_POS (horizontal x)) LCD_VER_CURSOR_POS
      (vertical y) LCD_HOR_CURSOR_POS = horizontal x := by
    rw [Function.update_of_ne (by decide), Function.update_self]
  have hver : Function.update (Function.update s.ctl.reg LCD_HOR_CURSOR_POS (horizontal x)) LCD_VER_CURSOR_POS
      (vertical y) LCD_VER_CURSOR_POS = vertical y := Function.update_self ..
  rw [setCursor_eq s hx hy]
  exact ⟨rfl, rfl, ⟨hx, hy⟩, h.offset, (congrArg (· % 128) htop).trans h.top, h.cells, h.plain, h.on, hhor, hver⟩

theorem Shows.place (h : Shows s p) : Shows (placeCursor s) (p.moved p.terminal) := by
  have hx : s.Xpos ≤ 15 := h.x ▸ h.within_.column
  have hy : s.Ypos ≤ 15 := h.y ▸ h.within_.row
  unfold placeCursor Panel.moved
  cases hon : s.byCursorOn with
  | true =>
    have hset := h.setCursor hx hy
    rw [h.x, h.y] at hset
    rw [← h.on, hon, if_pos rfl, if_pos rfl, h.x, h.y]
    rw [← h.on, hon] at hset
    exact hset
  | false =>
    rw [← h.on, hon, if_neg (by decide), if_neg (by decide)]
    obtain ⟨x, y, within_, offset, top, cells, plain, on, mark⟩ := h
    exact ⟨x, y, within_, offset, top, cells, plain, hon, mark⟩

end Cursor

def nextOffset (offset : ℕ) : ℕ := if offset = 0 then 15 else offset - 1

theorem nextOffset_le {offset : ℕ} (h : offset ≤ 15) : nextOffset offset ≤ 15 := by
  unfold nextOffset
  split_ifs <;> omega

theorem cellAddr_next {offset : ℕ} (h : offset ≤ 15) (r c i : ℕ) :
    cellAddr (nextOffset offset) r c i = cellAddr offset (r + 1) c i := by
  unfold cellAddr nextOffset
  split_ifs with h0
  · omega
  · omega

def turned (s : Lcd) : Lcd :=
  { s with
    YScrollOffset := nextOffset s.YScrollOffset
    ctl := { s.ctl with
      reg := Function.update s.ctl.reg LCD_VET_SCROLL (8 * (16 - nextOffset s.YScrollOffset)) } }

theorem scroll_eq {s : Lcd} (hy : s.Ypos = 15) (ho : s.YScrollOffset ≤ 15) :
    LCD_scroll s = LCD_ClearOneLine (turned s) 15 := by
  have hle := nextOffset_le ho
  have hoffset : (if s.YScrollOffset = 0 then ScrHeight - 1 else s.YScrollOffset - 1) = nextOffset s.YScrollOffset := rfl
  have htop : ((byFontHeight * ((15 : ℕ) - (nextOffset s.YScrollOffset : ℤ) + 1)) % 0x10000).toNat =
      8 * (16 - nextOffset s.YScrollOffset) := by
    simp only [byFontHeight]
    omega
  rw [LCD_scroll]
  simp only [hoffset, hy, htop]
  rw [WriteLCD_reg _ _ _ (by decide) (by decide)]
  unfold turned
  rw [hy]

section Lines

variable {s : Lcd} {p : Panel}

theorem Shows.scrolled (h : Shows s p) (hy : p.terminal.y = lcdFormat.last) :
    Shows { LCD_scroll s with Xpos := 0 } { p with terminal := p.terminal.newline lcdFormat 0x20 } := by
  obtain ⟨x, y, within_, offset, top, cells, plain, on, mark⟩ := h
  have hy15 : s.Ypos = 15 := y.trans hy
  have hdraws := clearOneLine_draws (turned s) 15
  have hcell {r c i : ℕ} := clearOneLine_cell (turned s) (le_refl 15) (r := r) (c := c) (i := i)
  rw [scroll_eq hy15 offset, Terminal.newline, if_pos hy]
  generalize LCD_ClearOneLine (turned s) 15 = s' at hdraws hcell ⊢
  have hother {a : ℕ} (ha : a ≠ LCD_VET_SCROLL) : s'.ctl.reg a = s.ctl.reg a := by
    rw [hdraws.reg]
    exact Function.update_of_ne ha ..
  have hoffset : s'.YScrollOffset = nextOffset s.YScrollOffset := hdraws.offset
  refine ⟨rfl, (hdraws.y.trans y), ⟨Nat.zero_le _, within_.row⟩, hoffset ▸ nextOffset_le offset, ?_, ?_, ?_,
    hdraws.on.trans on, (hother (by decide)).trans mark.1, (hother (by decide)).trans mark.2⟩
  · have htop : (turned s).ctl.reg LCD_VET_SCROLL = 8 * (16 - nextOffset s.YScrollOffset) := by
      simp only [turned, Function.update_self]
    change s'.ctl.reg _ % 128 = 8 * (16 - s'.YScrollOffset) % 128
    rw [hdraws.reg, hoffset, htop]
  · intro r hr c hc i hi
    change s'.cell r c i = charset (if r = 15 then 0x20 else p.terminal.screen (r + 1) c) i
    rw [hcell hr hc hi]
    by_cases hlast : r = 15
    · rw [if_pos hlast, if_pos hlast]
    · rw [if_neg hlast, if_neg hlast, ← cells (r + 1) (by omega) c hc i hi]
      exact congrArg s.ctl.ram (cellAddr_next offset r c i)
  · intro r c
    change Printable (if r = lcdFormat.last then 0x20 else p.terminal.screen (r + 1) c)
    split_ifs
    · decide
    · exact plain _ _

theorem Shows.newline (h : Shows s p) :
    Shows (putNewline s) (p.moved (p.terminal.newline lcdFormat 0x20)) := by
  have hy := h.y
  unfold putNewline
  by_cases hlast : s.Ypos = ScrHeight - 1
  · rw [if_pos hlast]
    exact (h.scrolled (hy.symm.trans hlast)).place
  · have hne : p.terminal.y ≠ lcdFormat.last := fun he => hlast (hy.trans he)
    have hlt : p.terminal.y < 15 := lt_of_le_of_ne h.within_.row hne
    have hwrap : (s.Ypos + 1) % 0x100 = p.terminal.y + 1 := by omega
    have hdown : Shows { s with Ypos := (s.Ypos + 1) % 0x100, Xpos := 0 }
        { p with terminal := p.terminal.newline lcdFormat 0x20 } := by
      rw [Terminal.newline, if_neg hne]
      exact ⟨rfl, hwrap, ⟨Nat.zero_le _, hlt⟩, h.offset, h.top, h.cells, h.plain, h.on, h.mark⟩
    rw [if_neg hlast]
    exact hdown.place

theorem Shows.drawn (h : Shows s p) (hx : p.terminal.x < 15) (c : ℕ) :
    Shows { LCD_displ s s.Xpos s.Ypos c with Xpos := (s.Xpos + 1) % 0x100 }
      { p with terminal := p.terminal.write (shown c) } := by
  have hX : s.Xpos ≤ 15 := h.x.le.trans hx.le
  have hY : s.Ypos ≤ 15 := h.y ▸ h.within_.row
  have hreg := displ_reg s (y := s.Ypos) c hX
  have hcell {r i c' : ℕ} := displ_cell s c hX hY (r := r) (c := c') (i := i)
  have hnext : (s.Xpos + 1) % 0x100 = p.terminal.x + 1 := by
    have hxe := h.x
    omega
  refine ⟨hnext, h.y, ⟨hx, h.within_.row⟩, h.offset, ?_, ?_, ?_, h.on, ?_⟩
  · change (LCD_displ s s.Xpos s.Ypos c).ctl.reg _ % 128 = _
    rw [hreg]
    exact h.top
  · intro r hr c' hc' i hi
    change (LCD_displ s s.Xpos s.Ypos c).cell r c' i =
      charset (if r = p.terminal.y ∧ c' = p.terminal.x then shown c else p.terminal.screen r c') i
    rw [hcell hr hc' hi, h.x, h.y]
    split_ifs
    · rfl
    · exact h.cells r hr c' hc' i hi
  · intro r c'
    change Printable (if r = p.terminal.y ∧ c' = p.terminal.x then shown c else p.terminal.screen r c')
    split_ifs
    · exact printable_shown c
    · exact h.plain r c'
  · change (LCD_displ s s.Xpos s.Ypos c).ctl.reg _ = _ ∧ (LCD_displ s s.Xpos s.Ypos c).ctl.reg _ = _
    rw [hreg]
    exact h.mark

theorem moved_moved (t t' : Terminal ℕ) : (p.moved t).moved t' = p.moved t' := by
  unfold Panel.moved
  cases p.cursorOn
  · rfl
  · rfl

theorem Shows.default (h : Shows s p) (c : ℕ) :
    Shows (putDefault s c) (p.moved (p.terminal.put lcdFormat 0x20 (shown c))) := by
  unfold putDefault Terminal.put
  by_cases hm : s.Xpos + 1 ≥ ScrWidth
  · have hmargin : lcdFormat.margin ≤ p.terminal.x := by
      have hge : 16 ≤ s.Xpos + 1 := hm
      have hxe := h.x
      change 15 ≤ _
      omega
    have hline := h.newline
    have hx : (p.moved (p.terminal.newline lcdFormat 0x20)).terminal.x < 15 := by
      change (p.terminal.newline lcdFormat 0x20).x < 15
      unfold Terminal.newline
      split_ifs <;> exact Nat.succ_pos _
    have hdrawn := (hline.drawn hx c).place
    rw [if_pos hm, if_pos hmargin]
    have hsame := moved_moved (p := p) (p.terminal.newline lcdFormat 0x20)
      ((p.terminal.newline lcdFormat 0x20).write (shown c))
    rw [← hsame]
    exact hdrawn
  · have hmargin : ¬ lcdFormat.margin ≤ p.terminal.x := by
      intro hle
      have hge : 15 ≤ p.terminal.x := hle
      have hxe := h.x
      apply hm
      change 16 ≤ s.Xpos + 1
      omega
    rw [if_neg hm, if_neg hmargin]
    exact (h.drawn (not_le.mp hmargin) c).place

end Lines

theorem doWhile_eq {σ : Type*} {body : σ → σ} {again : σ → Prop} [DecidablePred again] {s : σ} {n rounds : ℕ}
    (hn : n < rounds) (hgo : ∀ j < n, again (body^[j + 1] s)) (hstop : ¬ again (body^[n + 1] s)) :
    doWhile body again rounds s = some (body^[n + 1] s) := by
  induction n generalizing s rounds with
  | zero =>
    obtain ⟨rounds, rfl⟩ := Nat.exists_eq_succ_of_ne_zero (by omega : rounds ≠ 0)
    exact if_neg hstop
  | succ n ih =>
    obtain ⟨rounds, rfl⟩ := Nat.exists_eq_succ_of_ne_zero (by omega : rounds ≠ 0)
    have hfirst : again (body s) := hgo 0 (Nat.succ_pos n)
    rw [doWhile, if_pos hfirst, ih (by omega) (fun j hj => hgo (j + 1) (by omega)) hstop]
    rfl

def nextColumn (x : ℕ) : ℕ := if 15 ≤ x then 1 else x + 1

theorem tab_columns : ∀ x ≤ 15, 0 < lcdFormat.blanks x ∧ lcdFormat.blanks x ≤ 2 * TABS ∧
    (∀ j < lcdFormat.blanks x, j ≠ 0 → nextColumn^[j] x % TABS ≠ 0) ∧
    nextColumn^[lcdFormat.blanks x] x % TABS = 0 := by
  decide

section Tab

variable {s : Lcd} {p : Panel}

theorem put_x (t : Terminal ℕ) (a : ℕ) : (t.put lcdFormat 0x20 a).x = nextColumn t.x := by
  unfold Terminal.put nextColumn
  by_cases hm : lcdFormat.margin ≤ t.x
  · have hx : (t.newline lcdFormat 0x20).x = 0 := by
      unfold Terminal.newline
      split_ifs <;> rfl
    have hm' : 15 ≤ t.x := hm
    rw [if_pos hm, if_pos hm']
    change (t.newline lcdFormat 0x20).x + 1 = 1
    rw [hx]
  · have hm' : ¬ 15 ≤ t.x := hm
    rw [if_neg hm, if_neg hm']
    rfl

theorem puts_x (t : Terminal ℕ) (n : ℕ) : (t.puts lcdFormat 0x20 n).x = nextColumn^[n] t.x := by
  induction n generalizing t with
  | zero => rfl
  | succ n ih =>
    change ((t.put lcdFormat 0x20 0x20).puts lcdFormat 0x20 n).x = nextColumn^[n] (nextColumn t.x)
    rw [ih, put_x]

theorem Shows.blanks (h : Shows s p) (n : ℕ) :
    Shows ((fun s => putDefault s 0x20)^[n + 1] s) (p.moved (p.terminal.puts lcdFormat 0x20 (n + 1))) := by
  induction n with
  | zero => exact h.default 0x20
  | succ n ih =>
    have hnext := ih.default 0x20
    rw [moved_moved] at hnext
    rw [Function.iterate_succ_apply']
    have hputs : p.terminal.puts lcdFormat 0x20 (n + 1 + 1) =
        (p.terminal.puts lcdFormat 0x20 (n + 1)).put lcdFormat 0x20 0x20 := Function.iterate_succ_apply' ..
    rw [hputs]
    exact hnext

theorem Shows.tab (h : Shows s p) :
    Shows (placeCursor ((doWhile (fun s => putDefault s 0x20) (fun s => s.Xpos % TABS ≠ 0) (2 * TABS) s).getD s))
      (p.moved (p.terminal.puts lcdFormat 0x20 (lcdFormat.blanks p.terminal.x))) := by
  obtain ⟨hpos, hle, hgo, hstop⟩ := tab_columns p.terminal.x h.within_.column
  obtain ⟨n, hn⟩ := Nat.exists_eq_succ_of_ne_zero hpos.ne'
  rw [hn] at hle hgo hstop ⊢
  have hcolumn (j : ℕ) : ((fun s => putDefault s 0x20)^[j + 1] s).Xpos = nextColumn^[j + 1] p.terminal.x := by
    rw [(h.blanks j).x]
    exact puts_x ..
  have hloop : doWhile (fun s => putDefault s 0x20) (fun s => s.Xpos % TABS ≠ 0) (2 * TABS) s =
      some ((fun s => putDefault s 0x20)^[n + 1] s) := by
    apply doWhile_eq hle
    · intro j hj
      rw [hcolumn]
      exact hgo (j + 1) (by omega) (Nat.succ_ne_zero j)
    · rw [hcolumn]
      exact not_not.mpr hstop
  rw [hloop, Option.getD_some]
  have hplaced := (h.blanks n).place
  rwa [moved_moved] at hplaced

theorem Shows.putchar (h : Shows s p) (c : ℕ) : Shows (LCD_putchar s c) (p.type c) := by
  unfold LCD_putchar Panel.type keyOf
  by_cases h10 : c = 10
  · rw [if_pos h10, if_pos h10]
    exact h.newline
  · rw [if_neg h10, if_neg h10]
    by_cases h9 : c = 9
    · rw [if_pos h9, if_pos h9]
      exact h.tab
    · rw [if_neg h9, if_neg h9]
      exact h.default c

theorem Shows.write (h : Shows s p) (msg : List ℕ) : Shows (msg.foldl LCD_putchar s) (msg.foldl Panel.type p) := by
  induction msg generalizing s p with
  | nil => exact h
  | cons c msg ih => exact ih (h.putchar c)

end Tab

theorem clearing (k : Controller) {n : ℕ} (hn : n ≤ 0x800) :
    let k' := (List.range n).foldl (fun k _ => WriteLCD k LCD_RAM_DATA 0) (WriteLCD k LCD_RAM_ADDR 0)
    k'.address = n % 0x800 ∧ k'.reg = k.reg ∧ ∀ a < n, k'.ram a = 0 := by
  induction n with
  | zero => exact ⟨rfl, rfl, fun a ha => absurd ha (Nat.not_lt_zero a)⟩
  | succ n ih =>
    obtain ⟨haddress, hreg, hram⟩ := ih (by omega)
    simp only [List.range_succ, List.foldl_append, List.foldl_cons, List.foldl_nil]
    set k' := (List.range n).foldl (fun k _ => WriteLCD k LCD_RAM_DATA 0) (WriteLCD k LCD_RAM_ADDR 0)
    refine ⟨?_, hreg, fun a ha => ?_⟩
    · change (k'.address + 1) % 0x800 = _
      omega
    · change Function.update k'.ram k'.address 0 a = 0
      by_cases han : a = k'.address
      · rw [han, Function.update_self]
      · rw [Function.update_of_ne han]
        exact hram a (by omega)

theorem charset_blank : ∀ i < 8, charset 0x20 i = 0 := by decide

theorem clear_shows (s : Lcd) : Shows (LCD_ClearScreen s) ⟨Terminal.cleared 0x20, s.byCursorOn, (0, 0)⟩ := by
  obtain ⟨-, hreg, hram⟩ := clearing s.ctl (le_refl 0x800)
  have hview : LCD_ClearViewArea s.ctl = WriteLCD ((List.range 0x800).foldl (fun k _ => WriteLCD k LCD_RAM_DATA 0)
      (WriteLCD s.ctl LCD_RAM_ADDR 0)) LCD_VET_SCROLL 0 := rfl
  rw [LCD_ClearScreen, hview]
  generalize (List.range 0x800).foldl (fun k _ => WriteLCD k LCD_RAM_DATA 0) (WriteLCD s.ctl LCD_RAM_ADDR 0) = k
    at hreg hram ⊢
  rw [WriteLCD_reg k _ _ (by decide) (by decide), WriteLCD_reg _ _ _ (by decide) (by decide)]
  have hset := setCursor_eq
    { s with
      ctl := { k with reg := Function.update (Function.update k.reg LCD_VET_SCROLL 0) LCD_VET_SCROLL 0 }
      Xpos := 0, Ypos := 0, YScrollOffset := 0 } (Nat.zero_le 15) (Nat.zero_le 15)
  refine hset ▸ ⟨rfl, rfl, ⟨Nat.zero_le _, Nat.zero_le _⟩, Nat.zero_le _, ?_, ?_, fun _ _ => ?_, rfl, ?_, ?_⟩
  · simp [Function.update_of_ne]
  · intro r hr c hc i hi
    have hlt : cellAddr 0 r c i < 0x800 := by
      unfold cellAddr
      omega
    exact (hram _ hlt).trans (charset_blank i hi).symm
  · exact (by decide : Printable 0x20)
  · simp [Function.update_of_ne]
  · simp [Function.update_self]

theorem Shows.enable {s : Lcd} {p : Panel} (h : Shows s p) (on : Bool) :
    Shows (LCD_EnableCursor s on) { p with cursorOn := on } := by
  have hreg {a : ℕ} (ha : a ≠ LCD_CURSOR) : (LCD_EnableCursor s on).ctl.reg a = s.ctl.reg a :=
    Function.update_of_ne ha ..
  refine ⟨h.x, h.y, h.within_, h.offset, ?_, h.cells, h.plain, rfl, ?_, ?_⟩
  · rw [hreg (by decide)]
    exact h.top
  · rw [hreg (by decide)]
    exact h.mark.1
  · rw [hreg (by decide)]
    exact h.mark.2

def Panel.start : Panel := ⟨Terminal.cleared 0x20, true, (0, 0)⟩

theorem start_shows (k : Controller) : Shows (Initial_LCD k) Panel.start := by
  have hclear := clear_shows ⟨initialRegisters.foldl (fun k p => WriteLCD k p.1 p.2) k, 0, 0, 0, false, 0⟩
  rw [Initial_LCD]
  generalize LCD_ClearScreen ⟨initialRegisters.foldl (fun k p => WriteLCD k p.1 p.2) k, 0, 0, 0, false, 0⟩ = s at hclear ⊢
  have hmode : Shows { s with byCursorMode := 1 &&& 0x3 } ⟨Terminal.cleared 0x20, false, (0, 0)⟩ :=
    ⟨hclear.x, hclear.y, hclear.within_, hclear.offset, hclear.top, hclear.cells, hclear.plain, hclear.on, hclear.mark⟩
  exact (hmode.enable false).enable true

theorem panel_step {s : Lcd} {p : Panel} (h : Shows s p) {e : Ioctl} (he : e.OnScreen) :
    Shows (lcd.step s e).1 (panel.step p e).1 ∧ (lcd.moment s e).out = (panel.moment p e).out := by
  cases e with
  | clear =>
    have hclear := clear_shows s
    rw [h.on] at hclear
    exact ⟨hclear, rfl⟩
  | write msg => exact ⟨h.write msg, rfl⟩
  | cur_on => exact ⟨h.enable true, rfl⟩
  | cur_off => exact ⟨h.enable false, rfl⟩
  | cur_get =>
    refine ⟨h, ?_⟩
    change some (s.Xpos, s.Ypos) = some (p.terminal.x, p.terminal.y)
    rw [h.x, h.y]
  | cur_set x y =>
    obtain ⟨⟨hx0, hx15⟩, hy0, hy15⟩ := he
    have hset := h.setCursor (x := x.toNat) (y := y.toNat) (by omega) (by omega)
    rw [Int.toNat_of_nonneg hx0, Int.toNat_of_nonneg hy0] at hset
    exact ⟨hset, rfl⟩

theorem panel_after (k : Controller) {es : List Ioctl} (h : ∀ e ∈ es, e.OnScreen) :
    Shows (lcd.run (Initial_LCD k) es) (panel.run Panel.start es) ∧
      List.Forall₂ (fun q q' => q.out = q'.out) (lcd.trace (Initial_LCD k) es) (panel.trace Panel.start es) := by
  apply lcd.lockstep_on (N := panel) (R := Shows) (A := Ioctl.OnScreen) (Q := fun q q' => q.out = q'.out)
  · intro s p e hR he
    exact panel_step hR he
  · exact start_shows k
  · exact h

theorem glass_eq {s : Lcd} {p : Panel} (h : Shows s p) {r c i : ℕ} (hr : r ≤ 15) (hc : c ≤ 15) (hi : i < 8) :
    s.ctl.glass (8 * r + i) c = charset (p.terminal.screen r c) i := by
  have haddr : (8 * r + i + 8 * (16 - s.YScrollOffset) % 128) % 128 * 0x10 + c = cellAddr s.YScrollOffset r c i := by
    have ho := h.offset
    unfold cellAddr
    omega
  rw [Controller.glass, h.top, haddr]
  exact h.cells r hr c hc i hi

theorem lcd_is_terminal (k : Controller) (es : List Ioctl) (h : ∀ e ∈ es, e.OnScreen) :
    let s := lcd.run (Initial_LCD k) es
    let p := panel.run Panel.start es
    (∀ r ≤ 15, ∀ c ≤ 15, ∀ i < 8, s.ctl.glass (8 * r + i) c = charset (p.terminal.screen r c) i) ∧
      (s.ctl.reg LCD_HOR_CURSOR_POS = horizontal p.mark.1 ∧ s.ctl.reg LCD_VER_CURSOR_POS = vertical p.mark.2) ∧
      (lcd.trace (Initial_LCD k) es).map Moment.out = (panel.trace Panel.start es).map Moment.out := by
  intro s p
  obtain ⟨hshows, houts⟩ := panel_after k h
  refine ⟨fun r hr c hc i hi => glass_eq hshows hr hc hi, hshows.mark, ?_⟩
  rw [← List.forall₂_eq_eq_eq, List.forall₂_map_left_iff, List.forall₂_map_right_iff]
  exact houts

def greeting : List Ioctl :=
  [.clear, .write ("1. show\n2.\tlogin\n".toList.map Char.toNat), .cur_set 3 15, .write ("end\n".toList.map Char.toNat)]

theorem greeting_onScreen : ∀ e ∈ greeting, e.OnScreen := by
  intro e he
  simp only [greeting, List.mem_cons, List.not_mem_nil, or_false] at he
  rcases he with rfl | rfl | rfl | rfl
  · trivial
  · trivial
  · exact ⟨by decide, by decide⟩
  · trivial

theorem lcd_is_terminal_greeting :
    ((lcd.run (Initial_LCD ⟨fun _ => 7, 0, fun _ => 0⟩) greeting).ctl.glass (8 * 14) 3 = charset 'e'.toNat 0) :=
  ((lcd_is_terminal ⟨fun _ => 7, 0, fun _ => 0⟩ greeting greeting_onScreen).1 14 (by decide) 3 (by decide) 0
    (by decide)).trans (by decide)

def page (msgs : List (List ℕ)) : Document ℕ :=
  (msgs.flatten.map keyOf).foldl (Document.type lcdFormat 0x20) Document.empty

theorem written_terminal (p : Panel) (msgs : List (List ℕ)) :
    (panel.run p (msgs.map .write)).terminal =
      (msgs.flatten.map keyOf).foldl (Terminal.type lcdFormat 0x20) p.terminal := by
  have hmsg (msg : List ℕ) (p : Panel) : (msg.foldl Panel.type p).terminal =
      (msg.map keyOf).foldl (Terminal.type lcdFormat 0x20) p.terminal := by
    induction msg generalizing p with
    | nil => rfl
    | cons c msg ih => exact ih (p.type c)
  induction msgs generalizing p with
  | nil => rfl
  | cons msg msgs ih =>
    rw [List.map_cons, Machine.run_cons, ih, List.flatten_cons, List.map_append, List.foldl_append, ← hmsg msg]
    rfl

theorem page_displayed (k : Controller) (es : List Ioctl) (msgs : List (List ℕ)) :
    ∃ p, Shows (lcd.run (Initial_LCD k) (es ++ .clear :: msgs.map .write)) p ∧
      p.terminal.Displays lcdFormat 0x20 (page msgs) := by
  let s := lcd.run (Initial_LCD k) es
  let p : Panel := ⟨Terminal.cleared 0x20, s.byCursorOn, (0, 0)⟩
  have hclear : Shows (LCD_ClearScreen s) p := clear_shows s
  have hrun : lcd.run (Initial_LCD k) (es ++ .clear :: msgs.map .write) =
      lcd.run (LCD_ClearScreen s) (msgs.map .write) := by
    rw [Machine.run_append, Machine.run_cons]
    rfl
  have hwrites : ∀ e ∈ msgs.map Ioctl.write, e.OnScreen := by
    intro e he
    obtain ⟨msg, -, rfl⟩ := List.mem_map.mp he
    trivial
  have hshows := (lcd.lockstep_on (N := panel) (R := Shows) (A := Ioctl.OnScreen) (Q := fun q q' => q.out = q'.out)
    (fun s p e hR he => panel_step hR he) hclear hwrites).1
  rw [hrun]
  refine ⟨_, hshows, ?_⟩
  rw [written_terminal]
  exact typed_displays cleared_displays _

theorem lcd_shows_last_lines (k : Controller) (es : List Ioctl) (msgs : List (List ℕ)) :
    let s := lcd.run (Initial_LCD k) (es ++ .clear :: msgs.map .write)
    let d := page msgs
    s.Xpos = d.current.length ∧ s.Ypos = min d.above.length 15 ∧
      ∀ r ≤ 15, ∀ c ≤ 15, ∀ ch, Printable ch →
        ((∀ i < 8, s.ctl.glass (8 * r + i) c = charset ch i) ↔ ch = (d.line (d.above.length - 15 + r)).getD c 0x20) := by
  intro s d
  obtain ⟨p, hshows, hdisplays⟩ := page_displayed k es msgs
  refine ⟨hshows.x.trans hdisplays.x, hshows.y.trans hdisplays.y, fun r hr c hc ch hch => ?_⟩
  have hcell : p.terminal.screen r c = (d.line (d.above.length - 15 + r)).getD c 0x20 := hdisplays.screen r hr c
  rw [← hcell]
  constructor
  · intro hglyph
    apply charset_injective hch (hshows.plain r c)
    intro i hi
    rw [← glass_eq hshows hr hc hi]
    exact (hglyph i hi).symm
  · rintro rfl i hi
    exact glass_eq hshows hr hc hi

end EmbeddedOS.Board
