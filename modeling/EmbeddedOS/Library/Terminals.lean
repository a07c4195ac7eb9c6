import Mathlib

/-!
Terminals that scroll: a screen, a cursor, lines that are cut at a margin, and tabs. What is typed since the screen was
empty is a document, and the screen shows its last lines.
-/

namespace EmbeddedOS.Terminals

/-- A line takes `margin` characters, and a tab goes on to the next column that `tab` divides. -/
structure Format where
  margin : ℕ
  height : ℕ
  tab : ℕ
  tab_pos : 0 < tab
  tab_le : tab ≤ margin
  height_pos : 0 < height

inductive Key (α : Type*) where
  | newline
  | tab
  | char (a : α)

@[ext] structure Terminal (α : Type*) where
  screen : ℕ → ℕ → α
  x : ℕ
  y : ℕ

structure Document (α : Type*) where
  above : List (List α)
  current : List α

section Terminal

variable {α : Type*} (F : Format) (blank : α)

def Format.last : ℕ := F.height - 1

def Format.blanks (x : ℕ) : ℕ :=
  if x + F.tab - x % F.tab ≤ F.margin then F.tab - x % F.tab else F.margin - x + F.tab

def Terminal.cleared : Terminal α := ⟨fun _ _ => blank, 0, 0⟩

def Terminal.newline (t : Terminal α) : Terminal α :=
  if t.y = F.last then ⟨fun r c => if r = F.last then blank else t.screen (r + 1) c, 0, t.y⟩ else ⟨t.screen, 0, t.y + 1⟩

def Terminal.write (t : Terminal α) (a : α) : Terminal α :=
  ⟨fun r c => if r = t.y ∧ c = t.x then a else t.screen r c, t.x + 1, t.y⟩

def Terminal.put (t : Terminal α) (a : α) : Terminal α :=
  (if F.margin ≤ t.x then t.newline F blank else t).write a

def Terminal.puts (t : Terminal α) (n : ℕ) : Terminal α := (fun t => t.put F blank blank)^[n] t

def Terminal.type (t : Terminal α) : Key α → Terminal α
  | .newline => t.newline F blank
  | .tab => t.puts F blank (F.blanks t.x)
  | .char a => t.put F blank a

structure Terminal.Within (t : Terminal α) : Prop where
  column : t.x ≤ F.margin
  row : t.y ≤ F.last

def Document.empty : Document α := ⟨[], []⟩

def Document.newline (d : Document α) : Document α := ⟨d.above ++ [d.current], []⟩

def Document.put (d : Document α) (a : α) : Document α :=
  if F.margin ≤ d.current.length then ⟨d.above ++ [d.current], [a]⟩ else ⟨d.above, d.current ++ [a]⟩

def Document.puts (d : Document α) (n : ℕ) : Document α := (fun d => d.put F blank)^[n] d

def Document.type (d : Document α) : Key α → Document α
  | .newline => d.newline
  | .tab => d.puts F blank (F.blanks d.current.length)
  | .char a => d.put F a

def Document.line (d : Document α) (k : ℕ) : List α := (d.above ++ [d.current]).getD k []

structure Terminal.Displays (t : Terminal α) (d : Document α) : Prop where
  x : t.x = d.current.length
  y : t.y = min d.above.length F.last
  screen : ∀ r ≤ F.last, ∀ c, t.screen r c = (d.line (d.above.length - F.last + r)).getD c blank

end Terminal

section Displays

variable {α : Type*} {F : Format} {blank : α} {t : Terminal α} {d : Document α}

theorem line_above {k : ℕ} (h : k < d.above.length) : d.line k = d.above.getD k [] :=
  List.getD_append _ _ _ _ h

theorem line_current : d.line d.above.length = d.current := by
  simp [Document.line]

theorem line_beyond {k : ℕ} (h : d.above.length < k) : d.line k = [] := by
  apply List.getD_eq_default
  simp only [List.length_append, List.length_singleton]
  omega

theorem cleared_displays : (Terminal.cleared blank).Displays F blank (Document.empty : Document α) := by
  refine ⟨rfl, by simp [Terminal.cleared, Document.empty], fun r _ c => ?_⟩
  by_cases hr : r = 0
  · simp [Terminal.cleared, Document.empty, Document.line, hr]
  · have hline : (Document.empty : Document α).line r = [] := line_beyond (Nat.pos_of_ne_zero hr)
    simp [Terminal.cleared, Document.empty, Document.line] at hline ⊢

theorem newline_line (k : ℕ) : d.newline.line k = d.line k := by
  by_cases hk : k < d.above.length + 1
  · have hlt : k < (d.above ++ [d.current]).length := by simpa using hk
    have hlt' : k < d.newline.above.length := hlt
    rw [line_above hlt']
    rfl
  · rw [line_beyond (d := d) (by omega)]
    by_cases hke : k = d.newline.above.length
    · rw [hke, line_current]
      rfl
    · have hlen : d.newline.above.length = d.above.length + 1 := by simp [Document.newline]
      exact line_beyond (by omega)

theorem newline_displays (h : t.Displays F blank d) : (t.newline F blank).Displays F blank d.newline := by
  have hlen : d.newline.above.length = d.above.length + 1 := by simp [Document.newline]
  unfold Terminal.newline
  by_cases hy : t.y = F.last
  · have hle : F.last ≤ d.above.length := by
      have hmin := h.y
      omega
    rw [if_pos hy]
    refine ⟨rfl, ?_, fun r hr c => ?_⟩
    · change t.y = _
      rw [hlen]
      omega
    · change (if r = F.last then blank else t.screen (r + 1) c) = _
      rw [hlen, newline_line]
      by_cases hrl : r = F.last
      · rw [if_pos hrl, line_beyond (by omega)]
        rfl
      · have hidx : d.above.length + 1 - F.last + r = d.above.length - F.last + (r + 1) := by omega
        rw [if_neg hrl, h.screen (r + 1) (by omega), hidx]
  · have hlt : d.above.length < F.last := by
      have hmin := h.y
      omega
    rw [if_neg hy]
    refine ⟨rfl, ?_, fun r hr c => ?_⟩
    · change t.y + 1 = _
      have hmin := h.y
      rw [hlen]
      omega
    · change t.screen r c = _
      rw [h.screen r hr, newline_line, hlen]
      have hidx : d.above.length - F.last = 0 := by omega
      have hidx' : d.above.length + 1 - F.last = 0 := by omega
      rw [hidx, hidx']

theorem write_displays (h : t.Displays F blank d) (a : α) :
    (t.write a).Displays F blank ⟨d.above, d.current ++ [a]⟩ := by
  refine ⟨?_, h.y, fun r hr c => ?_⟩
  · change t.x + 1 = _
    rw [h.x]
    simp
  · change (if r = t.y ∧ c = t.x then a else t.screen r c) = _
    have hy := h.y
    by_cases hrow : r = t.y
    · have hidx : d.above.length - F.last + r = d.above.length := by omega
      have hnew : (⟨d.above, d.current ++ [a]⟩ : Document α).line d.above.length = d.current ++ [a] := line_current
      rw [h.screen r hr, hidx, line_current, hnew]
      by_cases hc : c = t.x
      · rw [if_pos ⟨hrow, hc⟩, hc, h.x]
        simp
      · rw [if_neg (fun he => hc he.2)]
        have hne : c ≠ d.current.length := h.x ▸ hc
        rcases lt_or_gt_of_ne hne with hlt | hgt
        · rw [List.getD_append _ _ _ _ hlt]
        · rw [List.getD_eq_default _ _ hgt.le, List.getD_eq_default]
          simp only [List.length_append, List.length_singleton]
          omega
    · have hne : d.above.length - F.last + r ≠ d.above.length := by omega
      have hsame : (⟨d.above, d.current ++ [a]⟩ : Document α).line (d.above.length - F.last + r) =
          d.line (d.above.length - F.last + r) := by
        rcases lt_or_gt_of_ne hne with hlt | hgt
        · exact (line_above (d := ⟨d.above, d.current ++ [a]⟩) hlt).trans (line_above hlt).symm
        · exact (line_beyond (d := ⟨d.above, d.current ++ [a]⟩) hgt).trans (line_beyond hgt).symm
      rw [if_neg (fun he => hrow he.1), h.screen r hr, hsame]

theorem put_displays (h : t.Displays F blank d) (a : α) : (t.put F blank a).Displays F blank (d.put F a) := by
  unfold Terminal.put Document.put
  by_cases hm : F.margin ≤ t.x
  · rw [if_pos hm, if_pos (h.x ▸ hm)]
    exact write_displays (newline_displays h) a
  · rw [if_neg hm, if_neg (h.x ▸ hm)]
    exact write_displays h a

theorem puts_displays (h : t.Displays F blank d) (n : ℕ) :
    (t.puts F blank n).Displays F blank (d.puts F blank n) := by
  induction n generalizing t d with
  | zero => exact h
  | succ n ih => exact ih (put_displays h blank)

theorem type_displays (h : t.Displays F blank d) (k : Key α) :
    (t.type F blank k).Displays F blank (d.type F blank k) := by
  cases k with
  | newline => exact newline_displays h
  | tab =>
    change (t.puts F blank (F.blanks t.x)).Displays F blank (d.puts F blank (F.blanks d.current.length))
    rw [h.x]
    exact puts_displays h _
  | char a => exact put_displays h a

theorem typed_displays (h : t.Displays F blank d) (ks : List (Key α)) :
    (ks.foldl (Terminal.type F blank) t).Displays F blank (ks.foldl (Document.type F blank) d) := by
  induction ks generalizing t d with
  | nil => exact h
  | cons k ks ih => exact ih (type_displays h k)

end Displays

end EmbeddedOS.Terminals
