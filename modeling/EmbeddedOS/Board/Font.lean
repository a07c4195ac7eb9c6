import Mathlib

namespace EmbeddedOS.Board

/-- The rows of `charset` from `' '` to `'~'`, which are all that the driver reads. -/
def font : List (List ℕ) := [
  [0x0000, 0x0000, 0x0000, 0x0000, 0x0000, 0x0000, 0x0000, 0x0000],
  [0x0C00, 0x0C00, 0x0C00, 0x0C00, 0x0000, 0x0000, 0x0C00, 0x0000],
  [0x3300, 0x3300, 0x3300, 0x0000, 0x0000, 0x0000, 0x0000, 0x0000],
  [0x3300, 0x3300, 0xFFC0, 0x3300, 0xFFC0, 0x3300, 0x3300, 0x0000],
  [0x0C00, 0xFF00, 0x0CC0, 0x3F00, 0xCC00, 0x3FC0, 0x0C00, 0x0000],
  [0x03C0, 0xC3C0, 0x3000, 0x0C00, 0x0300, 0xF0C0, 0xF000, 0x0000],
  [0x0F00, 0x30C0, 0x0CC0, 0x0300, 0xCCC0, 0x30C0, 0xCF00, 0x0000],
  [0x0F00, 0x0C00, 0x0300, 0x0000, 0x0000, 0x0000, 0x0000, 0x0000],
  [0x3000, 0x0C00, 0x0300, 0x0300, 0x0300, 0x0C00, 0x3000, 0x0000],
  [0x0300, 0x0C00, 0x3000, 0x3000, 0x3000, 0x0C00, 0x0300, 0x0000],
  [0x0000, 0x0C00, 0xCCC0, 0x3F00, 0xCCC0, 0x0C00, 0x0000, 0x0000],
  [0x0000, 0x0C00, 0x0C00, 0xFFC0, 0x0C00, 0x0C00, 0x0000, 0x0000],
  [0x0000, 0x0000, 0x0000, 0x0000, 0x0F00, 0x0C00, 0x0300, 0x0000],
  [0x0000, 0x0000, 0x0000, 0xFFC0, 0x0000, 0x0000, 0x0000, 0x0000],
  [0x0000, 0x0000, 0x0000, 0x0000, 0x0000, 0x0F00, 0x0F00, 0x0000],
  [0x0000, 0xC000, 0x3000, 0x0C00, 0x0300, 0x00C0, 0x0000, 0x0000],
  [0x3F00, 0xC0C0, 0xF0C0, 0xCCC0, 0xC3C0, 0xC0C0, 0x3F00, 0x0000],
  [0x0C00, 0x0F00, 0x0C00, 0x0C00, 0x0C00, 0x0C00, 0x3F00, 0x0000],
  [0x3F00, 0xC0C0, 0xC000, 0x3000, 0x0C00, 0x0300, 0xFFC0, 0x0000],
  [0xFFC0, 0x3000, 0x0C00, 0x3000, 0xC000, 0xC0C0, 0x3F00, 0x0000],
  [0x3000, 0x3C00, 0x3300, 0x30C0, 0xFFC0, 0x3000, 0x3000, 0x0000],
  [0xFFC0, 0x00C0, 0x3FC0, 0xC000, 0xC000, 0xC0C0, 0x3F00, 0x0000],
  [0x3C00, 0x0300, 0x00C0, 0x3FC0, 0xC0C0, 0xC0C0, 0x3F00, 0x0000],
  [0xFFC0, 0xC000, 0x3000, 0x0C00, 0x0C00, 0x0C00, 0x0C00, 0x0000],
  [0x3FC0, 0xC0C0, 0xC0C0, 0x3F00, 0xC0C0, 0xC0C0, 0x3F00, 0x0000],
  [0x3F00, 0xC0C0, 0xC0C0, 0xFF00, 0xC000, 0x3000, 0x0F00, 0x0000],
  [0x0000, 0x0F00, 0x0F00, 0x0000, 0x0F00, 0x0F00, 0x0000, 0x0000],
  [0x0000, 0x0F00, 0x0F00, 0x0000, 0x0F00, 0x0C00, 0x0300, 0x0000],
  [0x3000, 0x0C00, 0x0300, 0x00C0, 0x0300, 0x0C00, 0x3000, 0x0000],
  [0x0000, 0x0000, 0xFFC0, 0x0000, 0xFFC0, 0x0000, 0x0000, 0x0000],
  [0x0300, 0x0C00, 0x3000, 0xC000, 0x3000, 0x0C00, 0x0300, 0x0000],
  [0x3F00, 0xC0C0, 0xC000, 0x3000, 0x0C00, 0x0000, 0x0C00, 0x0000],
  [0x3F00, 0xC0C0, 0xC000, 0xCF00, 0xCCC0, 0xCCC0, 0x3F00, 0x0000],
  [0x3F00, 0xC0C0, 0xC0C0, 0xC0C0, 0xFFC0, 0xC0C0, 0xC0C0, 0x0000],
  [0x3FC0, 0xC300, 0xC300, 0x3F00, 0xC300, 0xC300, 0x3FC0, 0x0000],
  [0x3F00, 0xC0C0, 0x00C0, 0x00C0, 0x00C0, 0xC0C0, 0x3F00, 0x0000],
  [0x3FC0, 0xC300, 0xC300, 0xC300, 0xC300, 0xC300, 0x3FC0, 0x0000],
  [0xFFC0, 0x00C0, 0x00C0, 0xFFC0, 0x00C0, 0x00C0, 0xFFC0, 0x0000],
  [0xFFC0, 0x00C0, 0x00C0, 0x3FC0, 0x00C0, 0x00C0, 0x00C0, 0x0000],
  [0x3F00, 0xC0C0, 0x00C0, 0xF0C0, 0xC0C0, 0xC0C0, 0xFF00, 0x0000],
  [0xC0C0, 0xC0C0, 0xC0C0, 0xFFC0, 0xC0C0, 0xC0C0, 0xC0C0, 0x0000],
  [0x3F00, 0x0C00, 0x0C00, 0x0C00, 0x0C00, 0x0C00, 0x3F00, 0x0000],
  [0xFC00, 0x3000, 0x3000, 0x3000, 0x3000, 0x30C0, 0x0F00, 0x0000],
  [0xC0C0, 0x30C0, 0x0CC0, 0x03C0, 0x0CC0, 0x30C0, 0xC0C0, 0x0000],
  [0x00C0, 0x00C0, 0x00C0, 0x00C0, 0x00C0, 0x00C0, 0xFFC0, 0x0000],
  [0xC0C0, 0xF3C0, 0xCCC0, 0xCCC0, 0xC0C0, 0xC0C0, 0xC0C0, 0x0000],
  [0xC0C0, 0xC3C0, 0xC3C0, 0xCCC0, 0xF0C0, 0xF0C0, 0xC0C0, 0x0000],
  [0x3F00, 0xC0C0, 0xC0C0, 0xC0C0, 0xC0C0, 0xC0C0, 0x3F00, 0x0000],
  [0x3FC0, 0xC0C0, 0xC0C0, 0x3FC0, 0x00C0, 0x00C0, 0x00C0, 0x0000],
  [0x3F00, 0xC0C0, 0xC0C0, 0xC0C0, 0xCCC0, 0x30C0, 0xCFC0, 0x0000],
  [0x3FC0, 0xC0C0, 0xC0C0, 0x3FC0, 0x0CC0, 0x30C0, 0xC0C0, 0x0000],
  [0x3F00, 0xC0C0, 0x00C0, 0x3F00, 0xC000, 0xC0C0, 0x3F00, 0x0000],
  [0xFFC0, 0x0C00, 0x0C00, 0x0C00, 0x0C00, 0x0C00, 0x0C00, 0x0000],
  [0xC0C0, 0xC0C0, 0xC0C0, 0xC0C0, 0xC0C0, 0xC0C0, 0x3F00, 0x0000],
  [0xC0C0, 0xC0C0, 0xC0C0, 0xC0C0, 0xC0C0, 0x3300, 0x0C00, 0x0000],
  [0xC0C0, 0xC0C0, 0xC0C0, 0xCCC0, 0xCCC0, 0xF3C0, 0xC0C0, 0x0000],
  [0xC0C0, 0xC0C0, 0x3300, 0x0C00, 0x3300, 0xC0C0, 0xC0C0, 0x0000],
  [0xC0C0, 0xC0C0, 0xC0C0, 0x3300, 0x0C00, 0x0C00, 0x0C00, 0x0000],
  [0xFFC0, 0xC000, 0x3000, 0x0C00, 0x0300, 0x00C0, 0xFFC0, 0x0000],
  [0x3F00, 0x0300, 0x0300, 0x0300, 0x0300, 0x0300, 0x3F00, 0x0000],
  [0x00C0, 0x0300, 0x0C00, 0x3000, 0xC000, 0x0000, 0x0000, 0x0000],
  [0x3F00, 0x3000, 0x3000, 0x3000, 0x3000, 0x3000, 0x3F00, 0x0000],
  [0x0C00, 0x3300, 0xC0C0, 0x0000, 0x0000, 0x0000, 0x0000, 0x0000],
  [0x0000, 0x0000, 0x0000, 0x0000, 0x0000, 0x0000, 0xFFC0, 0x0000],
  [0x00C0, 0x0300, 0x0C00, 0x0000, 0x0000, 0x0000, 0x0000, 0x0000],
  [0x0000, 0x0000, 0x3F00, 0xC000, 0xFF00, 0xC0C0, 0xFF00, 0x0000],
  [0x00C0, 0x00C0, 0x3CC0, 0xC3C0, 0xC0C0, 0xC0C0, 0x3FC0, 0x0000],
  [0x0000, 0x0000, 0x3F00, 0xC0C0, 0x00C0, 0xC0C0, 0x3F00, 0x0000],
  [0xC000, 0xC000, 0xCF00, 0xF0C0, 0xC0C0, 0xC0C0, 0xFF00, 0x0000],
  [0x0000, 0x0000, 0x3F00, 0xC0C0, 0xFFC0, 0x00C0, 0x3F00, 0x0000],
  [0x3000, 0xCC00, 0x0C00, 0x3F00, 0x0C00, 0x0C00, 0x0C00, 0x0000],
  [0x0000, 0xCF00, 0xF0C0, 0xF0C0, 0xCF00, 0xC000, 0x3F00, 0x0000],
  [0x00C0, 0x00C0, 0x3CC0, 0xC3C0, 0xC0C0, 0xC0C0, 0xC0C0, 0x0000],
  [0x0C00, 0x0000, 0x0F00, 0x0C00, 0x0C00, 0x0C00, 0x3F00, 0x0000],
  [0x3000, 0x0000, 0x3C00, 0x3000, 0x3000, 0x30C0, 0x0F00, 0x0000],
  [0x0300, 0x0300, 0xC300, 0x3300, 0x0F00, 0x3300, 0xC300, 0x0000],
  [0x0F00, 0x0C00, 0x0C00, 0x0C00, 0x0C00, 0x0C00, 0x3F00, 0x0000],
  [0x0000, 0x0000, 0x33C0, 0xCCC0, 0xCCC0, 0xCCC0, 0xCCC0, 0x0000],
  [0x0000, 0x0000, 0x3CC0, 0xC3C0, 0xC0C0, 0xC0C0, 0xC0C0, 0x0000],
  [0x0000, 0x0000, 0x3F00, 0xC0C0, 0xC0C0, 0xC0C0, 0x3F00, 0x0000],
  [0x0000, 0x3CC0, 0xC3C0, 0xC3C0, 0x3CC0, 0x00C0, 0x00C0, 0x0000],
  [0x0000, 0xCF00, 0xF0C0, 0xF0C0, 0xCF00, 0xC000, 0xC000, 0x0000],
  [0x0000, 0x0000, 0x3CC0, 0xC3C0, 0x00C0, 0x00C0, 0x00C0, 0x0000],
  [0x0000, 0x0000, 0xFF00, 0x00C0, 0x3FC0, 0xC000, 0xFFC0, 0x0000],
  [0x0300, 0x0300, 0x0FC0, 0x0300, 0x0300, 0xC300, 0x3C00, 0x0000],
  [0x0000, 0x0000, 0x30C0, 0x30C0, 0x30C0, 0x30C0, 0xCF00, 0x0000],
  [0x0000, 0x0000, 0xC0C0, 0xC0C0, 0xC0C0, 0x3300, 0x0C00, 0x0000],
  [0x0000, 0x0000, 0xC0C0, 0xC0C0, 0xCCC0, 0xCCC0, 0x3300, 0x0000],
  [0x0000, 0x0000, 0xC0C0, 0x3300, 0x0C00, 0x3300, 0xC0C0, 0x0000],
  [0x0000, 0x0000, 0xC0C0, 0xC0C0, 0xF0C0, 0xCF00, 0xC000, 0x3F00],
  [0x0000, 0x0000, 0xFFC0, 0x3000, 0x0C00, 0x0300, 0xFFC0, 0x0000],
  [0x3000, 0x0C00, 0x0C00, 0x0300, 0x0C00, 0x0C00, 0x3000, 0x0000],
  [0x0C00, 0x0C00, 0x0C00, 0x0000, 0x0C00, 0x0C00, 0x0C00, 0x0000],
  [0x0300, 0x0C00, 0x0C00, 0x3000, 0x0C00, 0x0C00, 0x0300, 0x0000],
  [0x0300, 0xCCC0, 0x3000, 0x0000, 0x0000, 0x0000, 0x0000, 0x0000]]

def charset (data i : ℕ) : ℕ := (font.getD (data - 0x20) []).getD i 0

def Printable (ch : ℕ) : Prop := 0x20 ≤ ch ∧ ch ≤ 0x7E

instance (ch : ℕ) : Decidable (Printable ch) := inferInstanceAs (Decidable (_ ∧ _))

set_option maxRecDepth 8000 in
theorem font_nodup : font.Nodup := by decide

set_option maxRecDepth 4000 in
theorem font_rows : ∀ row ∈ font, row.length = 8 := by decide

theorem font_length : font.length = 95 := rfl

theorem charset_injective {a b : ℕ} (ha : Printable a) (hb : Printable b)
    (h : ∀ i < 8, charset a i = charset b i) : a = b := by
  have hlen {c : ℕ} (hc : Printable c) : c - 0x20 < font.length := by
    rw [font_length]
    unfold Printable at hc
    omega
  have hrow {c : ℕ} (hc : Printable c) : font.getD (c - 0x20) [] = font.get ⟨c - 0x20, hlen hc⟩ :=
    List.getD_eq_getElem _ _ (hlen hc)
  have hrows : font.get ⟨a - 0x20, hlen ha⟩ = font.get ⟨b - 0x20, hlen hb⟩ := by
    have hla := font_rows _ (List.get_mem font ⟨a - 0x20, hlen ha⟩)
    have hlb := font_rows _ (List.get_mem font ⟨b - 0x20, hlen hb⟩)
    apply List.ext_getElem (by rw [hla, hlb])
    intro i hi hi'
    have hrowi := h i (by omega)
    unfold charset at hrowi
    rwa [hrow ha, hrow hb, List.getD_eq_getElem _ _ hi, List.getD_eq_getElem _ _ hi'] at hrowi
  have hidx := congrArg Fin.val (List.nodup_iff_injective_get.mp font_nodup hrows)
  unfold Printable at ha hb
  simp only at hidx
  omega

end EmbeddedOS.Board
