import Mathlib

namespace EmbeddedOS.Locks

variable {ι : Type*}

def Exclusive (permits : ℕ) (inside : Finset ι) : Prop := permits + inside.card ≤ 1

def Conserved (permits : ℕ) (inside : Finset ι) : Prop := permits + inside.card = 1

theorem Conserved.exclusive {permits : ℕ} {inside : Finset ι} (h : Conserved permits inside) :
    Exclusive permits inside := h.le

theorem Exclusive.eq {permits : ℕ} {inside : Finset ι} (h : Exclusive permits inside) {k l : ι}
    (hk : k ∈ inside) (hl : l ∈ inside) : k = l := by
  unfold Exclusive at h
  exact Finset.card_le_one.mp (by omega) k hk l hl

theorem Exclusive.permits_le {permits : ℕ} {inside : Finset ι} (h : Exclusive permits inside) :
    permits ≤ 1 := by
  unfold Exclusive at h
  omega

theorem Exclusive.empty {permits : ℕ} {inside : Finset ι} (h : Exclusive permits inside)
    (hp : permits ≠ 0) : inside = ∅ := by
  unfold Exclusive at h
  exact Finset.card_eq_zero.mp (by omega)

variable [DecidableEq ι]

theorem Exclusive.acquire {permits : ℕ} {inside : Finset ι} (h : Exclusive permits inside)
    (hp : permits ≠ 0) (k : ι) : Exclusive (permits - 1) (insert k inside) := by
  have hi := Finset.card_insert_le k inside
  unfold Exclusive at *
  omega

theorem Exclusive.release {permits : ℕ} {inside : Finset ι} (h : Exclusive permits inside) {k : ι}
    (hk : k ∈ inside) {permits' : ℕ} (hp : permits' ≤ permits + 1) :
    Exclusive permits' (inside.erase k) := by
  have hc := Finset.card_erase_of_mem hk
  have hpos := Finset.card_pos.mpr ⟨k, hk⟩
  unfold Exclusive at *
  omega

theorem Conserved.acquire {permits : ℕ} {inside : Finset ι} (h : Conserved permits inside)
    (hp : permits ≠ 0) {k : ι} (hk : k ∉ inside) : Conserved (permits - 1) (insert k inside) := by
  have hi := Finset.card_insert_of_notMem hk
  unfold Conserved at *
  omega

theorem Conserved.release {permits : ℕ} {inside : Finset ι} (h : Conserved permits inside) {k : ι}
    (hk : k ∈ inside) : Conserved (permits + 1) (inside.erase k) := by
  have hc := Finset.card_erase_of_mem hk
  have hpos := Finset.card_pos.mpr ⟨k, hk⟩
  unfold Conserved at *
  omega

theorem sum_update [Fintype ι] {α : Type*} (f : α → ℤ) (t : ι → α) (k : ι) (x : α) :
    ∑ l, f (Function.update t k x l) = ∑ l, f (t l) - f (t k) + f x := by
  have h : (fun l => f (Function.update t k x l)) = Function.update (fun l => f (t l)) k (f x) := by
    funext l
    by_cases hl : l = k
    · subst hl
      simp
    · simp [hl]
  rw [h, Finset.sum_update_of_mem (Finset.mem_univ k), ← Finset.erase_eq,
    ← Finset.add_sum_erase Finset.univ (fun l => f (t l)) (Finset.mem_univ k)]
  ring

end EmbeddedOS.Locks
