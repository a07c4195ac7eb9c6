import Mathlib

namespace EmbeddedOS.Rings

variable {α : Type*} {size : ℕ}

def ring (size : ℕ) (buf : ℕ → α) (out n : ℕ) : List α := (List.range n).map fun k => buf ((out + k) % size)

theorem ring_congr {buf buf' : ℕ → α} {out n : ℕ} (h : ∀ k < n, buf ((out + k) % size) = buf' ((out + k) % size)) :
    ring size buf out n = ring size buf' out n := by
  apply List.map_congr_left
  intro k hk
  exact h k (List.mem_range.mp hk)

theorem ring_out {buf : ℕ → α} {out out' n : ℕ} (h : out % size = out' % size) :
    ring size buf out n = ring size buf out' n := by
  apply List.map_congr_left
  intro k _
  rw [Nat.add_mod, h, ← Nat.add_mod]

theorem ring_store (buf : ℕ → α) {out n : ℕ} (hn : n < size) (a : α) :
    ring size (Function.update buf ((out + n) % size) a) out (n + 1) = ring size buf out n ++ [a] := by
  have hsame : ring size (Function.update buf ((out + n) % size) a) out n = ring size buf out n := by
    apply ring_congr
    intro k hk
    apply Function.update_of_ne
    intro he
    have hmod : (out + k) ≡ (out + n) [MOD size] := he
    have hkn : k ≡ n [MOD size] := Nat.ModEq.add_left_cancel' out hmod
    have hlt := Nat.ModEq.eq_of_lt_of_lt hkn (hk.trans hn) hn
    omega
  have hsplit (buf : ℕ → α) : ring size buf out (n + 1) = ring size buf out n ++ [buf ((out + n) % size)] := by
    simp [ring, List.range_succ]
  rw [hsplit, hsame, Function.update_self]

theorem ring_take (buf : ℕ → α) (out n : ℕ) :
    ring size buf out (n + 1) = buf (out % size) :: ring size buf (out + 1) n := by
  unfold ring
  rw [List.range_succ_eq_map, List.map_cons, List.map_map]
  congr 1
  apply List.map_congr_left
  intro k _
  change buf ((out + (k + 1)) % size) = buf ((out + 1 + k) % size)
  rw [Nat.add_right_comm, Nat.add_assoc]

end EmbeddedOS.Rings
