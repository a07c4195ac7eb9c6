import Mathlib

namespace EmbeddedOS.Bubble

variable {α κ : Type*} [LinearOrder κ] (key : α → κ)

structure Rearranged (l l' : List α) : Prop where
  perm : l'.Perm l
  stable : ∀ k, l'.filter (fun x => key x = k) = l.filter (fun x => key x = k)

structure Ranking (l l' : List α) : Prop extends Rearranged key l l' where
  sorted : l'.Pairwise fun x y => key y ≤ key x

variable {key}

theorem Rearranged.refl (l : List α) : Rearranged key l l := ⟨.refl l, fun _ => rfl⟩

theorem Rearranged.trans {l l' l'' : List α} (h : Rearranged key l l') (h' : Rearranged key l' l'') :
    Rearranged key l l'' := ⟨h'.perm.trans h.perm, fun k => (h'.stable k).trans (h.stable k)⟩

theorem rearranged_swap {x y : α} (hne : key x ≠ key y) (before after : List α) :
    Rearranged key (before ++ x :: y :: after) (before ++ y :: x :: after) := by
  constructor
  · exact (List.Perm.swap x y after).append_left before
  · intro k
    rw [List.filter_append, List.filter_append]
    congr 1
    by_cases hx : key x = k
    · have hy : key y ≠ k := fun hy => hne (hx.trans hy.symm)
      simp [hx, hy]
    · simp [List.filter_cons, hx]

variable (key)

def exchange (f : ℕ → α) (j : ℕ) : ℕ → α :=
  if key (f j) < key (f (j + 1)) then Function.update (Function.update f j (f (j + 1))) (j + 1) (f j) else f

def pass (f : ℕ → α) : ℕ → ℕ → α
  | 0 => f
  | n + 1 => exchange key (pass f n) n

def bubble : ℕ → (ℕ → α) → ℕ → α
  | 0, f => f
  | n + 1, f => bubble n (pass key f n)

def front (f : ℕ → α) (n : ℕ) : List α := (List.range n).map f

variable {key}

theorem front_pairwise {R : α → α → Prop} {f : ℕ → α} {n : ℕ} :
    (front f n).Pairwise R ↔ ∀ i j, i < j → j < n → R (f i) (f j) := by
  rw [List.pairwise_iff_getElem]
  simp only [front, List.length_map, List.length_range, List.getElem_map, List.getElem_range]
  exact ⟨fun h i j hij hj => h i j (hij.trans hj) hj hij, fun h i j _ hj hij => h i j hij hj⟩

theorem exchange_of_lt {f : ℕ → α} {j i : ℕ} (h : i < j ∨ j + 1 < i) : exchange key f j i = f i := by
  unfold exchange
  split_ifs
  · rw [Function.update_of_ne (by omega), Function.update_of_ne (by omega)]
  · rfl

theorem exchange_swaps {f : ℕ → α} {j : ℕ} (h : key (f j) < key (f (j + 1))) :
    exchange key f j j = f (j + 1) ∧ exchange key f j (j + 1) = f j := by
  simp [exchange, h]

theorem exchange_stays {f : ℕ → α} {j : ℕ} (h : ¬ key (f j) < key (f (j + 1))) : exchange key f j = f := if_neg h

theorem exchange_le (f : ℕ → α) (j : ℕ) : key (exchange key f j (j + 1)) ≤ key (exchange key f j j) := by
  by_cases h : key (f j) < key (f (j + 1))
  · obtain ⟨hj, hj'⟩ := exchange_swaps h
    rw [hj, hj']
    exact h.le
  · rw [exchange_stays h]
    exact not_lt.mp h

theorem front_split (f : ℕ → α) {j n : ℕ} (h : j + 1 < n) :
    front f n = front f j ++ f j :: f (j + 1) :: (List.range (n - j - 2)).map fun i => f (j + 2 + i) := by
  obtain ⟨m, rfl⟩ : ∃ m, n = j + (2 + m) := ⟨n - j - 2, by omega⟩
  have hm : j + (2 + m) - j - 2 = m := by omega
  rw [hm, front, front, List.range_add, List.map_append, List.range_add]
  simp [Function.comp_def, Nat.add_assoc, List.range_succ]

theorem exchange_rearranged (f : ℕ → α) {j n : ℕ} (h : j + 1 < n) :
    Rearranged key (front f n) (front (exchange key f j) n) := by
  by_cases hlt : key (f j) < key (f (j + 1))
  · obtain ⟨hj, hj'⟩ := exchange_swaps hlt
    have hbefore : front (exchange key f j) j = front f j :=
      List.map_congr_left fun i hi => exchange_of_lt (Or.inl (List.mem_range.mp hi))
    have hafter : ((List.range (n - j - 2)).map fun i => exchange key f j (j + 2 + i)) =
        (List.range (n - j - 2)).map fun i => f (j + 2 + i) :=
      List.map_congr_left fun i _ => exchange_of_lt (Or.inr (by omega))
    rw [front_split f h, front_split (exchange key f j) h, hbefore, hafter, hj, hj']
    exact rearranged_swap hlt.ne _ _
  · rw [exchange_stays hlt]
    exact .refl _

theorem pass_of_lt {f : ℕ → α} {n i : ℕ} (h : n < i) : pass key f n i = f i := by
  induction n with
  | zero => rfl
  | succ n ih => rw [pass, exchange_of_lt (Or.inr h), ih (by omega)]

theorem pass_rearranged (f : ℕ → α) {m n : ℕ} (h : m < n) : Rearranged key (front f n) (front (pass key f m) n) := by
  induction m with
  | zero => exact .refl _
  | succ m ih => exact (ih (by omega)).trans (exchange_rearranged _ h)

theorem pass_least (f : ℕ → α) {n i : ℕ} (hi : i ≤ n) : key (pass key f n n) ≤ key (pass key f n i) := by
  induction n with
  | zero =>
    obtain rfl := Nat.le_zero.mp hi
    exact le_rfl
  | succ n ih =>
    have hstep : key (pass key f (n + 1) (n + 1)) ≤ key (pass key f (n + 1) n) := exchange_le (pass key f n) n
    rcases Nat.lt_or_ge i n with hlt | hge
    · -- the value at `n` was least so far, and the exchange leaves at most that at `n + 1`
      have hleast : key (exchange key (pass key f n) n (n + 1)) ≤ key (pass key f n n) := by
        by_cases h : key (pass key f n n) < key (pass key f n (n + 1))
        · rw [(exchange_swaps h).2]
        · rw [exchange_stays h]
          exact not_lt.mp h
      rw [pass, exchange_of_lt (Or.inl hlt)]
      exact hleast.trans (ih hlt.le)
    · rcases Nat.eq_or_lt_of_le hge with rfl | hgt
      · exact hstep
      · obtain rfl : i = n + 1 := by omega
        exact le_rfl

theorem mem_front {f : ℕ → α} {n i : ℕ} (h : i < n) : f i ∈ front f n := List.mem_map_of_mem (List.mem_range.mpr h)

theorem pass_mem (f : ℕ → α) {n i : ℕ} (hi : i ≤ n) : ∃ i' ≤ n, pass key f n i = f i' := by
  have hpass : Rearranged key (front f (n + 1)) (front (pass key f n) (n + 1)) := pass_rearranged f (Nat.lt_succ_self n)
  have hmem : pass key f n i ∈ front f (n + 1) := hpass.perm.mem_iff.mp (mem_front (Nat.lt_succ_of_le hi))
  obtain ⟨i', hi', heq⟩ := List.mem_map.mp hmem
  exact ⟨i', Nat.le_of_lt_succ (List.mem_range.mp hi'), heq.symm⟩

def Settled (key : α → κ) (f : ℕ → α) (m n : ℕ) : Prop := ∀ j, m ≤ j → j < n → ∀ i < j, key (f j) ≤ key (f i)

theorem pass_settled {f : ℕ → α} {m n : ℕ} (h : Settled key f (m + 1) n) : Settled key (pass key f m) m n := by
  intro j hmj hjn i hij
  rcases Nat.eq_or_lt_of_le hmj with rfl | hlt
  · exact pass_least f hij.le
  · rw [pass_of_lt hlt]
    rcases Nat.lt_or_ge m i with hmi | him
    · rw [pass_of_lt hmi]
      exact h j hlt hjn i hij
    · obtain ⟨i', hi', heq⟩ : ∃ i' ≤ m, pass key f m i = f i' := pass_mem f him
      rw [heq]
      exact h j hlt hjn i' (by omega)

theorem ranked_keys {l l' : List α} (hperm : l.Perm l') (h : l.Pairwise fun x y => key y ≤ key x)
    (h' : l'.Pairwise fun x y => key y ≤ key x) : l.map key = l'.map key := by
  have hantisymm : ∀ a b, a ∈ l.map key → b ∈ l'.map key → b ≤ a → a ≤ b → a = b := by
    intro a b _ _ hab hba
    exact le_antisymm hba hab
  exact (hperm.map key).eq_of_pairwise hantisymm (List.pairwise_map.mpr h) (List.pairwise_map.mpr h')

theorem ranked_eq {l l' : List α} (hkeys : (l.map key).Nodup) (hperm : l.Perm l')
    (h : l.Pairwise fun x y => key y ≤ key x) (h' : l'.Pairwise fun x y => key y ≤ key x) : l = l' := by
  have hantisymm : ∀ a b, a ∈ l → b ∈ l' → key b ≤ key a → key a ≤ key b → a = b := by
    intro a b ha hb hab hba
    exact List.inj_on_of_nodup_map hkeys ha (hperm.mem_iff.mpr hb) (le_antisymm hba hab)
  exact hperm.eq_of_pairwise hantisymm h h'

theorem bubble_rearranged (f : ℕ → α) {m n : ℕ} (h : m ≤ n) :
    Rearranged key (front f n) (front (bubble key m f) n) := by
  induction m generalizing f with
  | zero => exact .refl _
  | succ m ih => exact (pass_rearranged f h).trans (ih _ (by omega))

theorem bubble_settled {f : ℕ → α} {m n : ℕ} (h : Settled key f m n) : Settled key (bubble key m f) 0 n := by
  induction m generalizing f with
  | zero => exact h
  | succ m ih => exact ih (pass_settled h)

theorem bubble_ranking (f : ℕ → α) (n : ℕ) : Ranking key (front f n) (front (bubble key n f) n) := by
  refine ⟨bubble_rearranged f le_rfl, ?_⟩
  have hsettled : Settled key (bubble key n f) 0 n := bubble_settled fun j hj hn => absurd hn hj.not_gt
  exact front_pairwise.mpr fun i j hij hj => hsettled j (Nat.zero_le j) hj i hij

end EmbeddedOS.Bubble
