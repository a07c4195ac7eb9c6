import Mathlib

namespace EmbeddedOS.Tables

variable {α κ ν : Type*} [Ord κ]

def insertAll (key : α → κ) (val : α → ν) (l : List α) : Std.TreeMap κ ν :=
  l.foldl (fun m x => m.insert (key x) (val x)) ∅

def fill (key : ℕ → κ) (val : ℕ → ν) (n : ℕ) : Std.TreeMap κ ν :=
  (List.range n).foldl (fun m i => m.insert (key i) (val i)) ∅

theorem insertAll_concat (key : α → κ) (val : α → ν) (l : List α) (x : α) :
    insertAll key val (l ++ [x]) = (insertAll key val l).insert (key x) (val x) := by
  simp [insertAll]

theorem insertAll_map {β : Type*} (key : α → κ) (val : α → ν) (f : β → α) (l : List β) :
    insertAll key val (l.map f) = insertAll (fun x => key (f x)) (fun x => val (f x)) l := List.foldl_map

theorem fill_eq_insertAll (key : ℕ → κ) (val : ℕ → ν) (n : ℕ) :
    fill key val n = insertAll key val (List.range n) := rfl

variable [Std.TransOrd κ] [Std.LawfulEqOrd κ]

theorem insertAll_eq_none (key : α → κ) (val : α → ν) {l : List α} {k : κ} (h : ∀ x ∈ l, key x ≠ k) :
    (insertAll key val l)[k]? = none := by
  induction l using List.reverseRecOn with
  | nil => simp [insertAll]
  | append_singleton l x ih =>
    have hx : key x ≠ k := h x (by simp)
    rw [insertAll_concat, Std.TreeMap.getElem?_insert]
    simp only [Std.LawfulEqCmp.compare_eq_iff_eq, hx, ↓reduceIte]
    exact ih fun y hy => h y (by simp [hy])

theorem insertAll_eq_some (key : α → κ) (val : α → ν) {l : List α} (hkey : (l.map key).Nodup) {x : α}
    (hx : x ∈ l) : (insertAll key val l)[key x]? = some (val x) := by
  induction l using List.reverseRecOn with
  | nil => cases hx
  | append_singleton l y ih =>
    rw [List.map_append, List.map_singleton, List.nodup_append'] at hkey
    obtain ⟨hl, -, hdisjoint⟩ := hkey
    rw [insertAll_concat, Std.TreeMap.getElem?_insert]
    rcases List.mem_append.mp hx with hm | hm
    · have hne : key y ≠ key x := fun he => hdisjoint (List.mem_map_of_mem hm) (by simp [he])
      simp only [Std.LawfulEqCmp.compare_eq_iff_eq, hne, ↓reduceIte]
      exact ih hl hm
    · obtain rfl := List.mem_singleton.mp hm
      simp

theorem insertAll_eq_some_iff (key : α → κ) (val : α → ν) {l : List α} (hkey : (l.map key).Nodup) {k : κ} {v : ν} :
    (insertAll key val l)[k]? = some v ↔ ∃ x ∈ l, key x = k ∧ val x = v := by
  constructor
  · intro h
    by_contra hnone
    by_cases hk : ∃ x ∈ l, key x = k
    · obtain ⟨x, hx, rfl⟩ := hk
      rw [insertAll_eq_some key val hkey hx, Option.some_inj] at h
      exact hnone ⟨x, hx, rfl, h⟩
    · rw [insertAll_eq_none key val fun x hx he => hk ⟨x, hx, he⟩] at h
      cases h
  · rintro ⟨x, hx, rfl, rfl⟩
    exact insertAll_eq_some key val hkey hx

theorem fill_eq_none (key : ℕ → κ) (val : ℕ → ν) (n : ℕ) {k : κ} (h : ∀ i < n, key i ≠ k) :
    (fill key val n)[k]? = none := by
  apply insertAll_eq_none
  intro i hi
  exact h i (List.mem_range.mp hi)

theorem fill_eq_some (key : ℕ → κ) (val : ℕ → ν) (n : ℕ) (hkey : ∀ i < n, ∀ j < n, key i = key j → i = j) {i : ℕ}
    (hi : i < n) : (fill key val n)[key i]? = some (val i) := by
  refine insertAll_eq_some key val (List.nodup_range.map_on ?_) (List.mem_range.mpr hi)
  intro i hi j hj
  exact hkey i (List.mem_range.mp hi) j (List.mem_range.mp hj)

theorem keys_eq_of_ordered {m : Std.TreeMap κ ν} {l : List κ} (hl : l.Pairwise fun a b => compare a b = .lt)
    (hmem : ∀ k, k ∈ m ↔ k ∈ l) : m.keys = l := by
  have hirrefl : Std.Irrefl fun a b : κ => compare a b = .lt := ⟨fun a h => by simp at h⟩
  have hantisymm : Std.Antisymm fun a b : κ => compare a b = .lt := by
    refine ⟨fun a b hab hba => ?_⟩
    rw [Std.OrientedOrd.eq_swap, hba] at hab
    cases hab
  apply m.ordered_keys.eq_of_mem_iff hl
  intro k
  rw [Std.TreeMap.mem_keys, hmem]

theorem toList_eq_map {m : Std.TreeMap κ ν} {val : κ → ν} (h : ∀ k v, m[k]? = some v → val k = v) :
    m.toList = m.keys.map fun k => (k, val k) := by
  rw [← Std.TreeMap.map_fst_toList_eq_keys, List.map_map]
  refine (List.map_id _).symm.trans (List.map_congr_left ?_)
  rintro ⟨k, v⟩ hkv
  rw [Std.TreeMap.mem_toList_iff_getElem?_eq_some] at hkv
  simp [h k v hkv]

end EmbeddedOS.Tables
