import EmbeddedOS.Library.Bubble
import EmbeddedOS.Hw3.History

namespace EmbeddedOS.Hw3

open CText Bubble

structure Table where
  data : ℤ → Inv
  bubble_tmp : Inv

def Inv.summed (r : Inv) : Inv := { r with sum := int32 (r.a + r.b + r.c) }

def sumRow (i : ℕ) (data : ℤ → Inv) (j : ℕ) : ℤ → Inv :=
  Function.update data (100 * i + j) (data (100 * i + j)).summed

def sumType (data : ℤ → Inv) (i : ℕ) : ℤ → Inv :=
  (List.range (data (100 * i)).type_num.toNat).foldl (sumRow i) data

def sumTypes (num : ℕ) (data : ℤ → Inv) : ℤ → Inv := (List.range num).foldl sumType data

def Inv.relabel (r other : Inv) : Inv := { r with line := other.line, city := other.city, sum := other.sum }

/-- Row `j` of type `i` receives three members of the next row, and the next row the whole of `bubble_tmp`. -/
def swapRows (i : ℕ) (t : Table) (j : ℕ) : Table :=
  let r := t.data (100 * i + j)
  let next := t.data (100 * i + (j + 1 : ℕ))
  let bubble_tmp := t.bubble_tmp.relabel r
  let data := Function.update t.data (100 * i + j) (r.relabel next)
  ⟨Function.update data (100 * i + (j + 1 : ℕ)) bubble_tmp, bubble_tmp⟩

def compareRows (i : ℕ) (t : Table) (j : ℕ) : Table :=
  if (t.data (100 * i + j)).sum < (t.data (100 * i + (j + 1 : ℕ))).sum then swapRows i t j else t

def sortPass (i toIndex : ℕ) (t : Table) : Table := (List.range toIndex).foldl (compareRows i) t

def sortLoop (i : ℕ) : ℕ → Table → Table
  | 0, t => t
  | toIndex + 1, t => if toIndex + 1 > 1 then sortLoop i toIndex (sortPass i toIndex t) else t

def sortType (t : Table) (i : ℕ) : Table := sortLoop i (t.data (100 * i)).type_num.toNat t

def sortTypes (num : ℕ) (t : Table) : Table := (List.range num).foldl sortType t

structure Row where
  line : ℤ
  city : Text
  sum : ℤ

def Inv.ranked (r : Inv) : Row := ⟨r.line, r.city, r.sum⟩

def Row.text (r : Row) : Text := decimal r.line ++ 32 :: (r.city ++ 32 :: (decimal r.sum ++ [newline]))

def rowOf (data : ℤ → Inv) (i j : ℕ) : Row := (data (100 * i + j)).ranked

def typeRows (data : ℤ → Inv) (i : ℕ) : List Row := front (rowOf data i) (data (100 * i)).type_num.toNat

def printRanking (num : ℕ) (data : ℤ → Inv) : Text :=
  newline :: (List.range num).flatMap fun i : ℕ =>
    (data (100 * i)).type ++ newline :: (typeRows data i).flatMap Row.text

def server_sort (num : ℕ) (t : Table) : Table × Text :=
  let t := sortTypes num { t with data := sumTypes num t.data }
  (t, printRanking num t.data)

theorem server_sort_printed (num : ℕ) (t : Table) :
    (server_sort num t).2 = printRanking num (server_sort num t).1.data := rfl

theorem foldl_range_succ {σ : Type*} (f : σ → ℕ → σ) (s : σ) (n : ℕ) :
    (List.range (n + 1)).foldl f s = f ((List.range n).foldl f s) n := by
  rw [List.range_succ, List.foldl_append]
  rfl

theorem foldl_range_fixed {σ : Type*} {f : σ → ℕ → σ} {s : σ} {n : ℕ} (h : ∀ j < n, f s j = s) :
    (List.range n).foldl f s = s := by
  induction n with
  | zero => rfl
  | succ n ih => rw [foldl_range_succ, ih fun j hj => h j (by omega), h n (Nat.lt_succ_self n)]

theorem summed_summed (r : Inv) : r.summed.summed = r.summed := rfl

def Summed (data data' : ℤ → Inv) : Prop := ∀ x, data' x = data x ∨ data' x = (data x).summed

theorem Summed.trans {data data' data'' : ℤ → Inv} (h : Summed data data') (h' : Summed data' data'') :
    Summed data data'' := by
  intro x
  rcases h x with hx | hx
  · rcases h' x with hx' | hx'
    · exact Or.inl (hx'.trans hx)
    · exact Or.inr (by rw [hx', hx])
  · rcases h' x with hx' | hx'
    · exact Or.inr (hx'.trans hx)
    · exact Or.inr (by rw [hx', hx]; rfl)

theorem Summed.stays {data data' data'' : ℤ → Inv} (h : Summed data' data'') {x : ℤ} (hx : data' x = (data x).summed) :
    data'' x = (data x).summed := by
  rcases h x with hx' | hx'
  · exact hx'.trans hx
  · rw [hx', hx]
    rfl

theorem Summed.head {data data' : ℤ → Inv} (h : Summed data data') (x : ℤ) :
    (data' x).type_num = (data x).type_num ∧ (data' x).type = (data x).type := by
  rcases h x with hx | hx
  · rw [hx]
    exact ⟨rfl, rfl⟩
  · rw [hx]
    exact ⟨rfl, rfl⟩

theorem sumRow_summed (i : ℕ) (data : ℤ → Inv) (j : ℕ) : Summed data (sumRow i data j) := by
  intro x
  by_cases hx : x = 100 * i + j
  · right
    rw [hx, sumRow, Function.update_self]
  · left
    rw [sumRow, Function.update_of_ne hx]

theorem foldl_sumRow (i : ℕ) (data : ℤ → Inv) (n : ℕ) : Summed data ((List.range n).foldl (sumRow i) data) ∧
    ∀ j < n, (List.range n).foldl (sumRow i) data (100 * i + j) = (data (100 * i + j)).summed := by
  induction n with
  | zero => exact ⟨fun x => Or.inl rfl, fun j hj => absurd hj j.not_lt_zero⟩
  | succ n ih =>
    obtain ⟨hsummed, hrows⟩ := ih
    rw [foldl_range_succ]
    have hlast := sumRow_summed i ((List.range n).foldl (sumRow i) data) n
    refine ⟨hsummed.trans hlast, fun j hj => ?_⟩
    rcases Nat.lt_succ_iff_lt_or_eq.mp hj with hj | rfl
    · exact hlast.stays (hrows j hj)
    · have hrow : sumRow i ((List.range j).foldl (sumRow i) data) j (100 * i + j) =
          ((List.range j).foldl (sumRow i) data (100 * i + j)).summed := Function.update_self ..
      rcases hsummed (100 * i + j) with hx | hx
      · rw [hrow, hx]
      · rw [hrow, hx]
        rfl

theorem sumTypes_rows (num : ℕ) (data : ℤ → Inv) : Summed data (sumTypes num data) ∧
    ∀ i < num, ∀ j : ℕ, j < (data (100 * i)).type_num →
      sumTypes num data (100 * i + j) = (data (100 * i + j)).summed := by
  induction num with
  | zero => exact ⟨fun x => Or.inl rfl, fun i hi => absurd hi i.not_lt_zero⟩
  | succ n ih =>
    obtain ⟨hsummed, hrows⟩ := ih
    have hstep : sumTypes (n + 1) data = sumType (sumTypes n data) n := foldl_range_succ ..
    obtain ⟨hlast, hlastRows⟩ := foldl_sumRow n (sumTypes n data) (sumTypes n data (100 * n)).type_num.toNat
    rw [hstep]
    refine ⟨hsummed.trans hlast, fun i hi j hj => ?_⟩
    rcases Nat.lt_succ_iff_lt_or_eq.mp hi with hi | rfl
    · exact hlast.stays (hrows i hi j hj)
    · rw [← (hsummed.head (100 * i)).1] at hj
      have hrow := hlastRows j (by omega)
      rcases hsummed (100 * i + j) with hx | hx
      · rw [sumType, hrow, hx]
      · rw [sumType, hrow, hx]
        rfl

theorem other_row {i k : ℕ} {j l : ℕ} (hik : i ≠ k) (hj : j < 100) (hl : l < 100) :
    (100 * k + l : ℤ) ≠ 100 * i + j := by
  omega

theorem swapRows_first (i : ℕ) (t : Table) (j : ℕ) : (swapRows i t j).data (100 * i + j) =
    (t.data (100 * i + j)).relabel (t.data (100 * i + (j + 1 : ℕ))) := by
  have hne : (100 * i + j : ℤ) ≠ 100 * i + (j + 1 : ℕ) := by omega
  simp only [swapRows, Function.update_of_ne hne, Function.update_self]

theorem swapRows_next (i : ℕ) (t : Table) (j : ℕ) :
    ((swapRows i t j).data (100 * i + (j + 1 : ℕ))).ranked = (t.data (100 * i + j)).ranked := by
  simp only [swapRows, Function.update_self]
  rfl

theorem swapRows_of_ne (i : ℕ) (t : Table) {j : ℕ} {x : ℤ} (h : x ≠ 100 * i + j) (h' : x ≠ 100 * i + (j + 1 : ℕ)) :
    (swapRows i t j).data x = t.data x := by
  simp only [swapRows, Function.update_of_ne h', Function.update_of_ne h]

theorem compareRows_rowOf (i : ℕ) (t : Table) (j : ℕ) :
    rowOf (compareRows i t j).data i = exchange Row.sum (rowOf t.data i) j := by
  by_cases h : (t.data (100 * i + j)).sum < (t.data (100 * i + (j + 1 : ℕ))).sum
  · have hkey : (rowOf t.data i j).sum < (rowOf t.data i (j + 1)).sum := h
    rw [compareRows, if_pos h]
    funext l
    by_cases hl : l = j
    · subst hl
      rw [(exchange_swaps hkey).1, rowOf, swapRows_first]
      rfl
    · by_cases hl' : l = j + 1
      · subst hl'
        rw [(exchange_swaps hkey).2]
        exact swapRows_next i t j
      · rw [exchange_of_lt (by omega), rowOf, swapRows_of_ne i t (by omega) (by omega)]
        rfl
  · have hkey : ¬ (rowOf t.data i j).sum < (rowOf t.data i (j + 1)).sum := h
    rw [compareRows, if_neg h, exchange_stays hkey]

theorem compareRows_other {i k : ℕ} (hik : i ≠ k) (t : Table) {j l : ℕ} (hj : j + 1 < 100) (hl : l < 100) :
    (compareRows i t j).data (100 * k + l) = t.data (100 * k + l) := by
  unfold compareRows
  split_ifs
  · exact swapRows_of_ne i t (other_row hik (by omega) hl) (other_row hik hj hl)
  · rfl

theorem compareRows_head (i : ℕ) (t : Table) {j : ℕ} (hj : j + 1 < 100) (k : ℕ) :
    ((compareRows i t j).data (100 * k)).type_num = (t.data (100 * k)).type_num ∧
      ((compareRows i t j).data (100 * k)).type = (t.data (100 * k)).type := by
  unfold compareRows
  split_ifs
  · have hnext : (100 * k : ℤ) ≠ 100 * i + (j + 1 : ℕ) := by omega
    by_cases hrow : (100 * k : ℤ) = 100 * i + j
    · rw [hrow, swapRows_first]
      exact ⟨rfl, rfl⟩
    · rw [swapRows_of_ne i t hrow hnext]
      exact ⟨rfl, rfl⟩
  · exact ⟨rfl, rfl⟩

def Whole (data : ℤ → Inv) (i n : ℕ) : Prop :=
  ∀ j < n, (data (100 * i + j)).sum = (data (100 * i + j)).summed.sum

def Broken (data : ℤ → Inv) (i n : ℕ) : Prop :=
  ∃ j < n, (data (100 * i + j)).summed.sum < (data (100 * i + j)).sum ∧ Whole data i j

theorem Broken.not_whole {data : ℤ → Inv} {i n : ℕ} (h : Broken data i n) : ¬ Whole data i n := by
  obtain ⟨j, hj, hmore, -⟩ := h
  intro hwhole
  exact hmore.ne (hwhole j hj).symm

theorem swapRows_broken {i n : ℕ} {t : Table} {j : ℕ} (hj : j + 1 < n)
    (hlt : (t.data (100 * i + j)).sum < (t.data (100 * i + (j + 1 : ℕ))).sum)
    (h : Whole t.data i n ∨ Broken t.data i n) : Broken (swapRows i t j).data i n := by
  have hbefore {l : ℕ} (hl : l < j) : (swapRows i t j).data (100 * i + l) = t.data (100 * i + l) :=
    swapRows_of_ne i t (by omega) (by omega)
  have hfirst := swapRows_first i t j
  have of_le {m : ℕ} (hm : j ≤ m) (hwhole : Whole t.data i m)
      (hle : (t.data (100 * i + j)).summed.sum ≤ (t.data (100 * i + j)).sum) : Broken (swapRows i t j).data i n := by
    refine ⟨j, by omega, ?_, fun l hl => ?_⟩
    · rw [hfirst]
      exact hle.trans_lt hlt
    · rw [hbefore hl]
      exact hwhole l (by omega)
  rcases h with hwhole | ⟨m, hm, hmore, hwhole⟩
  · exact of_le (by omega) hwhole (hwhole j (by omega)).ge
  · rcases Nat.lt_trichotomy j m with hjm | rfl | hmj
    · exact of_le hjm.le hwhole (hwhole j hjm).ge
    · exact of_le le_rfl hwhole hmore.le
    · refine ⟨m, hm, ?_, fun l hl => ?_⟩
      · rw [hbefore hmj]
        exact hmore
      · rw [hbefore (by omega)]
        exact hwhole l hl

theorem sortPass_succ (i n : ℕ) (t : Table) : sortPass i (n + 1) t = compareRows i (sortPass i n t) n :=
  foldl_range_succ ..

theorem sortLoop_succ (i n : ℕ) (t : Table) : sortLoop i (n + 1) t = sortLoop i n (sortPass i n t) := by
  cases n with
  | zero => rfl
  | succ n => rw [sortLoop, if_pos (by omega)]

theorem sortLoop_invariant {P : Table → Prop} {i n : ℕ} (hstep : ∀ t j, j + 1 < n → P t → P (compareRows i t j))
    {m : ℕ} (hm : m ≤ n) {t : Table} (ht : P t) : P (sortLoop i m t) := by
  have hpass {m : ℕ} (hm : m < n) {t : Table} (ht : P t) : P (sortPass i m t) := by
    induction m with
    | zero => exact ht
    | succ m ih =>
      rw [sortPass_succ]
      exact hstep _ m hm (ih (by omega))
  induction m generalizing t with
  | zero => exact ht
  | succ m ih =>
    rw [sortLoop_succ]
    exact ih (by omega) (hpass hm ht)

theorem sortLoop_rowOf (i n : ℕ) (t : Table) :
    rowOf (sortLoop i n t).data i = bubble Row.sum n (rowOf t.data i) := by
  have hpass (n : ℕ) (t : Table) : rowOf (sortPass i n t).data i = Bubble.pass Row.sum (rowOf t.data i) n := by
    induction n with
    | zero => rfl
    | succ n ih => rw [sortPass_succ, compareRows_rowOf, ih, Bubble.pass]
  induction n generalizing t with
  | zero => rfl
  | succ n ih => rw [sortLoop_succ, ih, hpass, bubble]

theorem sortLoop_other {i k : ℕ} (hik : i ≠ k) (t : Table) {n l : ℕ} (hn : n ≤ 100) (hl : l < 100) :
    (sortLoop i n t).data (100 * k + l) = t.data (100 * k + l) := by
  refine sortLoop_invariant (P := fun t' => t'.data (100 * k + l) = t.data (100 * k + l)) (fun t' j hj h => ?_) hn rfl
  rw [compareRows_other hik t' hj hl, h]

theorem sortLoop_head (i : ℕ) (t : Table) {n : ℕ} (hn : n ≤ 100) (k : ℕ) :
    ((sortLoop i n t).data (100 * k)).type_num = (t.data (100 * k)).type_num ∧
      ((sortLoop i n t).data (100 * k)).type = (t.data (100 * k)).type := by
  refine sortLoop_invariant (P := fun t' => (t'.data (100 * k)).type_num = (t.data (100 * k)).type_num ∧
    (t'.data (100 * k)).type = (t.data (100 * k)).type) (fun t' j hj h => ?_) hn ⟨rfl, rfl⟩
  obtain ⟨hnum, htype⟩ := compareRows_head i t' hj k
  exact ⟨hnum.trans h.1, htype.trans h.2⟩

theorem sortLoop_broken {i n : ℕ} {t : Table} (h : Whole t.data i n) :
    sortLoop i n t = t ∨ Broken (sortLoop i n t).data i n := by
  refine sortLoop_invariant (P := fun t' => t' = t ∨ Broken t'.data i n) (fun t' j hj h' => ?_) le_rfl (Or.inl rfl)
  unfold compareRows
  split_ifs with hlt
  · right
    apply swapRows_broken hj hlt
    rcases h' with rfl | hbroken
    · exact Or.inl h
    · exact Or.inr hbroken
  · exact h'

def SameType (data data' : ℤ → Inv) (i : ℕ) : Prop := ∀ j : ℕ, j < 100 → data' (100 * i + j) = data (100 * i + j)

theorem SameType.head {data data' : ℤ → Inv} {i : ℕ} (h : SameType data data' i) :
    data' (100 * i) = data (100 * i) := by
  simpa using h 0 (by norm_num)

theorem SameType.rows {data data' : ℤ → Inv} {i : ℕ} (h : SameType data data' i)
    (hsize : (data (100 * i)).type_num ≤ 100) : typeRows data' i = typeRows data i := by
  rw [typeRows, typeRows, h.head]
  apply List.map_congr_left
  intro j hj
  have hj' := List.mem_range.mp hj
  rw [rowOf, rowOf, h j (by omega)]

theorem Whole.congr {data data' : ℤ → Inv} {i n : ℕ} (hn : n ≤ 100) (h : Whole data i n)
    (hsame : SameType data data' i) : Whole data' i n := by
  intro j hj
  rw [hsame j (by omega)]
  exact h j hj

theorem Broken.congr {data data' : ℤ → Inv} {i n : ℕ} (hn : n ≤ 100) (h : Broken data i n)
    (hsame : SameType data data' i) : Broken data' i n := by
  obtain ⟨j, hj, hmore, hwhole⟩ := h
  refine ⟨j, hj, ?_, hwhole.congr (by omega) hsame⟩
  rw [hsame j (by omega)]
  exact hmore

structure SortedType (data data' : ℤ → Inv) (i : ℕ) : Prop where
  ranking : Ranking Row.sum (typeRows data i) (typeRows data' i)
  head : (data' (100 * i)).type_num = (data (100 * i)).type_num ∧ (data' (100 * i)).type = (data (100 * i)).type
  counts : SameType data data' i ∨ Broken data' i (data (100 * i)).type_num.toNat

theorem SortedType.then_same {data data' data'' : ℤ → Inv} {i : ℕ} (h : SortedType data data' i)
    (hsame : SameType data' data'' i) (hsize : (data (100 * i)).type_num ≤ 100) : SortedType data data'' i := by
  obtain ⟨hranking, ⟨hnum, htype⟩, hcounts⟩ := h
  constructor
  · rw [hsame.rows (hnum ▸ hsize)]
    exact hranking
  · rw [hsame.head]
    exact ⟨hnum, htype⟩
  · rcases hcounts with hcounts | hbroken
    · exact Or.inl fun j hj => (hsame j hj).trans (hcounts j hj)
    · exact Or.inr (hbroken.congr (by omega) hsame)

theorem SortedType.after_same {data data' data'' : ℤ → Inv} {i : ℕ} (h : SortedType data' data'' i)
    (hsame : SameType data data' i) (hsize : (data (100 * i)).type_num ≤ 100) : SortedType data data'' i := by
  obtain ⟨hranking, hhead, hcounts⟩ := h
  rw [hsame.rows hsize] at hranking
  rw [hsame.head] at hhead hcounts
  refine ⟨hranking, hhead, hcounts.imp (fun hcounts j hj => ?_) fun hbroken => hbroken⟩
  exact (hcounts j hj).trans (hsame j hj)

theorem sortType_sorted {t : Table} {i : ℕ} (hsize : (t.data (100 * i)).type_num ≤ 100)
    (hwhole : Whole t.data i (t.data (100 * i)).type_num.toNat) : SortedType t.data (sortType t i).data i := by
  have hhead := sortLoop_head i t (n := (t.data (100 * i)).type_num.toNat) (by omega) i
  constructor
  · have hranking : Ranking Row.sum _ _ := bubble_ranking (rowOf t.data i) (t.data (100 * i)).type_num.toNat
    rw [← sortLoop_rowOf] at hranking
    rw [sortType, typeRows, typeRows, hhead.1]
    exact hranking
  · exact hhead
  · rcases sortLoop_broken hwhole with hsame | hbroken
    · left
      rw [sortType, hsame]
      exact fun _ _ => rfl
    · exact Or.inr hbroken

theorem sortType_other (t : Table) {i k : ℕ} (hik : i ≠ k) (hsize : (t.data (100 * i)).type_num ≤ 100) :
    SameType t.data (sortType t i).data k :=
  fun _ hl => sortLoop_other hik t (by omega) hl

theorem sortTypes_sorted {num : ℕ} {t : Table} (hsize : ∀ i < num, (t.data (100 * i)).type_num ≤ 100)
    (hwhole : ∀ i < num, Whole t.data i (t.data (100 * i)).type_num.toNat) :
    (∀ i < num, SortedType t.data (sortTypes num t).data i) ∧
      ∀ k, num ≤ k → SameType t.data (sortTypes num t).data k := by
  induction num with
  | zero => exact ⟨fun i hi => absurd hi i.not_lt_zero, fun k _ j _ => rfl⟩
  | succ n ih =>
    obtain ⟨hsorted, hsame⟩ := ih (fun i hi => hsize i (by omega)) fun i hi => hwhole i (by omega)
    have hstep : sortTypes (n + 1) t = sortType (sortTypes n t) n := foldl_range_succ ..
    have hhead := (hsame n le_rfl).head
    have hsize' : ((sortTypes n t).data (100 * n)).type_num ≤ 100 := by
      rw [hhead]
      exact hsize n (Nat.lt_succ_self n)
    rw [hstep]
    constructor
    · intro i hi
      rcases Nat.lt_succ_iff_lt_or_eq.mp hi with hi | rfl
      · exact (hsorted i hi).then_same (sortType_other _ (by omega) hsize') (hsize i (by omega))
      · have hlast := hsize i (Nat.lt_succ_self i)
        have hwhole' : Whole (sortTypes i t).data i ((sortTypes i t).data (100 * i)).type_num.toNat := by
          rw [hhead]
          exact (hwhole i (Nat.lt_succ_self i)).congr (by omega) (hsame i le_rfl)
        exact (sortType_sorted hsize' hwhole').after_same (hsame i le_rfl) hlast
    · intro k hk
      have hother := sortType_other (sortTypes n t) (i := n) (k := k) (by omega) hsize'
      exact fun j hj => (hother j hj).trans (hsame k (by omega) j hj)

namespace Inventory

variable (v : Inventory)

def cityCount (i : ℕ) : ℕ := (v.data (100 * i)).type_num.toNat

def totals (i : ℕ) : List Row :=
  front (fun j => ⟨(v.data (100 * i + j)).line, (v.data (100 * i + j)).city,
    (v.data (100 * i + j)).a + (v.data (100 * i + j)).b + (v.data (100 * i + j)).c⟩) (v.cityCount i)

theorem sorted (bubble_tmp : Inv) : ∀ i < v.num, SortedType (sumTypes v.num v.data)
    (server_sort v.num ⟨v.data, bubble_tmp⟩).1.data i := by
  obtain ⟨hsummed, hrows⟩ := sumTypes_rows v.num v.data
  refine (sortTypes_sorted (t := ⟨sumTypes v.num v.data, bubble_tmp⟩) (fun i hi => ?_) fun i hi j hj => ?_).1
  · exact (hsummed.head _).1.trans_le (v.type_num_le i hi)
  · rw [(hsummed.head _).1] at hj
    have hrow := hrows i hi j (by omega)
    change (sumTypes v.num v.data (100 * i + j)).sum = (sumTypes v.num v.data (100 * i + j)).summed.sum
    rw [hrow]
    rfl

end Inventory

theorem server_sort_ranks (v : Inventory) (bubble_tmp : Inv)
    (hfits : ∀ i < v.num, ∀ j : ℕ, j < (v.data (100 * i)).type_num →
      IsInt32 ((v.data (100 * i + j)).a + (v.data (100 * i + j)).b + (v.data (100 * i + j)).c)) :
    ∃ ranking : ℕ → List Row, (∀ i < v.num, Ranking Row.sum (v.totals i) (ranking i)) ∧
      (server_sort v.num ⟨v.data, bubble_tmp⟩).2 = newline :: (List.range v.num).flatMap fun i : ℕ =>
        (v.data (100 * i)).type ++ newline :: (ranking i).flatMap Row.text := by
  obtain ⟨hsummed, hrows⟩ := sumTypes_rows v.num v.data
  have hsorted := v.sorted bubble_tmp
  refine ⟨typeRows (server_sort v.num ⟨v.data, bubble_tmp⟩).1.data, fun i hi => ?_, ?_⟩
  · have htotals : typeRows (sumTypes v.num v.data) i = v.totals i := by
      rw [typeRows, (hsummed.head _).1]
      apply List.map_congr_left
      intro j hj
      have hj' : (j : ℤ) < (v.data (100 * i)).type_num := by
        have := List.mem_range.mp hj
        omega
      rw [rowOf, hrows i hi j hj', Inv.ranked, Inv.summed, int32_of_isInt32 (hfits i hi j hj')]
    rw [← htotals]
    exact (hsorted i hi).ranking
  · rw [server_sort_printed, printRanking]
    congr 1
    apply List.flatMap_congr
    intro i hi
    rw [(hsorted i (List.mem_range.mp hi)).head.2, (hsummed.head _).2]

theorem server_sort_ranks_sample : ∃ ranking : ℕ → List Row,
    (∀ i < 1, Ranking Row.sum (sampleShop.totals i) (ranking i)) ∧
      (server_sort 1 ⟨sampleData, sampleData 2⟩).2 = newline :: (List.range 1).flatMap fun i : ℕ =>
        (sampleData (100 * i)).type ++ newline :: (ranking i).flatMap Row.text := by
  refine server_sort_ranks sampleShop.toInventory (sampleData 2) fun i hi j hj => ?_
  obtain rfl : i = 0 := Nat.lt_one_iff.mp hi
  have hj2 : j < 2 := by
    have h2 : (sampleShop.data (100 * (0 : ℕ))).type_num = 2 := by decide
    omega
  interval_cases j <;> decide

def Inv.stock (r : Inv) : ℤ × Text × ℤ × ℤ × ℤ := (r.line, r.city, r.a, r.b, r.c)

def rows (data : ℤ → Inv) (i n : ℕ) : List Inv := front (fun j : ℕ => data (100 * i + j)) n

/-- Every city has its own counts, and the table can be sorted and shown again. -/
structure WholeRecords (v : Inventory) (t t' : Table) : Prop where
  stock : ∀ i < v.num, ((rows t'.data i (v.cityCount i)).map Inv.stock).Perm
    ((rows t.data i (v.cityCount i)).map Inv.stock)
  sums : ∀ i < v.num, ∀ r ∈ rows t'.data i (v.cityCount i), r.sum = int32 (r.a + r.b + r.c)
  again : (server_sort v.num t').2 = (server_sort v.num t).2
  shown : ∀ g : Globals, g.num = v.num → g.data = t.data → ∀ i < v.num,
    ((cities { g with data := t'.data } i).map cityText).Perm ((cities g i).map cityText)

def Inventory.InOrder (v : Inventory) : Prop :=
  ∀ i < v.num, ∀ j : ℕ, j + 1 < v.cityCount i →
    (v.data (100 * i + (j + 1 : ℕ))).summed.sum ≤ (v.data (100 * i + j)).summed.sum

theorem Summed.stock {data data' : ℤ → Inv} (h : Summed data data') (x : ℤ) : (data' x).stock = (data x).stock := by
  rcases h x with hx | hx
  · rw [hx]
  · rw [hx]
    rfl

theorem Summed.cityText {data data' : ℤ → Inv} (h : Summed data data') (x : ℤ) :
    cityText (data' x) = cityText (data x) := by
  rcases h x with hx | hx
  · rw [hx]
  · rw [hx]
    rfl

theorem sortTypes_fixed {num : ℕ} {t : Table} (h : ∀ i < num, ∀ j : ℕ, j + 1 < (t.data (100 * i)).type_num →
    (t.data (100 * i + (j + 1 : ℕ))).sum ≤ (t.data (100 * i + j)).sum) : sortTypes num t = t := by
  apply foldl_range_fixed
  intro i hi
  refine sortLoop_invariant (P := fun t' => t' = t) (fun t' j hj ht => ?_) le_rfl rfl
  rw [ht, compareRows, if_neg]
  exact not_lt.mpr (h i hi j (by omega))

namespace Inventory

variable (v : Inventory)

theorem sumTypes_again : sumTypes v.num (sumTypes v.num v.data) = sumTypes v.num v.data := by
  obtain ⟨hsummed, hrows⟩ := sumTypes_rows v.num v.data
  refine foldl_range_fixed fun i hi => foldl_range_fixed fun j hj => ?_
  rw [(hsummed.head _).1] at hj
  have hrow := hrows i hi j (by omega)
  rw [sumRow, hrow, summed_summed, ← hrow, Function.update_eq_self]

theorem InOrder.sort_eq {v : Inventory} (h : v.InOrder) (bubble_tmp : Inv) :
    (server_sort v.num ⟨v.data, bubble_tmp⟩).1 = ⟨sumTypes v.num v.data, bubble_tmp⟩ := by
  obtain ⟨hsummed, hrows⟩ := sumTypes_rows v.num v.data
  apply sortTypes_fixed
  intro i hi j hj
  rw [(hsummed.head _).1] at hj
  have hnext := hrows i hi (j + 1) hj
  have hrow := hrows i hi j (by omega)
  change (sumTypes v.num v.data _).sum ≤ (sumTypes v.num v.data _).sum
  rw [hnext, hrow]
  exact h i hi j (by unfold cityCount; omega)

end Inventory

theorem wholeRecords_of_inOrder {v : Inventory} (h : v.InOrder) (bubble_tmp : Inv) :
    WholeRecords v ⟨v.data, bubble_tmp⟩ (server_sort v.num ⟨v.data, bubble_tmp⟩).1 := by
  obtain ⟨hsummed, hrows⟩ := sumTypes_rows v.num v.data
  rw [h.sort_eq]
  constructor
  · intro i _
    rw [rows, rows, front, front, List.map_map, List.map_map]
    exact .of_eq (List.map_congr_left fun j _ => hsummed.stock _)
  · intro i hi r hr
    obtain ⟨j, hj, rfl⟩ := List.mem_map.mp hr
    have hj' := List.mem_range.mp hj
    have hrow := hrows i hi j (by unfold Inventory.cityCount at hj'; omega)
    simp only [hrow]
    rfl
  · rw [server_sort, v.sumTypes_again]
    rfl
  · intro g hnum hdata i hi
    change g.data = v.data at hdata
    have hcount : (Globals.row { g with data := sumTypes v.num v.data } i 0).type_num = (g.row i 0).type_num := by
      rw [Globals.row, Globals.row, hdata]
      exact (hsummed.head _).1
    rw [cities, cities, hcount, List.map_map, List.map_map]
    apply List.Perm.of_eq
    apply List.map_congr_left
    intro j _
    rw [Function.comp_apply, Function.comp_apply, Globals.row, Globals.row, hdata]
    exact hsummed.cityText _

theorem wholeRecords_iff (v : Inventory) (bubble_tmp : Inv) :
    WholeRecords v ⟨v.data, bubble_tmp⟩ (server_sort v.num ⟨v.data, bubble_tmp⟩).1 ↔ v.InOrder := by
  refine ⟨fun h i hi j hj => ?_, fun h => wholeRecords_of_inOrder h bubble_tmp⟩
  obtain ⟨hsummed, hrows⟩ := sumTypes_rows v.num v.data
  obtain ⟨hranking, hhead, hcounts⟩ := v.sorted bubble_tmp i hi
  rw [(hsummed.head _).1] at hcounts
  have hwhole : Whole (server_sort v.num ⟨v.data, bubble_tmp⟩).1.data i (v.cityCount i) := by
    intro l hl
    exact h.sums i hi _ (mem_front hl)
  have hsame := hcounts.resolve_right fun hbroken => hbroken.not_whole hwhole
  have hsize : (sumTypes v.num v.data (100 * i)).type_num ≤ 100 :=
    (hsummed.head _).1.trans_le (v.type_num_le i hi)
  have hsorted := hranking.sorted
  rw [hsame.rows hsize, typeRows, (hsummed.head _).1] at hsorted
  have hpair := front_pairwise.mp hsorted j (j + 1) (Nat.lt_succ_self j) hj
  rw [rowOf, rowOf, hrows i hi j (by unfold Inventory.cityCount at hj; omega),
    hrows i hi (j + 1) (by unfold Inventory.cityCount at hj; omega)] at hpair
  exact hpair

def risingData (a : ℤ) : Inv :=
  if a = 0 then ⟨1, 1, 0, 0, 2, 0, lit "S1", lit "C1"⟩
  else if a = 1 then ⟨2, 2, 0, 0, 0, 0, [], lit "C2"⟩
  else ⟨0, 0, 0, 0, 0, 0, [], []⟩

theorem rising_num_le : 1 ≤ 15 := by decide

theorem rising_type_num_le : ∀ i < 1, (risingData (100 * (i : ℕ))).type_num ≤ 100 := by decide

theorem rising_city_name : ∀ i < 1, ∀ j : ℕ, j < (risingData (100 * (i : ℕ))).type_num →
    IsName 50 (risingData (100 * (i : ℕ) + j)).city := by
  intro i hi j hj
  obtain rfl : i = 0 := by omega
  have hj2 : j < 2 := by
    have h2 : (risingData (100 * (0 : ℕ))).type_num = 2 := by decide
    omega
  interval_cases j
  · exact sampleShop.city_name 0 (by decide) 0 (by decide)
  · exact sampleShop.city_name 0 (by decide) 1 (by decide)

theorem rising_type_name : ∀ i < 1, IsName 20 (risingData (100 * (i : ℕ))).type := by
  intro i hi
  obtain rfl : i = 0 := by omega
  exact sampleShop.type_name 0 (by decide)

def risingShop : Inventory where
  num := 1
  data := risingData
  num_le := rising_num_le
  type_num_le := rising_type_num_le
  type_name := rising_type_name
  city_name := rising_city_name

theorem wholeRecords_fails :
    (rows (server_sort 1 ⟨risingData, ⟨0, 0, 0, 0, 0, 0, [], []⟩⟩).1.data 0 2).map Inv.stock =
        [(2, lit "C2", 1, 0, 0), (1, lit "C1", 0, 0, 0)] ∧
      ¬ WholeRecords risingShop ⟨risingData, ⟨0, 0, 0, 0, 0, 0, [], []⟩⟩
        (server_sort 1 ⟨risingData, ⟨0, 0, 0, 0, 0, 0, [], []⟩⟩).1 := by
  constructor
  · decide
  · intro h
    have hsum := h.sums 0 (by decide) _ (mem_front (n := risingShop.cityCount 0) (i := 0) (by decide))
    exact absurd hsum (by decide)

end EmbeddedOS.Hw3
