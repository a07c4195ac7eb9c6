import EmbeddedOS.Hw3.Expected
import EmbeddedOS.Hw3.Ranking

namespace EmbeddedOS.Hw3

open CText Runs Bubble

def cityRows (st : Store) : List Row :=
  st.cities_map.toList.map fun q => ⟨q.2.id, q.2.name, int32 (q.2.mask 0 + q.2.mask 1 + q.2.mask 2)⟩

def city_sort (sort : List Row → List Row) (mydata : DB) : Text :=
  mydata.stores_map.toList.flatMap fun it => it.1 ++ newline :: (sort (cityRows it.2)).flatMap Row.text

/-- What `std::sort` promises for `city_compare`; rows with one sum are left in any order. -/
structure Sorts (sort : List Row → List Row) : Prop where
  perm : ∀ l, (sort l).Perm l
  sorted : ∀ l, (sort l).Pairwise fun x y => y.sum ≤ x.sum

section Left

variable (b : Boot) (es : List Event)

theorem remaining_type_num_le : ∀ i < b.num, ((b.after es).globals.data (100 * i)).type_num ≤ 100 := by
  intro i hi
  rw [type_num_after]
  exact b.type_num_le i hi

theorem remaining_type_name : ∀ i < b.num, IsName 20 ((b.after es).globals.data (100 * i)).type := by
  intro i hi
  rw [type_after]
  exact b.type_name i hi

theorem remaining_city_name : ∀ i < b.num, ∀ j : ℕ, j < ((b.after es).globals.data (100 * i)).type_num →
    IsName 50 ((b.after es).globals.data (100 * i + j)).city := by
  intro i hi j hj
  rw [type_num_after] at hj
  have hcity := ((same_after b es).row i j).2.2.2
  rw [Globals.row] at hcity
  rw [hcity]
  exact b.city_name i hi j hj

def Boot.remaining : Inventory where
  num := b.num
  data := (b.after es).globals.data
  num_le := b.num_le
  type_num_le := remaining_type_num_le b es
  type_name := remaining_type_name b es
  city_name := remaining_city_name b es

end Left

def unsorted (g : Globals) (i : ℕ) : List Row :=
  (List.range (g.row i 0).type_num.toNat).map fun j : ℕ => (g.row i j).summed.ranked

theorem typeRows_unsorted (g : Globals) : ∀ i < g.num, typeRows (sumTypes g.num g.data) i = unsorted g i := by
  intro i hi
  obtain ⟨hsummed, hrows⟩ := sumTypes_rows g.num g.data
  have htype : g.row i 0 = g.data (100 * i) := by rw [Globals.row, add_zero]
  rw [typeRows, unsorted, front, (hsummed.head _).1, htype]
  apply List.map_congr_left
  intro j hj
  rw [List.mem_range] at hj
  rw [rowOf, hrows i hi j (by omega), Globals.row]

theorem SameStock.cityRows {g : Globals} {d : DB} (h : SameStock g d)
    (hline : ∀ i < g.num, ∀ j : ℕ, j < (g.row i 0).type_num → (g.row i j).line = j + 1) {name : Text} {st : Store}
    (hst : d.stores_map[name]? = some st) : ∃ i, findType g name = some i ∧ Hw3.cityRows st = unsorted g i := by
  obtain ⟨i, hi, -, hcities⟩ := h.store hst
  refine ⟨i, hi, ?_⟩
  rw [Hw3.cityRows, cities_map_toList hcities, unsorted, List.map_map]
  apply List.map_congr_left
  intro j hj
  rw [List.mem_range] at hj
  have hrow := hline i (findType_eq_some hi).1 j (by omega)
  simp [Inv.ranked, Inv.summed, Inv.count, hrow]

structure Standings (b : Boot) (es : List Event) (sort : List Row → List Row) (d : DB) (bubble_tmp : Inv)
    (rows : ℕ → List Row) : Prop where
  printed : (server_sort b.num ⟨(b.after es).globals.data, bubble_tmp⟩).2 =
    newline :: (List.range b.num).flatMap fun i : ℕ =>
      (b.data (100 * i)).type ++ newline :: (rows i).flatMap Row.text
  stores : ∀ name, name ∈ d.stores_map ↔ name ∈ b.types
  perm : ∀ i < b.num, ∀ st, d.stores_map[(b.data (100 * i)).type]? = some st →
    (sort (cityRows st)).Perm (rows i) ∧ (sort (cityRows st)).map Row.sum = (rows i).map Row.sum
  same : b.InMapOrder → (∀ i < b.num, ((rows i).map Row.sum).Nodup) →
    newline :: city_sort sort d = (server_sort b.num ⟨(b.after es).globals.data, bubble_tmp⟩).2

section Session

variable {b : Boot} {es : List Event} {d : DB} {sort : List Row → List Row} (h : b.Script es)
  (hstock : SameStock (b.after es).globals d) (hsort : Sorts sort)
include h hstock

theorem store_unsorted {i : ℕ} (hi : i < b.num) {st : Store} (hst : d.stores_map[(b.data (100 * i)).type]? = some st) :
    cityRows st = unsorted (b.after es).globals i := by
  have hsame := same_after b es
  obtain ⟨k, hk, hrows⟩ := hstock.cityRows (hsame.line h.numbered) hst
  rw [hsame.find h.distinct hi, Option.some.injEq] at hk
  rw [hrows, hk]

theorem city_sort_types (horder : b.InMapOrder) : city_sort sort d = (List.range b.num).flatMap fun i : ℕ =>
    (b.data (100 * i)).type ++ newline :: (sort (unsorted (b.after es).globals i)).flatMap Row.text := by
  have hsame := same_after b es
  have hkeys := (keys_eq_types_iff hstock hsame).mpr horder
  let section_ (name : Text) : Text := name ++ newline ::
    (((findType (b.after es).globals name).elim [] fun i => sort (unsorted (b.after es).globals i)).flatMap Row.text)
  have hsections : city_sort sort d = d.stores_map.keys.flatMap section_ := by
    rw [city_sort, ← Std.TreeMap.map_fst_toList_eq_keys, List.flatMap_map]
    apply List.flatMap_congr
    intro p hp
    have hst := Std.TreeMap.mem_toList_iff_getElem?_eq_some.mp hp
    obtain ⟨i, hi, hrows⟩ := hstock.cityRows (hsame.line h.numbered) hst
    change _ = p.1 ++ newline :: _
    rw [hi, Option.elim_some, hrows]
  rw [hsections, ← hkeys, Inventory.types, List.flatMap_map]
  apply List.flatMap_congr
  intro i hi
  change (b.data (100 * i)).type ++ newline :: _ = _
  rw [hsame.find h.distinct (List.mem_range.mp hi), Option.elim_some]

end Session

theorem standings_agree {b : Boot} {es : List Event} (h : b.Script es) (hroom : b.RecordsInRoom es)
    {sort : List Row → List Row} (hsort : Sorts sort) (us : ℕ → Scratch) (area_start area_end : List ℕ)
    (bubble_tmp : Inv) : ∃ rows, Standings b es sort (b.replayed us area_start area_end es).mydata bubble_tmp rows := by
  have hstock := same_stock_after h ((runFits_iff b es).mpr hroom) (List.prefix_refl es) us area_start area_end
  generalize (b.replayed us area_start area_end es).mydata = d at hstock ⊢
  have hnum : (b.after es).globals.num = b.num := num_after b es
  have hsorted := (b.remaining es).sorted bubble_tmp
  obtain ⟨hsummed, -⟩ := sumTypes_rows b.num (b.after es).globals.data
  let rows := typeRows (server_sort b.num ⟨(b.after es).globals.data, bubble_tmp⟩).1.data
  have hranking : ∀ i < b.num, Ranking Row.sum (unsorted (b.after es).globals i) (rows i) := by
    intro i hi
    have hrows := typeRows_unsorted (b.after es).globals i (hnum ▸ hi)
    rw [hnum] at hrows
    rw [← hrows]
    exact (hsorted i hi).ranking
  have hperm : ∀ i < b.num, (sort (unsorted (b.after es).globals i)).Perm (rows i) :=
    fun i hi => (hsort.perm _).trans (hranking i hi).perm.symm
  have hprinted : (server_sort b.num ⟨(b.after es).globals.data, bubble_tmp⟩).2 =
      newline :: (List.range b.num).flatMap fun i : ℕ =>
        (b.data (100 * i)).type ++ newline :: (rows i).flatMap Row.text := by
    rw [server_sort_printed, printRanking]
    congr 1
    apply List.flatMap_congr
    intro i hi
    have htype : ((server_sort b.num ⟨(b.after es).globals.data, bubble_tmp⟩).1.data (100 * i)).type =
        (b.data (100 * i)).type := by
      rw [← type_after b es, ← (hsummed.head _).2]
      exact (hsorted i (List.mem_range.mp hi)).head.2
    rw [htype]
  refine ⟨rows, hprinted, hstock.mem_types (same_after b es), ?_, ?_⟩
  · intro i hi st hst
    rw [store_unsorted h hstock hi hst]
    exact ⟨hperm i hi, ranked_keys (hperm i hi) (hsort.sorted _) (hranking i hi).sorted⟩
  · intro horder hdistinct
    rw [hprinted, city_sort_types h hstock horder]
    congr 1
    apply List.flatMap_congr
    intro i hi
    have hi' := List.mem_range.mp hi
    have hkeys : ((sort (unsorted (b.after es).globals i)).map Row.sum).Nodup := by
      rw [ranked_keys (hperm i hi') (hsort.sorted _) (hranking i hi').sorted]
      exact hdistinct i hi'
    rw [ranked_eq hkeys (hperm i hi') (hsort.sorted _) (hranking i hi').sorted]

theorem mergeSort_sorts : Sorts fun l => l.mergeSort fun x y => decide (y.sum ≤ x.sum) := by
  refine ⟨fun l => List.mergeSort_perm l _, fun l => ?_⟩
  have hsorted : (l.mergeSort fun x y => decide (y.sum ≤ x.sum)).Pairwise fun x y => decide (y.sum ≤ x.sum) = true :=
    List.pairwise_mergeSort ?_ ?_ l
  · simpa using hsorted
  · intro a b c
    simp only [decide_eq_true_eq]
    omega
  · intro a b
    simp only [Bool.or_eq_true, decide_eq_true_eq]
    omega

theorem scripted_buy : Scripted sampleShop.toInventory (lit "buy S1 1 1 1 1") := by
  have h : lit "buy S1 1 1 1 1" = buyText (sampleShop.data (100 * (0 : ℕ))).type (decimal (1 : ℕ))
    (fun _ => decimal 1) := by decide
  rw [h]
  exact .buy _ 1 _ (fun _ => 1) (Or.inr ⟨0, by decide, rfl⟩) (by decide) (fun _ => decimal_numeral 1)
    (by decide) (by decide)

theorem visit_script : sampleShop.Script visit := by
  apply sampleShop_script (by decide)
  intro e he
  rcases List.mem_cons.mp he with rfl | he
  · exact scripted_login
  · obtain rfl := List.mem_singleton.mp he
    exact scripted_buy

theorem standings_agree_visit : ∃ rows, Standings sampleShop visit
    (fun l => l.mergeSort fun x y => decide (y.sum ≤ x.sum))
    (sampleShop.replayed blankScratch [] [] visit).mydata (sampleData 2) rows :=
  standings_agree visit_script ((runFits_iff _ _).mp (withinRecord_of_length (by decide)).fits) mergeSort_sorts
    blankScratch [] [] (sampleData 2)

end EmbeddedOS.Hw3
