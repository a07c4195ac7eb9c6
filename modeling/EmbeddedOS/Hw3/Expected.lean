import EmbeddedOS.Hw3.Listing
import EmbeddedOS.Hw3.Windows

namespace EmbeddedOS.Hw3

open CText Runs

def DB.label (d : DB) (store : Text) : Option (Text × (ℤ → Option (ℤ × Text))) :=
  (d.stores_map[store]?).map fun st => (st.name, fun k => (st.cities_map[k]?).map fun c => (c.id, c.name))

def Globals.label (g : Globals) (type : Text) : Option (Text × (ℤ → Option (ℤ × Text))) :=
  (findType g type).map fun i =>
    (type, fun k => if 1 ≤ k ∧ k ≤ (g.row i 0).type_num then some (k, (g.row i (k - 1)).city) else none)

structure SameStock (g : Globals) (d : DB) : Prop where
  masks : ∀ type city, d.mask type city = shelf g type city
  labels : ∀ type, d.label type = g.label type

def Inventory.types (v : Inventory) : List Text := (List.range v.num).map fun i : ℕ => (v.data (100 * i)).type

/-- The file has its types in the order of a `map` that has them as keys. -/
def Inventory.InMapOrder (v : Inventory) : Prop := v.types.Pairwise fun a b => compare a b = .lt

/-- `check_2` reports no `show` whose text is that of the server. -/
def QuietShow (g : Globals) (d : DB) : Prop :=
  ∀ t e, t.mydata = d → e.results = write_info g → check_show t e = none

theorem dropLast_blanks (xs : List Text) : (xs.flatMap fun x => x ++ [32]).dropLast = [32].intercalate xs := by
  cases xs with
  | nil => rfl
  | cons x xs =>
    have hshift : 32 :: (xs.flatMap fun x => x ++ [32]) = (xs.flatMap fun y => 32 :: y) ++ [32] := by
      induction xs with
      | nil => rfl
      | cons y ys ih =>
        rw [List.flatMap_cons, List.flatMap_cons, List.append_assoc, List.singleton_append, ih]
        simp
    rw [intercalate_cons, List.flatMap_cons, List.append_assoc, List.singleton_append, hshift, ← List.append_assoc,
      List.dropLast_concat]

theorem blank_not_mem {w : Text} (h : IsWord w) : 32 ∉ w := fun hm => absurd (h.2 32 hm) (by decide)

theorem words_injective {xs ys : List Text} (hx : ∀ x ∈ xs, IsWord x) (hy : ∀ y ∈ ys, IsWord y)
    (h : [32].intercalate xs = [32].intercalate ys) : xs = ys := by
  have hempty (zs : List Text) (hz : ∀ z ∈ zs, IsWord z) (he : [32].intercalate zs = []) : zs = [] := by
    cases zs with
    | nil => rfl
    | cons z zs =>
      rw [intercalate_cons, List.append_eq_nil_iff] at he
      exact absurd he.1 (hz z (List.mem_cons_self ..)).1
  by_cases hxs : xs = []
  · rw [hxs] at h ⊢
    exact (hempty ys hy h.symm).symm
  · have hys : ys ≠ [] := by
      rintro rfl
      exact hxs (hempty xs hx h)
    rw [← List.splitOn_intercalate 32 (fun x hm => blank_not_mem (hx x hm)) hxs, h,
      List.splitOn_intercalate 32 (fun y hm => blank_not_mem (hy y hm)) hys]

theorem heads_injective {α : Type*} {R : α → List α} {xs ys : List α}
    (h : (xs.flatMap fun x => x :: R x) = ys.flatMap fun y => y :: R y) : xs = ys := by
  induction xs generalizing ys with
  | nil =>
    cases ys with
    | nil => rfl
    | cons y ys => cases h
  | cons x xs ih =>
    cases ys with
    | nil => cases h
    | cons y ys =>
      rw [List.flatMap_cons, List.flatMap_cons, List.cons_append, List.cons_append, List.cons.injEq] at h
      obtain ⟨rfl, hrest⟩ := h
      rw [ih (List.append_cancel_left hrest)]

def storeFields (st : Store) : List Text :=
  st.name :: st.cities_map.toList.flatMap fun q =>
    [decimal q.2.id, q.2.name, decimal (q.2.mask 0), decimal (q.2.mask 1), decimal (q.2.mask 2)]

theorem show2string_eq (d : DB) :
    show2string d = [32].intercalate (d.stores_map.toList.flatMap fun p => storeFields p.2) := by
  rw [← dropLast_blanks, List.flatMap_assoc, show2string]
  congr 1
  apply List.flatMap_congr
  intro p _
  rw [storeFields, List.flatMap_cons, List.flatMap_assoc, List.append_assoc, List.singleton_append]
  congr 2
  apply List.flatMap_congr
  intro q _
  simp

def cityRest (g : Globals) (i : ℕ) : List Text := (cities g i).flatMap cityFields

def typeRest (g : Globals) (type : Text) : List Text := (findType g type).elim [] (cityRest g)

section Stock

variable {g : Globals} {d : DB}

theorem SameStock.store (h : SameStock g d) {name : Text} {st : Store} (hst : d.stores_map[name]? = some st) :
    ∃ i, findType g name = some i ∧ st.name = name ∧ ∀ k, st.cities_map[k]? =
      if 1 ≤ k ∧ k ≤ (g.row i 0).type_num then some ⟨k, (g.row i (k - 1)).city, (g.row i (k - 1)).count⟩ else none := by
  have hlabel := h.labels name
  rw [DB.label, hst, Option.map_some, Globals.label, eq_comm, Option.map_eq_some_iff] at hlabel
  obtain ⟨i, hi, hpair⟩ := hlabel
  rw [Prod.mk.injEq] at hpair
  obtain ⟨hname, hcities⟩ := hpair
  refine ⟨i, hi, hname.symm, fun k => ?_⟩
  have hcity := congrFun hcities k
  have hmask := h.masks name k
  rw [DB.mask, hst, Option.bind_some, shelf, hi, Option.bind_some] at hmask
  cases hc : st.cities_map[k]? with
  | none =>
    rw [hc, Option.map_none] at hcity
    split_ifs at hcity ⊢
    rfl
  | some c =>
    rw [hc, Option.map_some] at hcity hmask
    split_ifs at hcity hmask ⊢
    rw [Option.some.injEq, Prod.mk.injEq] at hcity
    rw [Option.some.injEq] at hmask ⊢
    obtain ⟨hid, hcname⟩ := hcity
    rw [hcname, ← hmask, hid]

theorem SameStock.mem_iff (h : SameStock g d) (name : Text) :
    name ∈ d.stores_map ↔ ∃ i < g.num, name = (g.row i 0).type := by
  have hlabel := h.labels name
  rw [Std.TreeMap.mem_iff_isSome_getElem?]
  cases hst : d.stores_map[name]? with
  | none =>
    rw [DB.label, hst, Option.map_none, Globals.label, eq_comm, Option.map_eq_none_iff, findType_eq_none] at hlabel
    simpa using hlabel
  | some st =>
    obtain ⟨i, hi, -⟩ := h.store hst
    simpa using ⟨i, findType_eq_some hi⟩

theorem cities_map_toList {st : Store} {n : ℤ} {val : ℤ → City}
    (h : ∀ k, st.cities_map[k]? = if 1 ≤ k ∧ k ≤ n then some (val k) else none) :
    st.cities_map.toList = (List.range n.toNat).map fun j : ℕ => ((j : ℤ) + 1, val (j + 1)) := by
  have hkeys : st.cities_map.keys = (List.range n.toNat).map fun j : ℕ => (j : ℤ) + 1 := by
    apply Tables.keys_eq_of_ordered
    · rw [List.pairwise_map]
      apply List.pairwise_lt_range.imp
      intro a b hlt
      rw [compare_lt_iff_lt]
      omega
    · intro k
      rw [Std.TreeMap.mem_iff_isSome_getElem?, h k, List.mem_map]
      constructor
      · intro hsome
        split_ifs at hsome with hk
        · exact ⟨(k - 1).toNat, List.mem_range.mpr (by omega), by omega⟩
        · cases hsome
      · rintro ⟨j, hj, rfl⟩
        rw [List.mem_range] at hj
        rw [if_pos (by omega)]
        rfl
  have hval (k : ℤ) (c : City) (hc : st.cities_map[k]? = some c) : val k = c := by
    rw [h k] at hc
    split_ifs at hc
    exact Option.some.inj hc
  rw [Tables.toList_eq_map hval, hkeys, List.map_map]
  rfl

theorem SameStock.fields (h : SameStock g d)
    (hline : ∀ i < g.num, ∀ j : ℕ, j < (g.row i 0).type_num → (g.row i j).line = j + 1) {name : Text} {st : Store}
    (hst : d.stores_map[name]? = some st) : storeFields st = name :: typeRest g name := by
  obtain ⟨i, hi, hname, hcities⟩ := h.store hst
  rw [storeFields, cities_map_toList hcities, hname, typeRest, hi, Option.elim_some, cityRest, cities,
    List.flatMap_map, List.flatMap_map]
  congr 1
  apply List.flatMap_congr
  intro j hj
  rw [List.mem_range] at hj
  have hrow := hline i (findType_eq_some hi).1 j (by omega)
  simp [cityFields, hrow, Inv.count]

end Stock

section Shop

variable {b : Boot} {s : Server}

theorem Same.row (hs : Same b.start s) (i : ℕ) (j : ℤ) :
    (s.globals.row i j).line = (b.data (100 * i + j)).line ∧
      (s.globals.row i j).type_num = (b.data (100 * i + j)).type_num ∧
      (s.globals.row i j).type = (b.data (100 * i + j)).type ∧
        (s.globals.row i j).city = (b.data (100 * i + j)).city := by
  have hlabel := hs.label (100 * i + j)
  simp only [Inv.label, Prod.mk.injEq] at hlabel
  exact ⟨hlabel.1, hlabel.2.1, hlabel.2.2.2.1, hlabel.2.2.2.2⟩

theorem Same.type (hs : Same b.start s) (i : ℕ) : (s.globals.row i 0).type = (b.data (100 * i)).type := by
  rw [(hs.row i 0).2.2.1, add_zero]

theorem Same.type_num (hs : Same b.start s) (i : ℕ) : (s.globals.row i 0).type_num = (b.data (100 * i)).type_num := by
  rw [(hs.row i 0).2.1, add_zero]

theorem Same.find (hs : Same b.start s) (hdistinct : b.DistinctTypes) {i : ℕ} (hi : i < b.num) :
    findType s.globals (b.data (100 * i)).type = some i := by
  have hnum : s.globals.num = b.num := hs.num
  rw [findType, List.find?_range_eq_some]
  simp only [hs.type, beq_self_eq_true, hnum, List.mem_range, hi, true_and, Bool.not_eq_true', beq_eq_false_iff_ne]
  intro k hk he
  have hik := hdistinct i hi k (hk.trans hi) he
  omega

theorem Same.line (hs : Same b.start s) (hnumbered : b.Numbered) :
    ∀ i < s.globals.num, ∀ j : ℕ, j < (s.globals.row i 0).type_num → (s.globals.row i j).line = j + 1 := by
  intro i hi j hj
  have hnum : s.globals.num = b.num := hs.num
  rw [hs.type_num] at hj
  rw [(hs.row i j).1]
  exact hnumbered i (hnum ▸ hi) j hj

theorem Same.fields_words (hs : Same b.start s) (hdistinct : b.DistinctTypes) {type : Text} (ht : type ∈ b.types) :
    ∀ x ∈ type :: typeRest s.globals type, IsWord x := by
  obtain ⟨i, hi, rfl⟩ := List.mem_map.mp ht
  rw [List.mem_range] at hi
  intro x hx
  rcases List.mem_cons.mp hx with rfl | hx
  · exact (b.type_name i hi).1
  · rw [typeRest, hs.find hdistinct hi, Option.elim_some, cityRest, cities, List.flatMap_map, List.mem_flatMap] at hx
    obtain ⟨j, hj, hx⟩ := hx
    rw [List.mem_range, hs.type_num] at hj
    have hcity := (b.city_name i hi j (by omega)).1
    rw [← (hs.row i j).2.2.2] at hcity
    simp only [cityFields, List.mem_cons, List.not_mem_nil, or_false] at hx
    rcases hx with rfl | rfl | rfl | rfl | rfl
    · exact (decimal_numeral _).isWord
    · exact hcity
    · exact (decimal_numeral _).isWord
    · exact (decimal_numeral _).isWord
    · exact (decimal_numeral _).isWord

theorem Same.words (hs : Same b.start s) (hdistinct : b.DistinctTypes) {types : List Text}
    (ht : ∀ t ∈ types, t ∈ b.types) : ∀ x ∈ types.flatMap fun t => t :: typeRest s.globals t, IsWord x := by
  intro x hx
  obtain ⟨t, hmem, hx⟩ := List.mem_flatMap.mp hx
  exact hs.fields_words hdistinct (ht t hmem) x hx

theorem Same.listing (hs : Same b.start s) (hdistinct : b.DistinctTypes) :
    listingFields s.globals = b.types.flatMap fun t => t :: typeRest s.globals t := by
  have hnum : s.globals.num = b.num := hs.num
  rw [listingFields, Inventory.types, List.flatMap_map, hnum]
  apply List.flatMap_congr
  intro i hi
  rw [hs.type, typeRest, hs.find hdistinct (List.mem_range.mp hi)]
  rfl

variable {d : DB}

theorem SameStock.show2string_eq (h : SameStock s.globals d) (hs : Same b.start s) (hnumbered : b.Numbered) :
    show2string d = [32].intercalate (d.stores_map.keys.flatMap fun t => t :: typeRest s.globals t) := by
  rw [Hw3.show2string_eq, ← Std.TreeMap.map_fst_toList_eq_keys, List.flatMap_map]
  congr 1
  apply List.flatMap_congr
  intro p hp
  exact h.fields (hs.line hnumbered) (Std.TreeMap.mem_toList_iff_getElem?_eq_some.mp hp)

theorem SameStock.mem_types (h : SameStock s.globals d) (hs : Same b.start s) (name : Text) :
    name ∈ d.stores_map ↔ name ∈ b.types := by
  have hnum : s.globals.num = b.num := hs.num
  rw [h.mem_iff, Inventory.types, List.mem_map, hnum]
  constructor
  · rintro ⟨i, hi, rfl⟩
    exact ⟨i, List.mem_range.mpr hi, (hs.type i).symm⟩
  · rintro ⟨i, hi, rfl⟩
    exact ⟨i, List.mem_range.mp hi, (hs.type i).symm⟩

theorem keys_eq_types_iff (h : SameStock s.globals d) (hs : Same b.start s) :
    b.types = d.stores_map.keys ↔ b.InMapOrder := by
  constructor
  · intro he
    rw [Inventory.InMapOrder, he]
    exact d.stores_map.ordered_keys
  · intro ho
    exact (Tables.keys_eq_of_ordered ho (h.mem_types hs)).symm

theorem types_nodup (hdistinct : b.DistinctTypes) : b.types.Nodup := by
  apply List.nodup_range.map_on
  intro i hi j hj he
  exact hdistinct i (List.mem_range.mp hi) j (List.mem_range.mp hj) he

variable (hdistinct : b.DistinctTypes) (hnumbered : b.Numbered) (hs : Same b.start s) (hfits : Fits30 s.globals)
  (hd : SameStock s.globals d)
include hdistinct hnumbered hs hfits hd

theorem text_eq_iff : write_info s.globals = show2string d ↔ b.InMapOrder := by
  rw [(write_info_full_iff _).mpr hfits, fullInfo_eq, hd.show2string_eq hs hnumbered, hs.listing hdistinct,
    ← keys_eq_types_iff hd hs]
  constructor
  · intro h
    apply heads_injective
    apply words_injective _ _ h
    · exact hs.words hdistinct fun t ht => ht
    · exact hs.words hdistinct fun t ht => (hd.mem_types hs t).mp (Std.TreeMap.mem_keys.mp ht)
  · intro h
    rw [h]

theorem text_length : (write_info s.globals).length = (show2string d).length := by
  have hperm : List.Perm b.types d.stores_map.keys := by
    rw [List.perm_ext_iff_of_nodup (types_nodup hdistinct) Std.TreeMap.nodup_keys]
    intro t
    rw [Std.TreeMap.mem_keys, hd.mem_types hs]
  rw [(write_info_full_iff _).mpr hfits, fullInfo_eq, hd.show2string_eq hs hnumbered, hs.listing hdistinct,
    ← dropLast_blanks, ← dropLast_blanks, List.length_dropLast, List.length_dropLast]
  congr 1
  exact ((hperm.flatMap_right _).flatMap_right _).length_eq

theorem quiet_iff : QuietShow s.globals d ↔ write_info s.globals = show2string d := by
  constructor
  · intro h
    have hnone := h (.initial d) ⟨0, 0, 0, lit "show", write_info s.globals⟩ rfl rfl
    have hlen := text_length hdistinct hnumbered hs hfits hd
    by_contra hne
    rw [check_show, if_pos] at hnone
    · cases hnone
    · refine ⟨?_, rfl⟩
      rw [List.take_of_length_le (by exact hlen.le)]
      exact hne
  · rintro h t e rfl he
    simp [check_show, he, h]

end Shop

theorem shows_agree_iff (b : Boot) (hdistinct : b.DistinctTypes) (hnumbered : b.Numbered) (s : Server)
    (hs : Same b.start s) (hfits : Fits30 s.globals) (d : DB) (hd : SameStock s.globals d) :
    (write_info s.globals = show2string d ↔ b.InMapOrder) ∧ (QuietShow s.globals d ↔ b.InMapOrder) := by
  have htext := text_eq_iff hdistinct hnumbered hs hfits hd
  exact ⟨htext, (quiet_iff hdistinct hnumbered hs hfits hd).trans htext⟩

theorem same_stock_start {b : Boot} (hdistinct : b.DistinctTypes) (hnumbered : b.Numbered) {d : DB}
    (hd : d.stores_map = read_file b.toInventory) : SameStock b.globals d := by
  refine ⟨read_file_mask hdistinct hnumbered d hd, fun type => ?_⟩
  rw [DB.label, hd, read_file_store hdistinct, Globals.label, Option.map_map]
  apply Option.map_congr
  intro i hi
  obtain ⟨hin, -⟩ := findType_eq_some (Option.mem_def.mp hi)
  simp only [Function.comp_apply, readCities_eq hnumbered hin, Prod.mk.injEq, true_and]
  funext k
  have htype : (b.globals.row i 0).type_num = (b.data (100 * i)).type_num := by simp [Boot.globals, Globals.row]
  rw [htype]
  split_ifs <;> rfl

theorem sell_label {d : DB} {r : BuyMsg} {st : Store} {ptr : City} (hst : d.stores_map[r.store]? = some st)
    (hptr : st.cities_map[r.city_idx]? = some ptr) (id : Text) : (d.sell id r st ptr).label = d.label := by
  funext store
  rw [DB.label, DB.label, sell_stores_map, Std.TreeMap.getElem?_insert]
  by_cases hs : store = r.store
  · subst hs
    simp only [Std.LawfulEqCmp.compare_eq_iff_eq, ↓reduceIte, hst, Option.map_some, Option.some.injEq, Prod.mk.injEq,
      true_and, Std.TreeMap.getElem?_insert]
    funext k
    by_cases hk : r.city_idx = k
    · subst hk
      simp [hptr]
    · simp [hk]
  · simp [Ne.symm hs]

theorem label_run (us : ℕ → Scratch) (t : Checker) (log : List Log_file) :
    ((check_2 us).run t log).mydata.label = t.mydata.label := by
  rw [check_2_run]
  refine (check_1 us).run_invariant (P := fun t' => t'.mydata.label = t.mydata.label) (fun t' e ht => ?_) rfl log
  have hmoves := check_entry_1_moves (us t'.log_files.length) t' e
  change (check_entry_1 _ t' e).1.mydata.label = _
  generalize (check_entry_1 _ t' e).1 = t'' at hmoves
  cases hmoves with
  | login _ _ _ => exact ht
  | logout _ => exact ht
  | sale _ st ptr hst hptr => exact (sell_label hst hptr _).trans ht
  | still _ => exact ht

theorem Same.label_eq {b : Boot} {s : Server} (hs : Same b.start s) (type : Text) :
    s.globals.label type = b.globals.label type := by
  have hnum : s.globals.num = b.num := hs.num
  have hfind : findType s.globals type = findType b.globals type := by
    simp only [findType, hnum, hs.type]
    rfl
  have hrow (i : ℕ) (j : ℤ) : (s.globals.row i j).city = (b.globals.row i j).city := (hs.row i j).2.2.2
  have htype (i : ℕ) : (s.globals.row i 0).type_num = (b.globals.row i 0).type_num := (hs.row i 0).2.1
  simp only [Globals.label, hfind, hrow, htype]

theorem same_stock_after {b : Boot} {es : List Event} (h : b.Script es) (hfit : b.RunFits es) {fs : List Event}
    (hfs : fs <+: es) (us : ℕ → Scratch) (area_start area_end : List ℕ) :
    SameStock (b.after fs).globals (b.replayed us area_start area_end fs).mydata := by
  refine ⟨(tracks_run h hfit hfs us area_start area_end).1.stock, fun type => ?_⟩
  have hstart := same_stock_start (d := (b.checker area_start area_end).mydata) h.distinct h.numbered rfl
  rw [Boot.replayed, label_run, hstart.labels, (same_after b fs).label_eq]

def pairData (inOrder : Bool) (a : ℤ) : Inv :=
  if a = if inOrder then 100 else 0 then ⟨1, 9, 9, 9, 1, 27, lit "S2", lit "Taipei"⟩
  else if a = if inOrder then 0 else 100 then ⟨1, 8, 8, 8, 1, 24, lit "S1", lit "Tainan"⟩
  else ⟨0, 0, 0, 0, 0, 0, [], []⟩

section Pair

variable (inOrder : Bool)

theorem pair_cases {P : ℕ → Prop} (h0 : P 0) (h1 : P 1) : ∀ i < 2, P i := by
  intro i hi
  interval_cases i
  · exact h0
  · exact h1

theorem pair_num_le : 2 ≤ 15 := by decide

theorem pair_type_num : ∀ i < 2, (pairData inOrder (100 * (i : ℕ))).type_num = 1 := by
  refine pair_cases ?_ ?_ <;> cases inOrder <;> decide

theorem pair_type_num_le : ∀ i < 2, (pairData inOrder (100 * (i : ℕ))).type_num ≤ 100 := by
  intro i hi
  rw [pair_type_num inOrder i hi]
  decide

theorem pair_type_name : ∀ i < 2, IsName 20 (pairData inOrder (100 * (i : ℕ))).type := by
  refine pair_cases ?_ ?_ <;> cases inOrder <;> simp [IsName, IsWord, pairData, lit, isspace]

theorem pair_row {P : ℕ → ℕ → Prop} (h0 : P 0 0) (h1 : P 1 0) :
    ∀ i < 2, ∀ j : ℕ, j < (pairData inOrder (100 * (i : ℕ))).type_num → P i j := by
  intro i hi j hj
  rw [pair_type_num inOrder i hi] at hj
  obtain rfl : j = 0 := by omega
  interval_cases i
  · exact h0
  · exact h1

theorem pair_city_name : ∀ i < 2, ∀ j : ℕ, j < (pairData inOrder (100 * (i : ℕ))).type_num →
    IsName 50 (pairData inOrder (100 * (i : ℕ) + j)).city := by
  refine pair_row inOrder ?_ ?_ <;> cases inOrder <;> simp [IsName, IsWord, pairData, lit, isspace]

def pairShop : Boot where
  num := 2
  data := pairData inOrder
  num_le := pair_num_le
  type_num_le := pair_type_num_le inOrder
  type_name := pair_type_name inOrder
  city_name := pair_city_name inOrder
  day := 1
  capacity := 50
  fd := sampleShop.fd
  ID := sampleShop.ID
  day_int := sampleShop.day_int
  capacity_int := sampleShop.capacity_int
  fd_int := sampleShop.fd_int

theorem pair_distinct : (pairShop inOrder).DistinctTypes := by
  intro i hi j hj he
  have hi2 : i < 2 := hi
  have hj2 : j < 2 := hj
  interval_cases i <;> interval_cases j
  · rfl
  · exact absurd he (by cases inOrder <;> decide)
  · exact absurd he (by cases inOrder <;> decide)
  · rfl

theorem pair_numbered : (pairShop inOrder).Numbered := by
  refine pair_row inOrder ?_ ?_ <;> cases inOrder <;> decide

theorem pair_fits : Fits30 (pairShop inOrder).globals := by
  refine pair_cases ?_ ?_ <;> cases inOrder <;> decide

theorem pair_stock : SameStock (pairShop inOrder).globals ((pairShop inOrder).checker [] []).mydata :=
  same_stock_start (pair_distinct inOrder) (pair_numbered inOrder) rfl

end Pair

theorem shows_agree_iff_pair : (pairShop true).InMapOrder ∧
    write_info (pairShop true).globals = show2string ((pairShop true).checker [] []).mydata ∧
    QuietShow (pairShop true).globals ((pairShop true).checker [] []).mydata := by
  have horder : (pairShop true).InMapOrder := by
    have htypes : (pairShop true).types = [lit "S1", lit "S2"] := by decide
    rw [Inventory.InMapOrder, htypes]
    decide
  obtain ⟨htext, hquiet⟩ := shows_agree_iff (pairShop true) (pair_distinct true) (pair_numbered true)
    (pairShop true).start (Same.refl _) (pair_fits true) _ (pair_stock true)
  exact ⟨horder, htext.mpr horder, hquiet.mpr horder⟩

set_option maxRecDepth 4000 in
theorem shows_agree_fails : (pairShop false).DistinctTypes ∧ (pairShop false).Numbered ∧
    Fits30 (pairShop false).globals ∧
    SameStock (pairShop false).globals ((pairShop false).checker [] []).mydata ∧
    write_info (pairShop false).globals = lit "S2 1 Taipei 9 9 9 S1 1 Tainan 8 8 8" ∧
    show2string ((pairShop false).checker [] []).mydata = lit "S1 1 Tainan 8 8 8 S2 1 Taipei 9 9 9" ∧
    ¬ QuietShow (pairShop false).globals ((pairShop false).checker [] []).mydata := by
  have hwrite : write_info (pairShop false).globals = lit "S2 1 Taipei 9 9 9 S1 1 Tainan 8 8 8" := by decide
  have hshow : show2string ((pairShop false).checker [] []).mydata =
      lit "S1 1 Tainan 8 8 8 S2 1 Taipei 9 9 9" := by decide
  refine ⟨pair_distinct _, pair_numbered _, pair_fits _, pair_stock _, hwrite, hshow, fun hquiet => ?_⟩
  have heq := (quiet_iff (pair_distinct false) (pair_numbered false) (Same.refl (pairShop false).start)
    (pair_fits false) (pair_stock false)).mp hquiet
  have heq' : write_info (pairShop false).globals = show2string ((pairShop false).checker [] []).mydata := heq
  rw [hwrite, hshow] at heq'
  exact absurd heq' (by decide)

end EmbeddedOS.Hw3
