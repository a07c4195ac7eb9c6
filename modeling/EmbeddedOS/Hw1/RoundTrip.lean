import EmbeddedOS.Hw1.Files

namespace EmbeddedOS.Hw1

open CText Runs

structure Sound (g : Globals) : Prop where
  num : 0 ≤ g.num ∧ g.num ≤ 5
  in_num : ∀ i < g.num.toNat, 0 ≤ g.in_num i ∧ g.in_num i ≤ 100
  city : ∀ i < g.num.toNat, ∀ j < (g.in_num i).toNat,
    IsWord (g.row i j).city ∧ (g.row i j).city.length < 50 ∧ ∀ k, IsInt32 ((g.row i j).count k)

def Numbered (g : Globals) : Prop :=
  ∀ i < g.num.toNat, ∀ j < (g.in_num i).toNat, (g.row i j).line = j + 1

def cityOf (r : Inv) : City := ⟨r.city, r.count⟩

def citiesOf (g : Globals) (i : ℕ) : List City := (List.range (g.in_num i).toNat).map fun j : ℕ => cityOf (g.row i j)

def typesOf (g : Globals) : Types := (List.range g.num.toNat).map (citiesOf g)

theorem getElem?_map_range {α : Type*} {f : ℕ → α} {n i : ℕ} {x : α} (h : ((List.range n).map f)[i]? = some x) :
    i < n ∧ x = f i := by
  rw [List.getElem?_map, Option.map_eq_some_iff] at h
  obtain ⟨k, hk, rfl⟩ := h
  obtain ⟨hlt, rfl⟩ := List.getElem?_eq_some_iff.mp hk
  rw [List.length_range] at hlt
  rw [List.getElem_range]
  exact ⟨hlt, rfl⟩

theorem typesOf_getElem? {g : Globals} {i : ℕ} {cs : List City} (h : (typesOf g)[i]? = some cs) :
    i < g.num.toNat ∧ cs = citiesOf g i := getElem?_map_range h

theorem citiesOf_getElem? {g : Globals} {i j : ℕ} {c : City} (h : (citiesOf g i)[j]? = some c) :
    j < (g.in_num i).toNat ∧ c = cityOf (g.row i j) := getElem?_map_range h

theorem citiesOf_length (g : Globals) (i : ℕ) : (citiesOf g i).length = (g.in_num i).toNat := by simp [citiesOf]

theorem Sound.fits {g : Globals} (h : Sound g) : FitsArrays (typesOf g) := by
  have hnum := h.num
  constructor
  · simp only [typesOf, List.length_map, List.length_range]
    omega
  · intro cs hcs
    obtain ⟨i, hi⟩ := List.mem_iff_getElem?.mp hcs
    obtain ⟨hlt, rfl⟩ := typesOf_getElem? hi
    have hin := h.in_num i hlt
    rw [citiesOf_length]
    omega
  · intro cs hcs c hc
    obtain ⟨i, hi⟩ := List.mem_iff_getElem?.mp hcs
    obtain ⟨hlt, rfl⟩ := typesOf_getElem? hi
    obtain ⟨j, hj⟩ := List.mem_iff_getElem?.mp hc
    obtain ⟨hjlt, rfl⟩ := citiesOf_getElem? hj
    exact h.city i hlt j hjlt

theorem Sound.agrees {g : Globals} (h : Sound g) (hn : Numbered g) : Agrees g (typesOf g) := by
  have hnum := h.num
  apply agrees_of_rows
  · simp only [typesOf, List.length_map, List.length_range]
    omega
  · intro i cs hi
    obtain ⟨hlt, rfl⟩ := typesOf_getElem? hi
    have hin := h.in_num i hlt
    rw [citiesOf_length]
    omega
  · intro i j c hc
    obtain ⟨cs, hi, hj⟩ := cityAt_eq_some.mp hc
    obtain ⟨hlt, rfl⟩ := typesOf_getElem? hi
    obtain ⟨hjlt, rfl⟩ := citiesOf_getElem? hj
    have hline := hn i hlt j hjlt
    change g.row i j = _
    rw [City.row, ← hline]
    rfl

def renumber (g : Globals) : Globals := { g with data := fun a => { g.data a with line := a % 100 + 1 } }

theorem inventoryText_renumber (g : Globals) : inventoryText (renumber g) = inventoryText g := rfl

theorem Sound.renumber {g : Globals} (h : Sound g) : Sound (renumber g) := ⟨h.num, h.in_num, h.city⟩

theorem Sound.numbered {g : Globals} (h : Sound g) : Numbered (Hw1.renumber g) := by
  intro i hi j hj
  have hin := h.in_num i hi
  change (100 * (i : ℤ) + j) % 100 + 1 = j + 1
  have hlt : j < (g.in_num i).toNat := hj
  omega

theorem Sound.lists {g : Globals} (h : Sound g) : Lists (inventoryText g) (typesOf g) := by
  rw [← inventoryText_renumber]
  exact lists_inventoryText (h.renumber.agrees h.numbered) h.renumber.fits

theorem readCities_same {i j : ℕ} {cs : List City} {ls : List Text} (h : CityLines j cs ls)
    (hc : ∀ c ∈ cs, c.Fits) (hi : i < 5) (hj : j + cs.length ≤ 100) (g : Globals) (rest : Text)
    (hrows : ∀ k c, cs[k]? = some c → g.data (place i (j + k)) = c.row (j + k)) :
    ∃ s, readCities i j cs.length ⟨g, ls.flatten ++ rest, true⟩ = ⟨{ g with s := s }, rest, true⟩ := by
  induction h generalizing g with
  | nil j => exact ⟨g.s, rfl⟩
  | @cons j c cs l ls head tail ih =>
    rw [List.length_cons] at hj
    have hrow : Function.update g.data (place i j) (c.row j) = g.data := by
      rw [Function.update_eq_self_iff]
      exact (hrows 0 c rfl).symm
    obtain ⟨s, hread⟩ := ih (fun c hm => hc c (by simp [hm])) (by omega) { g with s := l } (fun k c' hk => by
      have he : j + 1 + k = j + (k + 1) := by omega
      rw [he]
      exact hrows (k + 1) c' hk)
    refine ⟨s, ?_⟩
    rw [List.flatten_cons, List.append_assoc, List.length_cons, readCities,
      readCity_line head (hc c (by simp)) hi (by omega), hrow, hread]

theorem readTypes_same {i : ℕ} {types : Types} {ls : List Text} (h : TypeLines i types ls)
    (hfits : ∀ cs ∈ types, cs.length ≤ 100 ∧ ∀ c ∈ cs, c.Fits) (hi : i + types.length ≤ 5) (g : Globals)
    (rest : Text) (hrows : Rows i types g) :
    ∃ s, readTypes i types.length ⟨g, ls.flatten ++ rest, true⟩ = ⟨{ g with s := s }, rest, true⟩ := by
  induction h generalizing g with
  | nil i => exact ⟨g.s, rfl⟩
  | @cons i cs types letter number rows ls type size cities tail ih =>
    rw [List.length_cons] at hi
    have hi5 : i < 5 := by omega
    obtain ⟨hsize, hcs⟩ := hfits cs (by simp)
    obtain ⟨hnum, hdata⟩ := hrows 0 cs rfl
    have hin : Function.update g.in_num i (cs.length : ℤ) = g.in_num := by
      rw [Function.update_eq_self_iff]
      exact hnum.symm
    have hscan := scan_intLine size (by simp only [IsInt32]; omega)
    obtain ⟨s, hread⟩ := readCities_same cities hcs hi5 (by omega) { g with s := number }
      (ls.flatten ++ rest) (fun k c hk => by
        rw [Nat.zero_add]
        exact hdata k c hk)
    obtain ⟨s', hread'⟩ := ih (fun cs hm => hfits cs (by simp [hm])) (by omega) { g with s := s } (fun k cs' hk => by
      have he : i + 1 + k = i + (k + 1) := by omega
      rw [he]
      exact hrows (k + 1) cs' hk)
    have htype : readType i ⟨g, letter ++ (number ++ (rows.flatten ++ (ls.flatten ++ rest))), true⟩ =
        ⟨{ g with s := s }, ls.flatten ++ rest, true⟩ := by
      rw [readType, line_cons type.isLine, line_cons size.isLine]
      simp only [Reader.scan, hscan, intAt, List.getElem?_cons_zero, Option.getD_some, hin, Int.toNat_natCast, hi5,
        decide_true, Bool.and_true]
      exact hread
    refine ⟨s', ?_⟩
    rw [List.flatten_cons, List.flatten_cons, List.flatten_append, List.length_cons, readTypes,
      List.append_assoc, List.append_assoc, List.append_assoc, htype, hread']

theorem readInventory_same {g : Globals} {types : Types} (h : Lists g.file types) (hfits : FitsArrays types)
    (hagrees : Agrees g types) : ∃ s, readInventory g = { g with s := s } := by
  obtain ⟨number, ls, rest, hfile, hnumber, hls⟩ := h
  have hlen := hfits.types_le
  have hscan := scan_intLine hnumber (by simp only [IsInt32]; omega)
  obtain ⟨hnum, hrows⟩ := hagrees
  obtain ⟨s, hread⟩ := readTypes_same hls (fun cs hm => ⟨hfits.cities_le cs hm, hfits.city cs hm⟩) (by omega)
    { g with s := number } rest hrows
  refine ⟨s, ?_⟩
  have hfirst := line_cons hnumber.isLine g (ls.flatten ++ rest) true
  rw [← hfile] at hfirst
  rw [readInventory, reading, hfirst]
  simp only [Reader.scan, hscan, intAt, List.getElem?_cons_zero, Option.getD_some, ← hnum]
  have hlength : g.num.toNat = types.length := by omega
  rw [hlength, hread]

theorem rows_unique {g g' : Globals} {types : Types} (h : Agrees g types) (h' : Agrees g' types) {i : ℕ}
    (hi : i < types.length) : g'.in_num i = g.in_num i ∧
      ∀ j < (g.in_num i).toNat, g'.row i j = g.row i j := by
  have hcs := List.getElem?_eq_getElem hi
  obtain ⟨hin, hrow⟩ := h.2 i _ hcs
  obtain ⟨hin', hrow'⟩ := h'.2 i _ hcs
  rw [Nat.zero_add] at hin hin' hrow hrow'
  refine ⟨hin'.trans hin.symm, fun j hj => ?_⟩
  rw [hin, Int.toNat_natCast] at hj
  have hc := List.getElem?_eq_getElem hj
  exact (hrow' j _ hc).trans (hrow j _ hc).symm

theorem inventoryText_unique {g g' : Globals} {types : Types} (h : Agrees g types) (h' : Agrees g' types) :
    inventoryText g' = inventoryText g := by
  rw [inventoryText, inventoryText, h.1, h'.1, Int.toNat_natCast]
  congr 2
  apply List.flatMap_congr
  intro i hi
  obtain ⟨hin, hrows⟩ := rows_unique h h' (List.mem_range.mp hi)
  rw [typeText, typeText, hin]
  congr 4
  apply List.flatMap_congr
  intro j hj
  rw [hrows j (List.mem_range.mp hj)]

structure Restored (g g' : Globals) : Prop where
  num : g'.num = g.num
  in_num : ∀ i < g.num.toNat, g'.in_num i = g.in_num i
  row : ∀ i < g.num.toNat, ∀ j < (g.in_num i).toNat, g'.row i j = g.row i j

theorem Agrees.restored {g g' : Globals} {types : Types} (h : Agrees g types) (h' : Agrees g' types) :
    Restored g g' := by
  have hlength : g.num.toNat = types.length := by
    rw [h.1, Int.toNat_natCast]
  constructor
  · exact h'.1.trans h.1.symm
  · intro i hi
    rw [hlength] at hi
    exact (rows_unique h h' hi).1
  · intro i hi
    rw [hlength] at hi
    exact (rows_unique h h' hi).2

theorem rewriteInv_readInventory {g g' : Globals} (h : Sound g) (hfile : g'.file = inventoryText g) :
    inventoryText (readInventory g') = g'.file := by
  have hlists : Lists g'.file (typesOf g) := by
    rw [hfile]
    exact h.lists
  have hread := agrees_readInventory hlists h.fits
  rw [inventoryText_unique (h.renumber.agrees h.numbered) hread, inventoryText_renumber, hfile]

theorem inventory_round_trip (g : Globals) (h : Sound g) :
    (Numbered g → (∃ s, readInventory (rewriteInv g) = { rewriteInv g with s := s }) ∧
      ∀ g', g'.file = (rewriteInv g).file → Restored g (readInventory g')) ∧
    ∀ g', g'.file = (rewriteInv g).file → (rewriteInv (readInventory g')).file = g'.file := by
  constructor
  · intro hn
    have hagrees := h.agrees hn
    constructor
    · exact readInventory_same (g := rewriteInv g) h.lists h.fits (hagrees.congr rfl rfl rfl)
    · intro g' hfile
      have hlists : Lists g'.file (typesOf g) := by
        rw [hfile]
        exact h.lists
      exact hagrees.restored (agrees_readInventory hlists h.fits)
  · intro g' hfile
    exact rewriteInv_readInventory h hfile

def sampleTable : Globals :=
  { sampleBoot.start with
    num := 2
    in_num := fun i => if i = 0 then 1 else 0
    data := fun _ => ⟨1, -3, 0, 12, lit "C1"⟩ }

theorem sampleTable_sound : Sound sampleTable := by
  constructor
  · decide
  · intro i _
    simp only [sampleTable]
    split_ifs <;> omega
  · intro i _ j _
    change IsWord (lit "C1") ∧ (lit "C1").length < 50 ∧ ∀ k, IsInt32 ((![-3, 0, 12] : Fin 3 → ℤ) k)
    exact ⟨by simp [IsWord, lit, isspace], by decide, by decide⟩

theorem sampleTable_numbered : Numbered sampleTable := by
  intro i _ j hj
  simp only [sampleTable] at hj
  split_ifs at hj
  · obtain rfl : j = 0 := by simpa using hj
    rfl
  · simp at hj

theorem inventory_round_trip_sample :
    Sound sampleTable ∧ Numbered sampleTable ∧
      (∃ s, readInventory (rewriteInv sampleTable) = { rewriteInv sampleTable with s := s }) ∧
      ∀ g', g'.file = (rewriteInv sampleTable).file → (rewriteInv (readInventory g')).file = g'.file := by
  obtain ⟨htable, hfile⟩ := inventory_round_trip sampleTable sampleTable_sound
  exact ⟨sampleTable_sound, sampleTable_numbered, (htable sampleTable_numbered).1, hfile⟩

end EmbeddedOS.Hw1
