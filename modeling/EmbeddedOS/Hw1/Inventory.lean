import EmbeddedOS.Hw1.Sessions

namespace EmbeddedOS.Hw1

open CText Runs

structure City where
  name : Text
  count : Fin 3 → ℤ

def City.row (c : City) (j : ℕ) : Inv := ⟨j + 1, c.count 0, c.count 1, c.count 2, c.name⟩

def City.Fits (c : City) : Prop := IsWord c.name ∧ c.name.length < 50 ∧ ∀ j, IsInt32 (c.count j)

abbrev Types := List (List City)

structure FitsArrays (types : Types) : Prop where
  types_le : types.length ≤ 5
  cities_le : ∀ cs ∈ types, cs.length ≤ 100
  city : ∀ cs ∈ types, ∀ c ∈ cs, c.Fits

def IntLine (n : ℤ) (l : Text) : Prop := ∃ before X tail, Blanks before ∧ Numeral n X ∧ Blanks tail ∧
  l = before ++ (X ++ tail) ∧ IsLine 100 l

def TypeLine (i : ℕ) (l : Text) : Prop := ∃ tail, Blanks tail ∧ l = typeLetter i :: tail ∧ IsLine 100 l

def CityLine (j : ℕ) (c : City) (l : Text) : Prop :=
  ∃ (before tail : Text) (gap : Fin 4 → Text) (N : Text) (X : Fin 3 → Text),
    Blanks before ∧ (∀ k, Gap (gap k)) ∧ Blanks tail ∧ Numeral (j + 1) N ∧ (∀ k, Numeral (c.count k) (X k)) ∧
    l = before ++ (N ++ (gap 0 ++ (c.name ++ (gap 1 ++ (X 0 ++ (gap 2 ++ (X 1 ++ (gap 3 ++ (X 2 ++ tail))))))))) ∧
    IsLine 100 l

inductive CityLines : ℕ → List City → List Text → Prop
  | nil (j : ℕ) : CityLines j [] []
  | cons {j : ℕ} {c : City} {cs : List City} {l : Text} {ls : List Text} (head : CityLine j c l)
      (tail : CityLines (j + 1) cs ls) : CityLines j (c :: cs) (l :: ls)

inductive TypeLines : ℕ → Types → List Text → Prop
  | nil (i : ℕ) : TypeLines i [] []
  | cons {i : ℕ} {cs : List City} {types : Types} {letter number : Text} {rows ls : List Text}
      (type : TypeLine i letter) (size : IntLine cs.length number) (cities : CityLines 0 cs rows)
      (tail : TypeLines (i + 1) types ls) :
      TypeLines i (cs :: types) (letter :: number :: (rows ++ ls))

/-- The file lists these types and cities; what stands behind them is not read. -/
def Lists (file : Text) (types : Types) : Prop := ∃ number ls rest,
  file = number ++ (ls.flatten ++ rest) ∧ IntLine types.length number ∧ TypeLines 0 types ls

def place (i j : ℕ) : ℤ := 100 * i + j

def Rows (i : ℕ) (types : Types) (g : Globals) : Prop :=
  ∀ k cs, types[k]? = some cs → g.in_num (i + k) = cs.length ∧
    ∀ (j : ℕ) c, cs[j]? = some c → g.data (place (i + k) j) = c.row j

def Agrees (g : Globals) (types : Types) : Prop := g.num = types.length ∧ Rows 0 types g

theorem IntLine.isLine {n : ℤ} {l : Text} (h : IntLine n l) : IsLine 100 l := by
  obtain ⟨_, _, _, _, _, _, _, hl⟩ := h
  exact hl

theorem TypeLine.isLine {i : ℕ} {l : Text} (h : TypeLine i l) : IsLine 100 l := by
  obtain ⟨_, _, _, hl⟩ := h
  exact hl

theorem CityLine.isLine {j : ℕ} {c : City} {l : Text} (h : CityLine j c l) : IsLine 100 l := by
  obtain ⟨_, _, _, _, _, _, _, _, _, _, _, hl⟩ := h
  exact hl

theorem line_cons {l : Text} (h : IsLine 100 l) (g : Globals) (rest : Text) (inside : Bool) :
    Reader.line ⟨g, l ++ rest, inside⟩ = ⟨{ g with s := l }, rest, inside⟩ := by
  simp only [Reader.line, fgets_line h rest]

theorem scan_intLine {n : ℤ} {l : Text} (h : IntLine n l) (hn : IsInt32 n) : sscanf [.int] l = [.int n] := by
  obtain ⟨before, X, tail, hb, hX, ht, rfl, -⟩ := h
  rw [sscanf_cons (.int hX hn) hb ht.stops, sscanf]

theorem scan_cityLine {j : ℕ} {c : City} {l : Text} (h : CityLine j c l) (hc : c.Fits)
    (hj : IsInt32 (j + 1)) : sscanf cityFormat l =
      [.int (j + 1), .word c.name, .int (c.count 0), .int (c.count 1), .int (c.count 2)] := by
  obtain ⟨before, tail, gap, N, X, hb, hgap, ht, hN, hX, rfl, -⟩ := h
  obtain ⟨hname, -, hcount⟩ := hc
  rw [cityFormat, sscanf_cons (.int hN hj) hb ((hgap 0).stops _),
    sscanf_cons (.word hname) (hgap 0).2 ((hgap 1).stops _),
    sscanf_cons (.int (hX 0) (hcount 0)) (hgap 1).2 ((hgap 2).stops _),
    sscanf_cons (.int (hX 1) (hcount 1)) (hgap 2).2 ((hgap 3).stops _),
    sscanf_cons (.int (hX 2) (hcount 2)) (hgap 3).2 ht.stops, sscanf]

theorem place_ne {i i' j j' : ℕ} (hj : j < 100) (hj' : j' < 100) (h : i ≠ i' ∨ j ≠ j') :
    place i j ≠ place i' j' := by
  unfold place
  omega

theorem readCity_line {i j : ℕ} {c : City} {l : Text} (h : CityLine j c l) (hc : c.Fits)
    (hi : i < 5) (hj : j < 100) (g : Globals) (rest : Text) : readCity i j ⟨g, l ++ rest, true⟩ =
      ⟨{ g with s := l, data := Function.update g.data (place i j) (c.row j) }, rest, true⟩ := by
  have hscan := scan_cityLine h hc (by simp only [IsInt32]; omega)
  have hin : 100 * i + j < 500 := by omega
  have hname := hc.2.1
  rw [readCity, line_cons h.isLine]
  simp only [Reader.scan, hscan]
  have hflag : (true && decide (100 * i + j < 500 ∧ c.name.length < 50)) = true := by simp [hin, hname]
  congr 1

theorem readCities_lines {i j : ℕ} {cs : List City} {ls : List Text} (h : CityLines j cs ls)
    (hc : ∀ c ∈ cs, c.Fits) (hi : i < 5) (hj : j + cs.length ≤ 100) (g : Globals) (rest : Text) :
    ∃ data s, readCities i j cs.length ⟨g, ls.flatten ++ rest, true⟩ =
        ⟨{ g with data := data, s := s }, rest, true⟩ ∧
      (∀ k c, cs[k]? = some c → data (place i (j + k)) = c.row (j + k)) ∧
      ∀ a, (∀ k < cs.length, a ≠ place i (j + k)) → data a = g.data a := by
  induction h generalizing g with
  | nil j => exact ⟨g.data, g.s, rfl, by simp, fun _ _ => rfl⟩
  | @cons j c cs l ls head tail ih =>
    rw [List.length_cons] at hj
    obtain ⟨data, s, hread, hrows, hframe⟩ := ih (fun c hm => hc c (by simp [hm])) (by omega)
      { g with s := l, data := Function.update g.data (place i j) (c.row j) }
    refine ⟨data, s, ?_, ?_, ?_⟩
    · rw [List.flatten_cons, List.append_assoc, List.length_cons, readCities,
        readCity_line head (hc c (by simp)) hi (by omega), hread]
    · intro k c' hk
      cases k with
      | zero =>
        rw [List.getElem?_cons_zero, Option.some.injEq] at hk
        subst hk
        have hrow := hframe (place i j) fun k hk => place_ne (by omega) (by omega) (Or.inr (by omega))
        rw [Nat.add_zero, hrow]
        exact Function.update_self ..
      | succ k =>
        rw [List.getElem?_cons_succ] at hk
        have hr := hrows k c' hk
        have he : j + 1 + k = j + (k + 1) := by omega
        rwa [he] at hr
    · intro a ha
      have hne : a ≠ place i j := ha 0 (by simp)
      have hrest := hframe a fun k hk => by
        have he : j + 1 + k = j + (k + 1) := by omega
        rw [he]
        exact ha (k + 1) (by simpa using hk)
      rw [hrest]
      exact Function.update_of_ne hne ..

theorem readTypes_lines {i : ℕ} {types : Types} {ls : List Text} (h : TypeLines i types ls)
    (hfits : ∀ cs ∈ types, cs.length ≤ 100 ∧ ∀ c ∈ cs, c.Fits) (hi : i + types.length ≤ 5) (g : Globals)
    (rest : Text) : ∃ data in_num s, readTypes i types.length ⟨g, ls.flatten ++ rest, true⟩ =
        ⟨{ g with data := data, in_num := in_num, s := s }, rest, true⟩ ∧
      Rows i types { g with data := data, in_num := in_num } ∧
      (∀ k < i, in_num k = g.in_num k) ∧ ∀ k < i, ∀ j < 100, data (place k j) = g.data (place k j) := by
  induction h generalizing g with
  | nil i => exact ⟨g.data, g.in_num, g.s, rfl, by simp [Rows], fun _ _ => rfl, fun _ _ _ _ => rfl⟩
  | @cons i cs types letter number rows ls type size cities tail ih =>
    rw [List.length_cons] at hi
    obtain ⟨hsize, hcs⟩ := hfits cs (by simp)
    have hscan := scan_intLine size (by simp only [IsInt32]; omega)
    have hi5 : i < 5 := by omega
    obtain ⟨data, s, hread, hrows, hframe⟩ := readCities_lines cities hcs hi5 (by omega)
      { g with s := number, in_num := Function.update g.in_num i cs.length } (ls.flatten ++ rest)
    obtain ⟨data', in_num, s', hread', hrows', hnum', hframe'⟩ := ih (fun cs hm => hfits cs (by simp [hm])) (by omega)
      { g with s := s, data := data, in_num := Function.update g.in_num i cs.length }
    refine ⟨data', in_num, s', ?_, ?_, ?_, ?_⟩
    · have htype : readType i ⟨g, letter ++ (number ++ (rows.flatten ++ (ls.flatten ++ rest))), true⟩ =
          ⟨{ g with s := s, data := data, in_num := Function.update g.in_num i cs.length },
            ls.flatten ++ rest, true⟩ := by
        rw [readType, line_cons type.isLine, line_cons size.isLine]
        simp only [Reader.scan, hscan, hi5, decide_true, Bool.and_true]
        exact hread
      rw [List.flatten_cons, List.flatten_cons, List.flatten_append, List.length_cons, readTypes,
        List.append_assoc, List.append_assoc, List.append_assoc, htype, hread']
    · intro k cs' hk
      cases k with
      | zero =>
        rw [List.getElem?_cons_zero, Option.some.injEq] at hk
        subst hk
        refine ⟨?_, fun j c hc => ?_⟩
        · change in_num i = _
          rw [hnum' i (Nat.lt_succ_self i)]
          exact Function.update_self ..
        · obtain ⟨hj, -⟩ := List.getElem?_eq_some_iff.mp hc
          have hr := hrows j c hc
          rw [Nat.zero_add] at hr
          exact (hframe' i (Nat.lt_succ_self i) j (by omega)).trans hr
      | succ k =>
        rw [List.getElem?_cons_succ] at hk
        have hr := hrows' k cs' hk
        have he : i + 1 + k = i + (k + 1) := by omega
        rwa [he] at hr
    · intro k hk
      rw [hnum' k (by omega)]
      exact Function.update_of_ne (by omega) ..
    · intro k hk j hj
      rw [hframe' k (by omega) j hj]
      exact hframe _ fun k' hk' => place_ne hj (by omega) (Or.inl (by omega))

theorem reading_lists {g : Globals} {types : Types} (h : Lists g.file types) (hfits : FitsArrays types) :
    ∃ data in_num s rest, reading g =
        ⟨{ g with num := types.length, data := data, in_num := in_num, s := s }, rest, true⟩ ∧
      Rows 0 types { g with data := data, in_num := in_num } := by
  obtain ⟨number, ls, rest, hfile, hnumber, hls⟩ := h
  have hlen := hfits.types_le
  have hscan := scan_intLine hnumber (by simp only [IsInt32]; omega)
  obtain ⟨data, in_num, s, hread, hrows, -, -⟩ := readTypes_lines hls
    (fun cs hm => ⟨hfits.cities_le cs hm, hfits.city cs hm⟩) (by omega)
    { g with s := number, num := types.length } rest
  refine ⟨data, in_num, s, rest, ?_, hrows⟩
  have hfirst := line_cons hnumber.isLine g (ls.flatten ++ rest) true
  rw [← hfile] at hfirst
  rw [reading, hfirst]
  simp only [Reader.scan, hscan, intAt, List.getElem?_cons_zero, Option.getD_some, Int.toNat_natCast]
  rw [hread]

theorem reading_inside {g : Globals} {types : Types} (h : Lists g.file types) (hfits : FitsArrays types) :
    (reading g).inside = true := by
  obtain ⟨data, in_num, s, rest, hread, -⟩ := reading_lists h hfits
  rw [hread]

theorem agrees_readInventory {g : Globals} {types : Types} (h : Lists g.file types) (hfits : FitsArrays types) :
    Agrees (readInventory g) types := by
  obtain ⟨data, in_num, s, rest, hread, hrows⟩ := reading_lists h hfits
  rw [readInventory, hread]
  exact ⟨rfl, hrows⟩

theorem intLine_decimal {n : ℤ} (h : IsInt32 n) : IntLine n (decimal n ++ [newline]) := by
  refine ⟨[], decimal n, [newline], by simp [Blanks], decimal_numeral n, blanks_newline, rfl, decimal n,
    newline_not_mem_decimal n, rfl, ?_⟩
  have hl := decimal_length_le h
  simp only [List.length_append, List.length_singleton]
  omega

theorem typeLine_letter {i : ℕ} (h : i < 5) : TypeLine i [typeLetter i, newline] := by
  refine ⟨[newline], blanks_newline, rfl, [typeLetter i], ?_, rfl, by simp⟩
  have hne : ∀ i < 5, newline ≠ typeLetter i := by decide
  simpa using hne i h

theorem cityLine_row {c : City} (hc : c.Fits) {j : ℕ} (hj : j < 100) : CityLine j c (cityLine j (c.row j)) := by
  obtain ⟨hname, hlen, hcount⟩ := hc
  refine ⟨[], [newline], fun _ => [32], decimal (j + 1), fun k => decimal (c.count k), by simp [Blanks],
    fun _ => gap_blank, blanks_newline, decimal_numeral _, fun k => decimal_numeral _, by simp [cityLine, City.row],
    decimal (j + 1) ++ 32 :: (c.name ++ 32 :: (decimal (c.count 0) ++ 32 :: (decimal (c.count 1) ++ 32 ::
      decimal (c.count 2)))), ?_, by simp [cityLine, City.row], ?_⟩
  · have hn : newline ∉ c.name := fun hm => absurd (hname.2 newline hm) (by decide)
    have hb : newline ≠ 32 := by decide
    simp only [List.mem_append, List.mem_cons, not_or]
    exact ⟨newline_not_mem_decimal _, hb, hn, hb, newline_not_mem_decimal _, hb, newline_not_mem_decimal _, hb,
      newline_not_mem_decimal _⟩
  · have h0 := decimal_length_le (hcount 0)
    have h1 := decimal_length_le (hcount 1)
    have h2 := decimal_length_le (hcount 2)
    have hn := decimal_length_le (n := j + 1) (by simp only [IsInt32]; omega)
    simp only [cityLine, City.row, List.length_append, List.length_cons, List.length_nil]
    omega

theorem cityLines_rows {g : Globals} {i : ℕ} {cs : List City} {j : ℕ}
    (h : ∀ k c, cs[k]? = some c → g.data (place i (j + k)) = c.row (j + k)) (hc : ∀ c ∈ cs, c.Fits)
    (hj : j + cs.length ≤ 100) : ∃ ls, CityLines j cs ls ∧
      (List.range' j cs.length).flatMap (fun j : ℕ => cityLine j (g.row i j)) = ls.flatten := by
  induction cs generalizing j with
  | nil => exact ⟨[], .nil j, rfl⟩
  | cons c cs ih =>
    rw [List.length_cons] at hj
    obtain ⟨ls, hls, htext⟩ := ih (j := j + 1) (fun k c' hk => by
      have he : j + 1 + k = j + (k + 1) := by omega
      rw [he]
      exact h (k + 1) c' (by simpa using hk)) (fun c hm => hc c (by simp [hm])) (by omega)
    have hrow : g.row i j = c.row j := h 0 c (by simp)
    refine ⟨cityLine j (c.row j) :: ls, .cons (cityLine_row (hc c (by simp)) (by omega)) hls, ?_⟩
    rw [List.length_cons, List.range'_succ, List.flatMap_cons, List.flatten_cons, htext, hrow]

theorem typeLines_rows {g : Globals} {types : Types} {i : ℕ} (h : Rows i types g)
    (hfits : ∀ cs ∈ types, cs.length ≤ 100 ∧ ∀ c ∈ cs, c.Fits) (hi : i + types.length ≤ 5) :
    ∃ ls, TypeLines i types ls ∧ (List.range' i types.length).flatMap (typeText g) = ls.flatten := by
  induction types generalizing i with
  | nil => exact ⟨[], .nil i, rfl⟩
  | cons cs types ih =>
    rw [List.length_cons] at hi
    obtain ⟨ls, hls, htext⟩ := ih (i := i + 1) (fun k cs' hk => by
      have he : i + 1 + k = i + (k + 1) := by omega
      rw [he]
      exact h (k + 1) cs' (by simpa using hk)) (fun cs hm => hfits cs (by simp [hm])) (by omega)
    obtain ⟨hnum, hrows⟩ := h 0 cs (by simp)
    obtain ⟨hsize, hcs⟩ := hfits cs (by simp)
    obtain ⟨rows, hcities, hrowtext⟩ := cityLines_rows (g := g) (i := i) (j := 0)
      (fun k c hk => by simpa using hrows k c hk) hcs (by omega)
    rw [Nat.add_zero] at hnum
    have hcount : IntLine cs.length (decimal cs.length ++ [newline]) :=
      intLine_decimal (by simp only [IsInt32]; omega)
    refine ⟨[typeLetter i, newline] :: (decimal cs.length ++ [newline]) :: (rows ++ ls),
      .cons (typeLine_letter (by omega)) hcount hcities hls, ?_⟩
    have htype : typeText g i = [typeLetter i, newline] ++ ((decimal cs.length ++ [newline]) ++ rows.flatten) := by
      rw [typeText, hnum, Int.toNat_natCast, List.range_eq_range', hrowtext]
      simp
    rw [List.length_cons, List.range'_succ, List.flatMap_cons, htext, htype]
    simp

theorem lists_inventoryText {g : Globals} {types : Types} (h : Agrees g types) (hfits : FitsArrays types) :
    Lists (inventoryText g) types := by
  obtain ⟨hnum, hrows⟩ := h
  have hlen := hfits.types_le
  obtain ⟨ls, hls, htext⟩ := typeLines_rows hrows (fun cs hm => ⟨hfits.cities_le cs hm, hfits.city cs hm⟩)
    (by omega)
  refine ⟨decimal types.length ++ [newline], ls, [], ?_, intLine_decimal (by simp only [IsInt32]; omega), hls⟩
  rw [inventoryText, hnum, Int.toNat_natCast, List.range_eq_range', htext]
  simp

theorem lists_first {file : Text} {types : Types} (h : Lists file types) (hle : types.length ≤ 5) (g : Globals) :
    ∃ r, Reader.line ⟨g, file, true⟩ = r ∧ r.scan [.int] = [.int types.length] := by
  obtain ⟨number, ls, rest, rfl, hnumber, -⟩ := h
  exact ⟨_, line_cons hnumber.isLine g _ true, scan_intLine hnumber (by simp only [IsInt32]; omega)⟩

theorem lists_length {file : Text} {types types' : Types} (h : Lists file types) (h' : Lists file types')
    (hle : types.length ≤ 5) (hle' : types'.length ≤ 5) : types.length = types'.length := by
  obtain ⟨r, hr, hs⟩ := lists_first h hle sampleBoot.start
  obtain ⟨r', hr', hs'⟩ := lists_first h' hle' sampleBoot.start
  rw [← hr, hr', hs'] at hs
  simpa using hs.symm

end EmbeddedOS.Hw1
