import EmbeddedOS.Hw3.Checker
import EmbeddedOS.Hw3.Listing

namespace EmbeddedOS.Hw3.Loading

open CText

/-- The variables of `main`; `data` is flat, as in `Globals`. -/
structure Loader where
  num : ℤ
  data : ℤ → Inv
  s : Text
  fp : Text

namespace Loader

def line (l : Loader) : Loader :=
  match fgets 100 l.fp with
  | none => l
  | some (t, rest) => { l with s := t, fp := rest }

/-- What `sscanf(s, format, …)` stores in an element of `data`; a field it did not reach keeps its value. -/
def scanRow (l : Loader) (a : ℤ) (store : List Field → Inv → Inv) (format : List Conversion) : Loader :=
  { l with data := Function.update l.data a (store (sscanf format l.s) (l.data a)) }

end Loader

def loadCity (i j : ℕ) (l : Loader) : Loader :=
  l.line.scanRow (100 * i + j) (fun fs old =>
    { old with
      line := (intAt fs 0).getD old.line
      city := (wordAt fs 1).getD old.city
      a := (intAt fs 2).getD old.a
      b := (intAt fs 3).getD old.b
      c := (intAt fs 4).getD old.c }) cityFormat

def loadCities (i : ℕ) : ℕ → ℕ → Loader → Loader
  | _, 0, l => l
  | j, n + 1, l => loadCities i (j + 1) n (loadCity i j l)

def loadType (i : ℕ) (l : Loader) : Loader :=
  let l := l.line.scanRow (100 * i) (fun fs old => { old with type := (wordAt fs 0).getD old.type }) [.word none]
  let l := l.line.scanRow (100 * i) (fun fs old => { old with type_num := (intAt fs 0).getD old.type_num }) [.int]
  loadCities i 0 (l.data (100 * i)).type_num.toNat l

def loadTypes : ℕ → ℕ → Loader → Loader
  | _, 0, l => l
  | i, n + 1, l => loadTypes (i + 1) n (loadType i l)

def load (l : Loader) : Loader :=
  let l := l.line
  let l := { l with num := (intAt (sscanf [.int] l.s) 0).getD l.num }
  loadTypes 0 l.num.toNat l

/-- The locals of `read_file` that are not initialised. -/
structure Fresh where
  num : ℤ
  id : ℤ
  mask : Fin 3 → ℤ

variable (u : Fresh)

def readCity (file : Stream) : City × Stream :=
  let id := getInt file u.id
  let name := getWord id.2 []
  let mask0 := getInt name.2 (u.mask 0)
  let mask1 := getInt mask0.2 (u.mask 1)
  let mask2 := getInt mask1.2 (u.mask 2)
  (⟨id.1, name.1, ![mask0.1, mask1.1, mask2.1]⟩, mask2.2)

def readCities : ℕ → Std.TreeMap ℤ City → Stream → Std.TreeMap ℤ City × Stream
  | 0, cities_map, file => (cities_map, file)
  | n + 1, cities_map, file =>
    let r := readCity u file
    readCities n (cities_map.insert r.1.id r.1) r.2

def readStore (file : Stream) : Store × Stream :=
  let name := getWord file []
  let num := getInt name.2 u.num
  let r := readCities u num.1.toNat ∅ num.2
  (⟨name.1, r.1⟩, r.2)

def readStores : ℕ → Std.TreeMap Text Store → Stream → Std.TreeMap Text Store
  | 0, stores_map, _ => stores_map
  | n + 1, stores_map, file =>
    let r := readStore u file
    readStores n (stores_map.insert r.1.name r.1) r.2

def read_file (file : Text) : ℤ × Std.TreeMap Text Store :=
  let num := getInt (some file) 0
  (num.1, readStores u num.1.toNat ∅ num.2)

structure Shelf where
  name : Text
  cities : List City

def cityLine (c : City) : Text :=
  decimal c.id ++ 32 :: (c.name ++ 32 :: (decimal (c.mask 0) ++ 32 :: (decimal (c.mask 1) ++ 32 ::
    (decimal (c.mask 2) ++ [newline]))))

def shelfText (sh : Shelf) : Text :=
  sh.name ++ newline :: (decimal sh.cities.length ++ newline :: sh.cities.flatMap cityLine)

def layout (stock : List Shelf) : Text := decimal stock.length ++ newline :: stock.flatMap shelfText

def City.Fits (c : City) : Prop := IsName 50 c.name ∧ IsInt32 c.id ∧ ∀ k, IsInt32 (c.mask k)

structure Shelf.Fits (sh : Shelf) : Prop where
  name : IsName 20 sh.name
  cities_le : sh.cities.length ≤ 100
  ids : (sh.cities.map City.id).Nodup
  city : ∀ c ∈ sh.cities, City.Fits c

structure Fits (stock : List Shelf) : Prop where
  types_le : stock.length ≤ 15
  names : (stock.map Shelf.name).Nodup
  shelf : ∀ sh ∈ stock, sh.Fits

theorem isLine_fields {t : Text} (hn : newline ∉ t) (hlen : t.length < 99) : IsLine 100 (t ++ [newline]) := by
  refine ⟨t, hn, rfl, ?_⟩
  rw [List.length_append, List.length_singleton]
  omega

theorem newline_not_mem_word {w : Text} (h : IsWord w) : newline ∉ w :=
  fun hm => absurd (h.2 newline hm) (by decide)

theorem isLine_word {w : Text} {size : ℕ} (h : IsName size w) (hsize : size ≤ 99) : IsLine 100 (w ++ [newline]) :=
  isLine_fields (newline_not_mem_word h.1) (lt_of_lt_of_le h.2.2 hsize)

theorem isLine_int {n : ℤ} (h : IsInt32 n) : IsLine 100 (decimal n ++ [newline]) := by
  have hlen := decimal_length_le h
  exact isLine_fields (newline_not_mem_decimal n) (by omega)

theorem isLine_city {c : City} (h : City.Fits c) : IsLine 100 (cityLine c) := by
  obtain ⟨⟨hname, -, hlen⟩, hid, hmask⟩ := h
  have hline : cityLine c = (decimal c.id ++ 32 :: (c.name ++ 32 :: (decimal (c.mask 0) ++ 32 ::
      (decimal (c.mask 1) ++ 32 :: decimal (c.mask 2))))) ++ [newline] := by simp [cityLine]
  have hb : newline ≠ 32 := by decide
  rw [hline]
  apply isLine_fields
  · simp only [List.mem_append, List.mem_cons, not_or]
    exact ⟨newline_not_mem_decimal _, hb, newline_not_mem_word hname, hb, newline_not_mem_decimal _, hb,
      newline_not_mem_decimal _, hb, newline_not_mem_decimal _⟩
  · have hi := decimal_length_le hid
    have h0 := decimal_length_le (hmask 0)
    have h1 := decimal_length_le (hmask 1)
    have h2 := decimal_length_le (hmask 2)
    simp only [List.length_append, List.length_cons]
    omega

theorem stops_newline (rest : Text) : Stops isspace (newline :: rest) := stops_cons (by decide)

theorem scan_word {w : Text} (h : IsWord w) : sscanf [.word none] (w ++ [newline]) = [.word w] :=
  sscanf_first (.word h) (stops_newline []) []

theorem scan_int {n : ℤ} (h : IsInt32 n) : sscanf [.int] (decimal n ++ [newline]) = [.int n] :=
  sscanf_first (reads_decimal h) (stops_newline []) []

theorem scan_city {c : City} (h : City.Fits c) : sscanf cityFormat (cityLine c) =
    [.int c.id, .word c.name, .int (c.mask 0), .int (c.mask 1), .int (c.mask 2)] := by
  obtain ⟨⟨hname, -, -⟩, hid, hmask⟩ := h
  rw [cityFormat, cityLine, sscanf_first (reads_decimal hid) (stops_blank _),
    sscanf_next (.word hname) (stops_blank _), sscanf_next (reads_decimal (hmask 0)) (stops_blank _),
    sscanf_next (reads_decimal (hmask 1)) (stops_blank _), sscanf_next (reads_decimal (hmask 2)) (stops_newline []),
    sscanf]

def cityOf (r : Inv) : City := ⟨r.line, r.city, r.count⟩

def putCity (old : Inv) (c : City) : Inv :=
  { old with line := c.id, city := c.name, a := c.mask 0, b := c.mask 1, c := c.mask 2 }

theorem cityOf_putCity (old : Inv) (c : City) : cityOf (putCity old c) = c := by
  obtain ⟨id, name, mask⟩ := c
  have hmask : ![mask 0, mask 1, mask 2] = mask := by
    funext k
    fin_cases k <;> rfl
  simp only [cityOf, putCity, Inv.count, hmask]

structure Put (a : ℤ) (cs : List City) (data data' : ℤ → Inv) : Prop where
  row : ∀ (k : ℕ) c, cs[k]? = some c → cityOf (data' (a + k)) = c
  type : ∀ x, (data' x).type = (data x).type
  type_num : ∀ x, (data' x).type_num = (data x).type_num
  frame : ∀ x, (∀ k : ℕ, k < cs.length → x ≠ a + k) → data' x = data x

structure Holds (data : ℤ → Inv) (a : ℤ) (sh : Shelf) : Prop where
  type : (data a).type = sh.name
  type_num : (data a).type_num = sh.cities.length
  row : ∀ (k : ℕ) c, sh.cities[k]? = some c → cityOf (data (a + k)) = c

theorem Holds.congr {data data' : ℤ → Inv} {a : ℤ} {sh : Shelf} (h : Holds data a sh) (hlen : sh.cities.length ≤ 100)
    (hsame : ∀ x, a ≤ x → x < a + 100 → data' x = data x) : Holds data' a sh := by
  have ha := hsame a (by omega) (by omega)
  refine ⟨by rw [ha, h.type], by rw [ha, h.type_num], fun k c hk => ?_⟩
  obtain ⟨hlt, -⟩ := List.getElem?_eq_some_iff.mp hk
  rw [hsame (a + k) (by omega) (by omega)]
  exact h.row k c hk

theorem Put.cons {a : ℤ} {c : City} {cs : List City} {data data' : ℤ → Inv}
    (h : Put (a + 1) cs (Function.update data a (putCity (data a) c)) data') : Put a (c :: cs) data data' := by
  have hkeep (x : ℤ) : (Function.update data a (putCity (data a) c) x).type = (data x).type ∧
      (Function.update data a (putCity (data a) c) x).type_num = (data x).type_num := by
    by_cases hx : x = a
    · rw [hx, Function.update_self]
      exact ⟨rfl, rfl⟩
    · rw [Function.update_of_ne hx]
      exact ⟨rfl, rfl⟩
  refine ⟨fun k c' hk => ?_, fun x => (h.type x).trans (hkeep x).1, fun x => (h.type_num x).trans (hkeep x).2,
    fun x hx => ?_⟩
  · cases k with
    | zero =>
      obtain rfl : c = c' := by simpa using hk
      have hrow := h.frame a fun k _ => by omega
      rw [Nat.cast_zero, add_zero, hrow, Function.update_self, cityOf_putCity]
    | succ k =>
      have hrow := h.row k c' hk
      rw [Nat.cast_succ, add_comm (k : ℤ) 1, ← add_assoc]
      exact hrow
  · have hne : x ≠ a := by simpa using hx 0 (Nat.succ_pos _)
    rw [h.frame x fun k hk => ?_, Function.update_of_ne hne]
    have hk' := hx (k + 1) (Nat.succ_lt_succ hk)
    push_cast at hk'
    omega

theorem line_text {t : Text} (h : IsLine 100 t) (num : ℤ) (data : ℤ → Inv) (s rest : Text) :
    Loader.line ⟨num, data, s, t ++ rest⟩ = ⟨num, data, t, rest⟩ := by
  simp only [Loader.line, fgets_line h rest]

theorem loadCity_line {c : City} (hc : City.Fits c) (i j : ℕ) (num : ℤ) (data : ℤ → Inv) (s rest : Text) :
    loadCity i j ⟨num, data, s, cityLine c ++ rest⟩ =
      ⟨num, Function.update data (100 * i + j) (putCity (data (100 * i + j)) c), cityLine c, rest⟩ := by
  rw [loadCity, line_text (isLine_city hc)]
  simp only [Loader.scanRow, scan_city hc]
  rfl

theorem loadCities_put {cs : List City} (hcs : ∀ c ∈ cs, City.Fits c) (i j : ℕ) (num : ℤ) (data : ℤ → Inv)
    (s rest : Text) :
    ∃ data' s', loadCities i j cs.length ⟨num, data, s, cs.flatMap cityLine ++ rest⟩ = ⟨num, data', s', rest⟩ ∧
      Put (100 * i + j) cs data data' := by
  induction cs generalizing j data s with
  | nil => exact ⟨data, s, rfl, by simp, fun _ => rfl, fun _ => rfl, fun _ _ => rfl⟩
  | cons c cs ih =>
    obtain ⟨data', s', hload, hput⟩ := ih (fun c hm => hcs c (by simp [hm])) (j + 1)
      (Function.update data (100 * i + j) (putCity (data (100 * i + j)) c)) (cityLine c)
    refine ⟨data', s', ?_, ?_⟩
    · rw [List.flatMap_cons, List.append_assoc, List.length_cons, loadCities, loadCity_line (hcs c (by simp)), hload]
    · rw [Nat.cast_succ, ← add_assoc] at hput
      exact hput.cons

theorem loadType_holds {sh : Shelf} (h : sh.Fits) (i : ℕ) (num : ℤ) (data : ℤ → Inv) (s rest : Text) :
    ∃ data' s', loadType i ⟨num, data, s, shelfText sh ++ rest⟩ = ⟨num, data', s', rest⟩ ∧
      Holds data' (100 * i) sh ∧ ∀ x : ℤ, x < 100 * i → data' x = data x := by
  obtain ⟨hname, hlen, -, hcity⟩ := h
  have hsize : IsInt32 (sh.cities.length : ℤ) := by
    simp only [IsInt32]
    omega
  have htext : shelfText sh ++ rest = (sh.name ++ [newline]) ++ ((decimal sh.cities.length ++ [newline]) ++
      (sh.cities.flatMap cityLine ++ rest)) := by simp [shelfText]
  have hrow (r : Inv) : Function.update (Function.update data (100 * (i : ℤ)) r) (100 * i)
      { r with type_num := sh.cities.length } (100 * i) = { r with type_num := sh.cities.length } :=
    Function.update_self ..
  obtain ⟨data', s', hload, hput⟩ := loadCities_put hcity i 0 num
    (Function.update (Function.update data (100 * (i : ℤ)) { data (100 * i) with type := sh.name }) (100 * i)
      { data (100 * i) with type := sh.name, type_num := sh.cities.length })
    (decimal sh.cities.length ++ [newline]) rest
  rw [Nat.cast_zero, add_zero] at hput
  refine ⟨data', s', ?_, ⟨?_, ?_, hput.row⟩, fun x hx => ?_⟩
  · rw [htext, loadType, line_text (isLine_word hname (by norm_num))]
    simp only [Loader.scanRow, scan_word hname.1, line_text (isLine_int hsize), scan_int hsize]
    simp only [wordAt, intAt, List.getElem?_cons_zero, Option.getD_some, Function.update_self, Int.toNat_natCast]
    exact hload
  · rw [hput.type, hrow]
  · rw [hput.type_num, hrow]
  · rw [hput.frame x fun k _ => by omega, Function.update_of_ne (by omega), Function.update_of_ne (by omega)]

theorem loadTypes_holds {stock : List Shelf} (h : ∀ sh ∈ stock, sh.Fits) (i : ℕ) (num : ℤ) (data : ℤ → Inv)
    (s rest : Text) :
    ∃ data' s', loadTypes i stock.length ⟨num, data, s, stock.flatMap shelfText ++ rest⟩ = ⟨num, data', s', rest⟩ ∧
      (∀ (k : ℕ) sh, stock[k]? = some sh → Holds data' (100 * (i + k : ℕ)) sh) ∧
      ∀ x : ℤ, x < 100 * i → data' x = data x := by
  induction stock generalizing i data s with
  | nil => exact ⟨data, s, rfl, by simp, fun _ _ => rfl⟩
  | cons sh stock ih =>
    have hsh := h sh (by simp)
    obtain ⟨data', s', hload, hholds, hframe⟩ := loadType_holds hsh i num data s (stock.flatMap shelfText ++ rest)
    obtain ⟨data'', s'', hload', hholds', hframe'⟩ := ih (fun sh hm => h sh (by simp [hm])) (i + 1) data' s'
    refine ⟨data'', s'', ?_, fun k sh' hk => ?_, fun x hx => ?_⟩
    · rw [List.flatMap_cons, List.append_assoc, List.length_cons, loadTypes, hload, hload']
    · cases k with
      | zero =>
        obtain rfl : sh = sh' := by simpa using hk
        exact hholds.congr hsh.cities_le fun x _ hx => hframe' x (by push_cast; omega)
      | succ k =>
        have hrest := hholds' k sh' hk
        have he : i + 1 + k = i + (k + 1) := by omega
        rwa [he] at hrest
    · rw [hframe' x (by push_cast; omega), hframe x hx]

structure Loaded (l : Loader) (stock : List Shelf) : Prop where
  num : l.num = stock.length
  holds : ∀ (i : ℕ) sh, stock[i]? = some sh → Holds l.data (100 * i) sh

theorem load_layout {stock : List Shelf} (h : Fits stock) (l : Loader) (hfp : l.fp = layout stock) :
    Loaded (load l) stock := by
  have hlen := h.types_le
  have hsize : IsInt32 (stock.length : ℤ) := by
    simp only [IsInt32]
    omega
  obtain ⟨data', s', hload, hholds, -⟩ := loadTypes_holds h.shelf 0 stock.length l.data
    (decimal stock.length ++ [newline]) []
  have hall : load l = ⟨stock.length, data', s', []⟩ := by
    obtain ⟨num, data, s, fp⟩ := l
    have htext : fp = (decimal stock.length ++ [newline]) ++ (stock.flatMap shelfText ++ []) :=
      calc fp = layout stock := hfp
        _ = _ := by simp [layout]
    rw [load, htext, line_text (isLine_int hsize)]
    simp only [scan_int hsize, intAt, List.getElem?_cons_zero, Option.getD_some, Int.toNat_natCast]
    exact hload
  rw [hall]
  refine ⟨rfl, fun i sh hi => ?_⟩
  have hrow := hholds i sh hi
  rwa [Nat.zero_add] at hrow

def citiesMap (cs : List City) : Std.TreeMap ℤ City := Tables.insertAll City.id (fun c => c) cs

def storeOf (sh : Shelf) : Store := ⟨sh.name, citiesMap sh.cities⟩

def storesMap (stock : List Shelf) : Std.TreeMap Text Store := Tables.insertAll Shelf.name storeOf stock

theorem getInt_decimal {blanks rest : Text} {n : ℤ} (hb : Blanks blanks) (hn : IsInt32 n) (hr : Stops isspace rest)
    (v : ℤ) : getInt (some (blanks ++ (decimal n ++ rest))) v = (n, some rest) :=
  getInt_numeral hb (decimal_numeral n) hn (stops_digits_of_blank hr) v

theorem getInt_blank {rest : Text} {n : ℤ} (hn : IsInt32 n) (hr : Stops isspace rest) (v : ℤ) :
    getInt (some (32 :: (decimal n ++ rest))) v = (n, some rest) := getInt_decimal blanks_blank hn hr v

theorem getWord_blank {w rest : Text} (hw : IsWord w) (hr : Stops isspace rest) (str : Text) :
    getWord (some (32 :: (w ++ rest))) str = (w, some rest) := getWord_word blanks_blank hw hr str

theorem readCity_line {c : City} (h : City.Fits c) {blanks : Text} (hb : Blanks blanks) (rest : Text) :
    readCity u (some (blanks ++ (cityLine c ++ rest))) = (c, some (newline :: rest)) := by
  obtain ⟨⟨hname, -, -⟩, hid, hmask⟩ := h
  have htext : cityLine c ++ rest = decimal c.id ++ 32 :: (c.name ++ 32 :: (decimal (c.mask 0) ++ 32 ::
      (decimal (c.mask 1) ++ 32 :: (decimal (c.mask 2) ++ newline :: rest)))) := by simp [cityLine]
  rw [readCity, htext, getInt_decimal hb hid (stops_blank _)]
  simp only [getWord_blank hname (stops_blank _), getInt_blank (hmask 0) (stops_blank _),
    getInt_blank (hmask 1) (stops_blank _), getInt_blank (hmask 2) (stops_newline _)]
  have hcity : (⟨c.id, c.name, ![c.mask 0, c.mask 1, c.mask 2]⟩ : City) = c :=
    cityOf_putCity ⟨0, 0, 0, 0, 0, 0, [], []⟩ c
  rw [hcity]

theorem readCities_lines {cs : List City} (hcs : ∀ c ∈ cs, City.Fits c) (cities_map : Std.TreeMap ℤ City)
    {blanks : Text} (hb : Blanks blanks) (rest : Text) :
    ∃ blanks', Blanks blanks' ∧
      readCities u cs.length cities_map (some (blanks ++ (cs.flatMap cityLine ++ rest))) =
        (cs.foldl (fun m c => m.insert c.id c) cities_map, some (blanks' ++ rest)) := by
  induction cs generalizing cities_map blanks with
  | nil => exact ⟨blanks, hb, rfl⟩
  | cons c cs ih =>
    obtain ⟨blanks', hb', hread⟩ := ih (fun c hm => hcs c (by simp [hm])) (cities_map.insert c.id c) blanks_newline
    refine ⟨blanks', hb', ?_⟩
    rw [List.flatMap_cons, List.append_assoc, List.length_cons, readCities, readCity_line u (hcs c (by simp)) hb]
    exact hread

theorem readStore_text {sh : Shelf} (h : sh.Fits) {blanks : Text} (hb : Blanks blanks) (rest : Text) :
    ∃ blanks', Blanks blanks' ∧
      readStore u (some (blanks ++ (shelfText sh ++ rest))) = (storeOf sh, some (blanks' ++ rest)) := by
  obtain ⟨hname, hlen, -, hcity⟩ := h
  have hsize : IsInt32 (sh.cities.length : ℤ) := by
    simp only [IsInt32]
    omega
  obtain ⟨blanks', hb', hread⟩ := readCities_lines u hcity ∅ blanks_newline rest
  refine ⟨blanks', hb', ?_⟩
  have htext : shelfText sh ++ rest = sh.name ++ newline :: (decimal sh.cities.length ++ newline ::
      (sh.cities.flatMap cityLine ++ rest)) := by simp [shelfText]
  have hnum := getInt_decimal blanks_newline hsize (stops_newline (sh.cities.flatMap cityLine ++ rest)) u.num
  rw [readStore, htext, getWord_word hb hname.1 (stops_newline _)]
  simp only [List.singleton_append] at hnum hread
  simp only [hnum, Int.toNat_natCast, hread]
  rfl

theorem readStores_text {stock : List Shelf} (h : ∀ sh ∈ stock, sh.Fits) (stores_map : Std.TreeMap Text Store)
    {blanks : Text} (hb : Blanks blanks) :
    readStores u stock.length stores_map (some (blanks ++ stock.flatMap shelfText)) =
      stock.foldl (fun m sh => m.insert sh.name (storeOf sh)) stores_map := by
  induction stock generalizing stores_map blanks with
  | nil => rfl
  | cons sh stock ih =>
    obtain ⟨blanks', hb', hread⟩ := readStore_text u (h sh (by simp)) hb (stock.flatMap shelfText)
    rw [List.flatMap_cons, List.length_cons, readStores, hread]
    exact ih (fun sh hm => h sh (by simp [hm])) _ hb'

theorem read_file_layout {stock : List Shelf} (h : Fits stock) :
    read_file u (layout stock) = ((stock.length : ℤ), storesMap stock) := by
  have hlen := h.types_le
  have hsize : IsInt32 (stock.length : ℤ) := by
    simp only [IsInt32]
    omega
  have hnum := getInt_decimal blanks_none hsize (stops_newline (stock.flatMap shelfText)) 0
  rw [layout, read_file]
  simp only [List.nil_append] at hnum
  simp only [hnum, Int.toNat_natCast]
  rw [← List.singleton_append, readStores_text u h.shelf ∅ blanks_newline]
  rfl

structure Agree (l : Loader) (m : ℤ × Std.TreeMap Text Store) : Prop where
  num : m.1 = l.num
  types : ∀ name, (∃ st, m.2[name]? = some st) ↔ ∃ i : ℕ, i < l.num.toNat ∧ (l.data (100 * i)).type = name
  cities : ∀ i : ℕ, i < l.num.toNat → ∃ st, m.2[(l.data (100 * i)).type]? = some st ∧
    st.name = (l.data (100 * i)).type ∧ ∀ id c, st.cities_map[id]? = some c ↔
      ∃ j : ℕ, j < (l.data (100 * i)).type_num.toNat ∧ (l.data (100 * i + j)).line = id ∧
        cityOf (l.data (100 * i + j)) = c

theorem Holds.mem_iff {data : ℤ → Inv} {a : ℤ} {sh : Shelf} (h : Holds data a sh) (c : City) :
    c ∈ sh.cities ↔ ∃ j : ℕ, j < (data a).type_num.toNat ∧ cityOf (data (a + j)) = c := by
  rw [h.type_num, Int.toNat_natCast, List.mem_iff_getElem?]
  constructor
  · rintro ⟨j, hj⟩
    obtain ⟨hlt, -⟩ := List.getElem?_eq_some_iff.mp hj
    exact ⟨j, hlt, h.row j c hj⟩
  · rintro ⟨j, hlt, rfl⟩
    have hj := List.getElem?_eq_getElem hlt
    exact ⟨j, by rw [hj, h.row j _ hj]⟩

theorem agree_storesMap {stock : List Shelf} (h : Fits stock) {l : Loader} (hl : Loaded l stock) :
    Agree l ((stock.length : ℤ), storesMap stock) := by
  have hnum : l.num.toNat = stock.length := by
    rw [hl.num, Int.toNat_natCast]
  refine ⟨hl.num.symm, fun name => ?_, fun i hi => ?_⟩
  · simp only [storesMap, Tables.insertAll_eq_some_iff _ _ h.names, hnum]
    constructor
    · rintro ⟨st, sh, hsh, rfl, rfl⟩
      obtain ⟨i, hi⟩ := List.mem_iff_getElem?.mp hsh
      obtain ⟨hlt, -⟩ := List.getElem?_eq_some_iff.mp hi
      exact ⟨i, hlt, (hl.holds i sh hi).type⟩
    · rintro ⟨i, hlt, rfl⟩
      have hi := List.getElem?_eq_getElem hlt
      exact ⟨_, stock[i], List.getElem_mem hlt, (hl.holds i _ hi).type.symm, rfl⟩
  · rw [hnum] at hi
    have hsh := List.getElem_mem hi
    have hholds := hl.holds i _ (List.getElem?_eq_getElem hi)
    refine ⟨storeOf stock[i], ?_, hholds.type.symm, fun id c => ?_⟩
    · rw [hholds.type]
      exact Tables.insertAll_eq_some Shelf.name storeOf h.names hsh
    · simp only [storeOf, citiesMap, Tables.insertAll_eq_some_iff _ _ (h.shelf _ hsh).ids]
      constructor
      · rintro ⟨c', hc, rfl, rfl⟩
        obtain ⟨j, hj, hrow⟩ := (hholds.mem_iff c').mp hc
        exact ⟨j, hj, by rw [← hrow]; rfl, hrow⟩
      · rintro ⟨j, hj, rfl, rfl⟩
        exact ⟨_, (hholds.mem_iff _).mpr ⟨j, hj, rfl⟩, rfl, rfl⟩

theorem loaders_agree (stock : List Shelf) (h : Fits stock) (l : Loader) (hfp : l.fp = layout stock) :
    Loaded (load l) stock ∧ Agree (load l) (read_file u (layout stock)) := by
  have hloaded := load_layout h l hfp
  refine ⟨hloaded, ?_⟩
  rw [read_file_layout u h]
  exact agree_storesMap h hloaded

def shelfAt (data : ℤ → Inv) (i : ℕ) : Shelf where
  name := (data (100 * i)).type
  cities := (List.range (data (100 * i)).type_num.toNat).map fun j : ℕ => cityOf (data (100 * i + j))

theorem Holds.eq_shelfAt {data : ℤ → Inv} {i : ℕ} {sh : Shelf} (h : Holds data (100 * i) sh) : sh = shelfAt data i := by
  obtain ⟨name, cities⟩ := sh
  obtain ⟨htype, hnum, hrow⟩ := h
  have hcities : cities = (List.range cities.length).map fun j : ℕ => cityOf (data (100 * i + j)) := by
    apply List.ext_getElem
    · simp
    · intro j hj _
      rw [List.getElem_map, List.getElem_range]
      exact (hrow j _ (List.getElem?_eq_getElem hj)).symm
  rw [shelfAt, htype, hnum, Int.toNat_natCast]
  simp only [Shelf.mk.injEq, true_and]
  exact hcities

theorem Loaded.eq_shelves {l : Loader} {stock : List Shelf} (h : Loaded l stock) :
    stock = (List.range stock.length).map (shelfAt l.data) := by
  apply List.ext_getElem
  · simp
  · intro i hi _
    rw [List.getElem_map, List.getElem_range]
    exact (h.holds i _ (List.getElem?_eq_getElem hi)).eq_shelfAt

theorem storeOf_shelfAt (v : Inventory) (i : ℕ) :
    storeOf (shelfAt v.data i) = ⟨(v.data (100 * i)).type, Hw3.readCities v i⟩ := by
  simp only [storeOf, shelfAt, citiesMap, Tables.insertAll_map]
  rfl

theorem Loaded.holds_get {l : Loader} {stock : List Shelf} (h : Loaded l stock) {i : ℕ} (hi : i < stock.length) :
    Holds l.data (100 * i) stock[i] := h.holds i _ (List.getElem?_eq_getElem hi)

theorem Loaded.type_num_le {l : Loader} {stock : List Shelf} (h : Loaded l stock) (hfits : Fits stock) :
    ∀ i < stock.length, (l.data (100 * i)).type_num ≤ 100 := by
  intro i hi
  have hlen := (hfits.shelf _ (List.getElem_mem hi)).cities_le
  rw [(h.holds_get hi).type_num]
  exact_mod_cast hlen

theorem Loaded.type_name {l : Loader} {stock : List Shelf} (h : Loaded l stock) (hfits : Fits stock) :
    ∀ i < stock.length, IsName 20 (l.data (100 * i)).type := by
  intro i hi
  rw [(h.holds_get hi).type]
  exact (hfits.shelf _ (List.getElem_mem hi)).name

theorem Loaded.city_name {l : Loader} {stock : List Shelf} (h : Loaded l stock) (hfits : Fits stock) :
    ∀ i < stock.length, ∀ j : ℕ, j < (l.data (100 * i)).type_num → IsName 50 (l.data (100 * i + j)).city := by
  intro i hi j hj
  have hholds := h.holds_get hi
  have hcity := (hholds.mem_iff _).mpr ⟨j, by omega, rfl⟩
  exact ((hfits.shelf _ (List.getElem_mem hi)).city _ hcity).1

def inventory {l : Loader} {stock : List Shelf} (hfits : Fits stock) (h : Loaded l stock) : Inventory where
  num := stock.length
  data := l.data
  num_le := hfits.types_le
  type_num_le := h.type_num_le hfits
  type_name := h.type_name hfits
  city_name := h.city_name hfits

theorem read_file_table {l : Loader} {stock : List Shelf} (hfits : Fits stock) (h : Loaded l stock) :
    (read_file u (layout stock)).2 = Hw3.read_file (inventory hfits h) := by
  rw [read_file_layout u hfits]
  change storesMap stock = Tables.fill _ _ stock.length
  have hshelves := h.eq_shelves
  rw [storesMap]
  nth_rewrite 1 [hshelves]
  rw [Tables.insertAll_map, Tables.fill_eq_insertAll]
  congr 1
  funext i
  exact storeOf_shelfAt (inventory hfits h) i

def sampleStock : List Shelf :=
  [⟨lit "S2", [⟨3, lit "C3", ![5, 6, 7]⟩, ⟨-1, lit "C1", ![0, -4, 1]⟩]⟩, ⟨lit "S1", []⟩]

set_option maxRecDepth 2000 in
theorem isName_two {size : ℕ} (hsize : 2 < size) {w : Text} (h : w ∈ ["S2", "S1", "C3", "C1"].map lit) :
    IsName size w := by
  have hshort : ∀ w ∈ ["S2", "S1", "C3", "C1"].map lit, w ≠ [] ∧ (∀ b ∈ w, isspace b = false) ∧ 0 ∉ w ∧
      w.length = 2 := by
    decide
  obtain ⟨hne, hblank, hnul, hlen⟩ := hshort w h
  exact ⟨⟨hne, hblank⟩, hnul, by omega⟩

theorem sampleStock_fits : Fits sampleStock := by
  have hname : ∀ sh ∈ sampleStock, sh.name ∈ ["S2", "S1", "C3", "C1"].map lit := by decide
  have hcities : ∀ sh ∈ sampleStock, sh.cities.length ≤ 100 ∧ (sh.cities.map City.id).Nodup := by decide
  have hcity : ∀ sh ∈ sampleStock, ∀ c ∈ sh.cities, c.name ∈ ["S2", "S1", "C3", "C1"].map lit := by decide
  have hints : ∀ sh ∈ sampleStock, ∀ c ∈ sh.cities, IsInt32 c.id ∧ ∀ k, IsInt32 (c.mask k) := by decide
  refine ⟨by decide, by decide, fun sh hsh => ?_⟩
  obtain ⟨hlen, hids⟩ := hcities sh hsh
  refine ⟨isName_two (by norm_num) (hname sh hsh), hlen, hids, fun c hc => ?_⟩
  exact ⟨isName_two (by norm_num) (hcity sh hsh c hc), hints sh hsh c hc⟩

theorem loaders_agree_sample :
    Fits sampleStock ∧ Loaded (load ⟨0, fun _ => ⟨0, 0, 0, 0, 0, 0, [], []⟩, [], layout sampleStock⟩) sampleStock ∧
      Agree (load ⟨0, fun _ => ⟨0, 0, 0, 0, 0, 0, [], []⟩, [], layout sampleStock⟩)
        (read_file ⟨7, 7, fun _ => 7⟩ (layout sampleStock)) :=
  ⟨sampleStock_fits, loaders_agree ⟨7, 7, fun _ => 7⟩ sampleStock sampleStock_fits
    ⟨0, fun _ => ⟨0, 0, 0, 0, 0, 0, [], []⟩, [], layout sampleStock⟩ rfl⟩

end EmbeddedOS.Hw3.Loading
