import EmbeddedOS.Hw3.Checker
import EmbeddedOS.Hw3.Leftovers

namespace EmbeddedOS.Hw3

open CText Runs

inductive Scripted (v : Inventory) : Text → Prop
  | login (x : Byte) (ds : Text) (letter : isupper x = true) (length : ds.length = 9)
      (digits : ∀ b ∈ ds, isdigit b = true) : Scripted v (lit "login " ++ x :: ds)
  | logout : Scripted v (lit "logout")
  | statics : Scripted v (lit "statics")
  | display : Scripted v (lit "show")
  | other (t : Text) (unknown : kind t = .invalid) : Scripted v t
  | buy (type : Text) (c : ℕ) (X : Fin 3 → Text) (m : Fin 3 → ℤ)
      (name : type = lit "XXX" ∨ ∃ i < v.num, type = (v.data (100 * i)).type) (digit : 1 ≤ c ∧ c ≤ 9)
      (numerals : ∀ j, Numeral (m j) (X j)) (int : ∀ j, IsInt32 (m j))
      (sum : IsInt32 (m 0 + m 1 + m 2)) : Scripted v (buyText type (decimal c) X)

def Inventory.Numbered (v : Inventory) : Prop :=
  ∀ i < v.num, ∀ j : ℕ, j < (v.data (100 * i)).type_num → (v.data (100 * i + j)).line = j + 1

structure Boot.Script (b : Boot) (es : List Event) : Prop where
  distinct : b.DistinctTypes
  names : ∀ i < b.num, startsWith (lit "XXX") (b.data (100 * i)).type = false
  numbered : b.Numbered
  day : 1 ≤ b.day ∧ b.day ≤ 7
  fd_lt : ∀ e ∈ es, b.fd e.conn < 100
  fd_inj : ∀ e ∈ es, ∀ f ∈ es, b.fd e.conn = b.fd f.conn → e.conn = f.conn
  text : ∀ e ∈ es, Scripted b.toInventory e.text

theorem ofFn_getD {w : Text} {n : ℕ} (h : w.length = n) : List.ofFn (fun i : Fin n => w.getD i 0) = w := by
  subst h
  apply List.ext_getElem
  · simp
  · intro i h1 h2
    simp

theorem letterNum_eq {x : Byte} (h : isupper x = true) (y : ℤ) : letterNum x = letterCode y x := by
  refine isupper_cases (P := fun x => letterNum x = letterCode y x) ?_ h
  intro n hl hu
  interval_cases n <;> rfl

theorem atoi_digit {x : Byte} (h : isdigit x = true) : atoi [x] = chr x - 48 := by
  rw [isdigit_iff] at h
  rw [← UInt8.ofNat_toNat (x := x)]
  obtain ⟨hl, hu⟩ := h
  generalize x.toNat = n at hl hu
  interval_cases n <;> decide

def readAt (d : ID) (k : Fin 10) : ℤ := atoi [d k]

def readSum (d : ID) : ℤ := readAt d 1 * 8 + readAt d 2 * 7 + readAt d 3 * 6 + readAt d 4 * 5 + readAt d 5 * 4 +
  readAt d 6 * 3 + readAt d 7 * 2 + readAt d 8 * 1

theorem judge_correction_iff (d : ID) (u : Scratch) : judge_correction u (List.ofFn d) = true ↔
    10 - ((letterNum (d 0)).tdiv 10 + (letterNum (d 0)).tmod 10 * 9 + readSum d).tmod 10 = readAt d 9 := by
  have hlen : ¬ (List.ofFn d).length > 10 := by simp
  have hhead : (List.ofFn d).headD 0 = d 0 := by simp [List.ofFn_succ]
  have hnum (k : Fin 10) : idNum u (List.ofFn d) k = readAt d k := by
    have hk : (List.ofFn d)[(k : ℕ)]? = some (d k) := by
      rw [List.getElem?_ofFn, dif_pos k.isLt]
    simp only [idNum, hk, readAt]
  simp only [judge_correction, if_neg hlen, hhead, beq_iff_eq]
  generalize idNum u (List.ofFn d) = num at hnum
  have h1 : num 1 = readAt d 1 := hnum 1
  have h2 : num 2 = readAt d 2 := hnum 2
  have h3 : num 3 = readAt d 3 := hnum 3
  have h4 : num 4 = readAt d 4 := hnum 4
  have h5 : num 5 = readAt d 5 := hnum 5
  have h6 : num 6 = readAt d 6 := hnum 6
  have h7 : num 7 = readAt d 7 := hnum 7
  have h8 : num 8 = readAt d 8 := hnum 8
  have h9 : num 9 = readAt d 9 := hnum 9
  have hsum (Y : ℤ) : (List.range' 1 8).foldl (fun sum i => sum + num i * (9 - i)) Y = Y + readSum d := by
    simp [List.range', h1, h2, h3, h4, h5, h6, h7, h8, readSum, add_assoc]
  rw [hsum, h9]

theorem judge_correction_eq {d : ID} (hletter : isupper (d 0) = true)
    (hdigit : ∀ k : Fin 9, isdigit (d k.succ) = true) (u : Scratch) (y : ℤ) :
    judge_correction u (List.ofFn d) = check_ID y d := by
  have hread (k : Fin 9) : readAt d k.succ = digitAt d k.succ := atoi_digit (hdigit k)
  have h9 : readAt d 9 = digitAt d 9 := hread 8
  have hsum : readSum d = digitSum d := by
    have h1 : readAt d 1 = digitAt d 1 := hread 0
    have h2 : readAt d 2 = digitAt d 2 := hread 1
    have h3 : readAt d 3 = digitAt d 3 := hread 2
    have h4 : readAt d 4 = digitAt d 4 := hread 3
    have h5 : readAt d 5 = digitAt d 5 := hread 4
    have h6 : readAt d 6 = digitAt d 6 := hread 5
    have h7 : readAt d 7 = digitAt d 7 := hread 6
    have h8 : readAt d 8 = digitAt d 8 := hread 7
    rw [readSum, digitSum, h1, h2, h3, h4, h5, h6, h7, h8]
  rw [Bool.eq_iff_iff, judge_correction_iff, check_ID_iff, checkDigit, letterNum_eq hletter y, hsum, h9]

theorem isspace_of_isupper {x : Byte} (h : isupper x = true) : isspace x = false := by
  refine isupper_cases (P := fun x => isspace x = false) ?_ h
  intro n hl hu
  interval_cases n <;> rfl

theorem scanID_login {x : Byte} {ds : Text} (hx : isupper x = true) (hlen : ds.length = 9)
    (hds : ∀ b ∈ ds, isdigit b = true) (l : Locals) :
    List.ofFn (scanID l (lit "login " ++ x :: ds)) = x :: ds := by
  have hw : IsWord (x :: ds) := by
    refine ⟨by simp, fun b hb => ?_⟩
    rcases List.mem_cons.mp hb with rfl | hb
    · exact isspace_of_isupper hx
    · exact isspace_of_isdigit (hds b hb)
  have h0 := @scanWord_word [] (lit "login") (32 :: (x :: ds)) (by simp) isWord_login (stops_blank _)
  have h1 := @scanWord_width [32] (x :: ds) [] 10 blanks_blank hw (stops_nil _) (by omega)
  have hstored : storedID (lit "login " ++ x :: ds) = x :: ds ++ [0] := by
    have htext : lit "login " ++ x :: ds = lit "login" ++ 32 :: (x :: ds) := by
      have : lit "login " = lit "login" ++ [32] := by decide
      rw [this]
      simp
    have hshort : ¬ 16 ≤ (lit "login").length := by decide
    simp only [List.nil_append, List.singleton_append, List.append_nil] at h0 h1
    simp [storedID, htext, sscanf, h0, h1, wordAt, hlen, spill, storeString, hshort]
  have hfun : scanID l (lit "login " ++ x :: ds) = fun i : Fin 10 => (x :: ds).getD i 0 := by
    funext i
    rw [scanID_stored (by rw [hstored]; simp [hlen]; omega), hstored,
      List.getD_append _ _ _ _ (by simp [hlen])]
  rw [hfun, ofFn_getD (by simp [hlen])]

def DB.mask (d : DB) (store : Text) (city : ℤ) : Option (Fin 3 → ℤ) :=
  (d.stores_map[store]?).bind fun st => (st.cities_map[city]?).map City.mask

def shelf (g : Globals) (type : Text) (city : ℤ) : Option (Fin 3 → ℤ) :=
  (findType g type).bind fun i =>
    if 1 ≤ city ∧ city ≤ (g.row i 0).type_num then some (g.row i (city - 1)).count else none

theorem readCities_eq {v : Inventory} (h : v.Numbered) {i : ℕ} (hi : i < v.num) (city : ℤ) :
    (readCities v i)[city]? = if 1 ≤ city ∧ city ≤ (v.data (100 * i)).type_num then
      some ⟨city, (v.data (100 * i + (city - 1))).city, (v.data (100 * i + (city - 1))).count⟩ else none := by
  unfold readCities
  split_ifs with hc
  · obtain ⟨j, rfl⟩ : ∃ j : ℕ, city = j + 1 := ⟨(city - 1).toNat, by omega⟩
    have hj : j < (v.data (100 * i)).type_num.toNat := by omega
    have hline := h i hi j (by omega)
    have hkey : ∀ j < (v.data (100 * i)).type_num.toNat, ∀ k < (v.data (100 * i)).type_num.toNat,
        (v.data (100 * i + j)).line = (v.data (100 * i + k)).line → j = k := by
      intro j hj k hk he
      rw [h i hi j (by omega), h i hi k (by omega)] at he
      omega
    rw [← hline, Tables.fill_eq_some _ _ _ hkey hj, hline]
    simp
  · rw [Tables.fill_eq_none]
    intro j hj he
    rw [h i hi j (by omega)] at he
    omega

theorem readCities_mask {v : Inventory} (h : v.Numbered) {i : ℕ} (hi : i < v.num) (city : ℤ) :
    ((readCities v i)[city]?).map City.mask =
      if 1 ≤ city ∧ city ≤ (v.data (100 * i)).type_num then some (v.data (100 * i + (city - 1))).count
      else none := by
  rw [readCities_eq h hi]
  split_ifs <;> rfl

theorem read_file_store {b : Boot} (hdistinct : b.DistinctTypes) (store : Text) :
    (read_file b.toInventory)[store]? =
      (findType b.globals store).map fun i => ⟨store, readCities b.toInventory i⟩ := by
  cases hf : findType b.globals store with
  | none =>
    have hnone := findType_eq_none.mp hf
    rw [read_file, Tables.fill_eq_none, Option.map_none]
    intro i hi he
    apply hnone i hi
    simpa [Boot.globals, Globals.row] using he.symm
  | some i =>
    obtain ⟨hi, rfl⟩ := findType_eq_some hf
    have hrow : (b.globals.row i 0).type = (b.data (100 * i)).type := by simp [Boot.globals, Globals.row]
    rw [hrow, read_file, Tables.fill_eq_some _ _ _ hdistinct hi, Option.map_some]

theorem read_file_mask {b : Boot} (hdistinct : b.DistinctTypes) (hnumbered : b.Numbered)
    (d : DB) (hd : d.stores_map = read_file b.toInventory) (store : Text) (city : ℤ) :
    d.mask store city = shelf b.globals store city := by
  unfold DB.mask shelf
  rw [hd, read_file_store hdistinct]
  cases hf : findType b.globals store with
  | none => rfl
  | some i =>
    obtain ⟨hi, -⟩ := findType_eq_some hf
    rw [Option.map_some, Option.bind_some, Option.bind_some, readCities_mask hnumbered hi]
    simp [Boot.globals, Globals.row]

section Sell

variable (d : DB) (id : Text) (r : BuyMsg) (st : Store) (ptr : City)

theorem sell_day : (d.sell id r st ptr).day =
    if int32 (d.day + 1) > 7 then 1 else int32 (d.day + 1) := by
  simp only [DB.sell]
  split_ifs <;> rfl

theorem sell_alcohol : (d.sell id r st ptr).alcohol =
    if int32 (d.alcohol - 1) < 5 then d.ori_alcohol else int32 (d.alcohol - 1) := by
  by_cases hd : int32 (d.day + 1) > 7 <;> simp [DB.sell, hd]

theorem sell_ori_alcohol : (d.sell id r st ptr).ori_alcohol = d.ori_alcohol := by
  simp only [DB.sell]
  split_ifs <;> rfl

theorem sell_buy_list : (d.sell id r st ptr).buy_list =
    if int32 (d.day + 1) > 7 then ∅ else d.buy_list.insert id true := by
  simp only [DB.sell]
  split_ifs <;> rfl

theorem sell_stores_map : (d.sell id r st ptr).stores_map = d.stores_map.insert r.store { st with
    cities_map := st.cities_map.insert r.city_idx { ptr with mask := fun j => ptr.mask j - r.mask j } } := by
  simp only [DB.sell]
  split_ifs <;> rfl

end Sell

theorem sell_mask {d : DB} {r : BuyMsg} {st : Store} (hst : d.stores_map[r.store]? = some st) (id : Text)
    (ptr : City) (store : Text) (city : ℤ) : (d.sell id r st ptr).mask store city =
      if store = r.store ∧ city = r.city_idx then some (fun j => ptr.mask j - r.mask j)
      else d.mask store city := by
  rw [DB.mask, sell_stores_map, Std.TreeMap.getElem?_insert]
  by_cases hs : store = r.store
  · subst hs
    simp only [Std.LawfulEqCmp.compare_eq_iff_eq, ↓reduceIte, Option.bind_some,
      Std.TreeMap.getElem?_insert, true_and, DB.mask, hst]
    by_cases hc : city = r.city_idx
    · simp [hc]
    · simp [hc, Ne.symm hc]
  · simp [hs, Ne.symm hs, DB.mask]

theorem findType_purchase (g : Globals) (i : ℕ) (r : Request) (id : ID) (type : Text) :
    findType (purchase g i r id) type = findType g type := by
  have htype (k : ℕ) : ((purchase g i r id).row k 0).type = (g.row k 0).type := by
    have h := purchase_label g i r id (100 * k + 0)
    simp only [Inv.label, Prod.mk.injEq] at h
    exact h.2.2.2.1
  simp only [findType, purchase_num, htype]

theorem type_num_purchase (g : Globals) (i : ℕ) (r : Request) (id : ID) (k : ℕ) :
    ((purchase g i r id).row k 0).type_num = (g.row k 0).type_num := by
  have h := purchase_label g i r id (100 * k + 0)
  simp only [Inv.label, Prod.mk.injEq] at h
  exact h.2.1

theorem row_count_purchase (g : Globals) (i : ℕ) (r : Request) (id : ID) (k : ℕ) (a : ℤ) :
    ((purchase g i r id).row k a).count =
      if 100 * k + a = r.article i then (g.row i (r.city_num - 1)).count - r.mask_num
      else (g.row k a).count := by
  rw [Globals.row, purchase_count, Function.update_apply]
  rfl

theorem shelf_purchase {g : Globals} {r : Request} {i : ℕ} (hsize : ∀ k < g.num, (g.row k 0).type_num ≤ 100)
    (hf : findType g r.type = some i) (hc : 1 ≤ r.city_num ∧ r.city_num ≤ (g.row i 0).type_num)
    (id : ID) (type : Text) (city : ℤ) : shelf (purchase g i r id) type city =
      if type = r.type ∧ city = r.city_num then
        some (fun j => (g.row i (r.city_num - 1)).count j - r.mask_num j)
      else shelf g type city := by
  unfold shelf
  rw [findType_purchase]
  cases hk : findType g type with
  | none =>
    have hne : type ≠ r.type := by
      rintro rfl
      rw [hf] at hk
      cases hk
    simp [hne]
  | some k =>
    obtain ⟨hkn, hkt⟩ := findType_eq_some hk
    obtain ⟨hin, hit⟩ := findType_eq_some hf
    have hk100 := hsize k hkn
    have hi100 := hsize i hin
    simp only [Option.bind_some, type_num_purchase, row_count_purchase]
    by_cases hr : type = r.type ∧ city = r.city_num
    · obtain ⟨rfl, rfl⟩ := hr
      obtain rfl : k = i := Option.some.inj (hk.symm.trans hf)
      simp only [hc, and_self, ↓reduceIte, Request.article, Option.some.injEq]
      rfl
    · rw [if_neg hr]
      split_ifs with hcity ha
      · rw [Request.article] at ha
        obtain rfl : k = i := by omega
        exact absurd ⟨hkt.trans hit.symm, by omega⟩ hr
      · rfl
      · rfl

def Checker.Admits (u : Scratch) (t : Checker) (connfd : ℤ) : Prop :=
  t.log_static connfd = true ∧ dayOpen t.mydata.day (lastDigit u (t.my_id connfd)) ∧
    t.my_id connfd ∉ t.mydata.buy_list

def BuyMsg.Valid (r : BuyMsg) : Prop :=
  int32 (int32 (r.mask 0 + r.mask 1) + r.mask 2) ≤ 3 ∧ r.mask 0 ≥ 0 ∧ r.mask 1 ≥ 0 ∧ r.mask 2 ≥ 0

def Checker.sold (t : Checker) (connfd : ℤ) (r : BuyMsg) (st : Store) (ptr : City) : Checker :=
  { t with
    mydata := t.mydata.sell (t.my_id connfd) r st ptr
    log_static := Function.update t.log_static connfd false
    area_start := t.area_start ++ (lastEntry t connfd).toList
    area_end := t.area_end ++ [t.log_files.length] }

theorem ge_all_iff {p m : Fin 3 → ℤ} : (p 0 ≥ m 0 ∧ p 1 ≥ m 1 ∧ p 2 ≥ m 2) ↔ ∀ j, m j ≤ p j := by
  simp [Fin.forall_fin_succ]

theorem check_buy_sells {u : Scratch} {t : Checker} {e : Log_file} {q : Fin 3 → ℤ}
    (hadmits : t.Admits u e.connfd) (hvalid : (scanBuy u e.command).Valid)
    (hq : t.mydata.mask (scanBuy u e.command).store (scanBuy u e.command).city_idx = some q)
    (hle : ∀ j, (scanBuy u e.command).mask j ≤ q j) :
    ∃ st ptr, t.mydata.stores_map[(scanBuy u e.command).store]? = some st ∧
      st.cities_map[(scanBuy u e.command).city_idx]? = some ptr ∧ ptr.mask = q ∧
        check_buy u t e = (t.sold e.connfd (scanBuy u e.command) st ptr, compare_results e bought) := by
  obtain ⟨st, hst, hcity⟩ := Option.bind_eq_some_iff.mp hq
  obtain ⟨ptr, hptr, rfl⟩ := Option.map_eq_some_iff.mp hcity
  refine ⟨st, ptr, hst, hptr, rfl, ?_⟩
  unfold Checker.Admits at hadmits
  unfold BuyMsg.Valid at hvalid
  simp only [check_buy, hadmits, hvalid, not_false_eq_true, and_self, ↓reduceIte, hst, hptr,
    ge_all_iff.mpr hle, Checker.sold]

theorem check_buy_fails {u : Scratch} {t : Checker} {e : Log_file}
    (h : t.Admits u e.connfd → (scanBuy u e.command).Valid → ∀ q,
      t.mydata.mask (scanBuy u e.command).store (scanBuy u e.command).city_idx = some q →
      ¬ ∀ j, (scanBuy u e.command).mask j ≤ q j) :
    check_buy u t e = (t, compare_results e (lit "Buy failed.")) := by
  simp only [check_buy]
  split_ifs with hadmits hvalid
  · have hq := h hadmits hvalid
    cases hst : t.mydata.stores_map[(scanBuy u e.command).store]? with
    | none => rfl
    | some st =>
      cases hptr : st.cities_map[(scanBuy u e.command).city_idx]? with
      | none => simp only [hptr]
      | some ptr =>
        have hle := hq ptr.mask (by simp [DB.mask, hst, hptr])
        simp only [hptr, ge_all_iff, hle, ↓reduceIte]
  · rfl
  · rfl

structure SameState (K : ℕ → Prop) (s : Server) (t : Checker) : Prop where
  day : t.mydata.day = s.globals.day
  alcohol : t.mydata.alcohol = s.globals.alcohol
  stock : ∀ type city, t.mydata.mask type city = shelf s.globals type city
  recorded : ∀ beyond w, w ∈ t.mydata.buy_list ↔ ∃ d ∈ s.globals.recorded beyond, w = List.ofFn d
  login : ∀ k, K k → t.log_static (s.conns k).fd = (s.conns k).iflogin

structure Tracks (K : ℕ → Prop) (s : Server) (t : Checker) : Prop extends SameState K s t where
  ori_alcohol : t.mydata.ori_alcohol = s.globals.alcohol_capacity
  id : ∀ k, K k → (s.conns k).iflogin = true → t.my_id (s.conns k).fd = List.ofFn (s.conns k).ID

theorem lastDigit_ofFn (u : Scratch) (d : ID) : lastDigit u (List.ofFn d) = digitAt d 9 := by
  have h : (List.ofFn d ++ [0]).getD 9 u.past = d 9 := by simp [List.ofFn_succ]
  rw [lastDigit, h, digitAt]

theorem dayOpen_iff {day n : ℤ} (hday : 1 ≤ day) (hn : 1 ≤ n) :
    dayOpen day n ↔ day = 7 ∨ day % 2 = n % 2 := by
  rw [dayOpen, Int.tmod_eq_emod_of_nonneg (by omega), Int.tmod_eq_emod_of_nonneg (by omega)]
  omega

theorem valid_iff_sum {r : BuyMsg} (h : IsInt32 (r.mask 0 + r.mask 1 + r.mask 2)) :
    r.Valid ↔ (∀ j, 0 ≤ r.mask j) ∧ r.mask 0 + r.mask 1 + r.mask 2 ≤ 3 := by
  have hsum : int32 (int32 (r.mask 0 + r.mask 1) + r.mask 2) = r.mask 0 + r.mask 1 + r.mask 2 := by
    have he : int32 (int32 (r.mask 0 + r.mask 1) + r.mask 2) = int32 (r.mask 0 + r.mask 1 + r.mask 2) := by
      simp [int32]
    rw [he, int32_of_isInt32 h]
  rw [BuyMsg.Valid, hsum]
  simp only [Fin.forall_fin_succ, Fin.succ_zero_eq_one, Fin.succ_one_eq_two, IsEmpty.forall_iff, and_true]
  omega

theorem scanBuy_buyText (u : Scratch) {type : Text} {c : ℕ} {X : Fin 3 → Text} {m : Fin 3 → ℤ}
    (ht : IsWord type) (hc : c ≤ 9) (hX : ∀ j, Numeral (m j) (X j)) (hm : ∀ j, IsInt32 (m j)) :
    scanBuy u (buyText type (decimal c) X) = ⟨type, c, m⟩ := by
  have hb : Blanks [32] := blanks_blank
  have hi : IsInt32 c := by simp only [IsInt32]; omega
  have hdrop : (buyText type (decimal c) X).drop 4 =
      type ++ 32 :: (decimal c ++ 32 :: (X 0 ++ 32 :: (X 1 ++ 32 :: X 2))) := rfl
  have h0 := @getWord_word [] type (32 :: (decimal c ++ 32 :: (X 0 ++ 32 :: (X 1 ++ 32 :: X 2))))
    (by simp) ht (stops_blank _) []
  have h1 := getInt_numeral hb (decimal_numeral c) hi (stops_blank' (X 0 ++ 32 :: (X 1 ++ 32 :: X 2)))
    u.city_idx
  have h2 := getInt_numeral hb (hX 0) (hm 0) (stops_blank' (X 1 ++ 32 :: X 2)) (u.mask 0)
  have h3 := getInt_numeral hb (hX 1) (hm 1) (stops_blank' (X 2)) (u.mask 1)
  have h4 := getInt_numeral hb (hX 2) (hm 2) (stops_nil _) (u.mask 2)
  simp only [List.nil_append, List.singleton_append, List.append_nil] at h0 h1 h2 h3 h4
  simp only [scanBuy, hdrop, h0, h1, h2, h3, h4]
  congr 1
  funext j
  fin_cases j <;> rfl

structure Ready (K : ℕ → Prop) (s : Server) : Prop where
  day : 1 ≤ s.globals.day ∧ s.globals.day ≤ 7
  alcohol : IsInt32 s.globals.alcohol
  digit : ∀ k, (s.conns k).iflogin = true → 1 ≤ digitAt (s.conns k).ID 9
  size : ∀ i < s.globals.num, (s.globals.row i 0).type_num ≤ 100
  fd : ∀ j k, K j → K k → (s.conns j).fd = (s.conns k).fd → j = k

section Steps

variable {K : ℕ → Prop} {s : Server} {t : Checker} {k : ℕ}

theorem Tracks.session (hR : Tracks K s t) (hS : Ready K s) (hk : K k) (c : Conn)
    (hfd : c.fd = (s.conns k).fd) (id : Text) (hid : c.iflogin = true → id = List.ofFn c.ID) :
    let conns := Function.update s.conns k c
    (∀ j, K j → Function.update t.log_static (s.conns k).fd c.iflogin (conns j).fd = (conns j).iflogin) ∧
      ∀ j, K j → (conns j).iflogin = true →
        Function.update t.my_id (s.conns k).fd id (conns j).fd = List.ofFn (conns j).ID := by
  intro conns
  have hne (j : ℕ) (hj : K j) (hjk : j ≠ k) : (s.conns j).fd ≠ (s.conns k).fd :=
    fun h => hjk (hS.fd j k hj hk h)
  constructor
  · intro j hj
    by_cases hjk : j = k
    · subst hjk
      simp [conns, hfd]
    · simp only [conns, Function.update_of_ne hjk, Function.update_of_ne (hne j hj hjk)]
      exact hR.login j hj
  · intro j hj
    by_cases hjk : j = k
    · subst hjk
      simpa [conns, hfd] using hid
    · simp only [conns, Function.update_of_ne hjk, Function.update_of_ne (hne j hj hjk)]
      exact hR.id j hj

theorem Tracks.idle (hR : Tracks K s t) (text : Text) (l : List Log_file) :
    Tracks K ⟨s.globals.record text, Function.update s.conns k (s.conns k)⟩ { t with log_files := l } := by
  rw [Function.update_eq_self]
  exact ⟨⟨hR.day, hR.alcohol, hR.stock, hR.recorded, hR.login⟩, hR.ori_alcohol, hR.id⟩

theorem Tracks.loggedIn (hR : Tracks K s t) (hS : Ready K s) (hk : K k) (d : ID) (text : Text)
    (l : List Log_file) :
    Tracks K ⟨s.globals.record text, Function.update s.conns k { s.conns k with iflogin := true, ID := d }⟩
      { t with
        my_id := Function.update t.my_id (s.conns k).fd (List.ofFn d)
        log_static := Function.update t.log_static (s.conns k).fd true
        log_files := l } := by
  obtain ⟨hlogin, hid⟩ := hR.session hS hk { s.conns k with iflogin := true, ID := d } rfl _ fun _ => rfl
  exact ⟨⟨hR.day, hR.alcohol, hR.stock, hR.recorded, hlogin⟩, hR.ori_alcohol, hid⟩

theorem Tracks.loggedOut (hR : Tracks K s t) (hS : Ready K s) (hk : K k)
    (hl : (s.conns k).iflogin = true) (hroom : s.globals.buied_num < BUY_ID_NUM) (text : Text)
    (l : List Log_file) :
    Tracks K ⟨(s.globals.addBuied (s.conns k).ID).record text,
        Function.update s.conns k { s.conns k with iflogin := false }⟩
      { t with
        log_static := Function.update t.log_static (s.conns k).fd false
        mydata := { t.mydata with buy_list := t.mydata.buy_list.insert (t.my_id (s.conns k).fd) true }
        my_id := Function.update t.my_id (s.conns k).fd []
        log_files := l } := by
  obtain ⟨hlogin, hid⟩ := hR.session hS hk { s.conns k with iflogin := false } rfl [] (by simp)
  refine ⟨⟨hR.day, hR.alcohol, hR.stock, ?_, hlogin⟩, hR.ori_alcohol, hid⟩
  intro beyond w
  simp only [record_recorded, addBuied_recorded, hroom, ↓reduceIte, Std.TreeMap.mem_insert,
    Std.LawfulEqCmp.compare_eq_iff_eq, hR.recorded beyond w, hR.id k hk hl, List.mem_append,
    List.mem_singleton, or_and_right, exists_or, exists_eq_left]
  rw [or_comm, eq_comm (a := w)]

theorem Tracks.admits_iff (hR : Tracks K s t) (hS : Ready K s) (hk : K k) (u : Scratch) (beyond : ℕ → ID) :
    t.Admits u (s.conns k).fd ↔
      (s.conns k).iflogin = true ∧ check_day_of_week s.globals beyond (s.conns k).ID = true := by
  rw [Checker.Admits, hR.login k hk]
  by_cases hl : (s.conns k).iflogin = true
  · have hd := hS.digit k hl
    have hmem : List.ofFn (s.conns k).ID ∈ t.mydata.buy_list ↔
        (s.conns k).ID ∈ s.globals.recorded beyond := by
      rw [hR.recorded beyond]
      constructor
      · rintro ⟨d, hd, he⟩
        rwa [List.ofFn_injective he]
      · exact fun h => ⟨_, h, rfl⟩
    rw [hR.id k hk hl, hR.day, lastDigit_ofFn, dayOpen_iff hS.day.1 hd, hmem, check_day_of_week_iff,
      day_of_week_iff hS.day hd]
  · simp [hl]

theorem Tracks.sold (hR : Tracks K s t) (hS : Ready K s) (hk : K k)
    (hl : (s.conns k).iflogin = true) (hroom : s.globals.buied_num < BUY_ID_NUM) {r : Request} {i : ℕ}
    (hf : findType s.globals r.type = some i)
    (hc : 1 ≤ r.city_num ∧ r.city_num ≤ (s.globals.row i 0).type_num) {st : Store} {ptr : City}
    (hst : t.mydata.stores_map[r.type]? = some st)
    (hptr : ptr.mask = (s.globals.row i (r.city_num - 1)).count) (text : Text) (l : List Log_file) :
    Tracks K ⟨(purchase s.globals i r (s.conns k).ID).record text,
        Function.update s.conns k { s.conns k with iflogin := false }⟩
      { t.sold (s.conns k).fd ⟨r.type, r.city_num, r.mask_num⟩ st ptr with log_files := l } := by
  obtain ⟨hlogin, hid⟩ := hR.session hS hk { s.conns k with iflogin := false } rfl
    (t.my_id (s.conns k).fd) (by simp)
  rw [Function.update_eq_self] at hid
  have hday := hS.day
  have hnext : int32 (s.globals.day + 1) = s.globals.day + 1 := by
    apply int32_of_isInt32
    simp only [IsInt32]
    omega
  have hend : s.globals.day + 1 > 7 ↔ s.globals.day + 1 = 8 := by omega
  refine ⟨⟨?_, ?_, ?_, ?_, hlogin⟩, ?_, hid⟩
  · simp only [Checker.sold, sell_day, record_day, purchase_day, hR.day, hnext, hend]
  · simp only [Checker.sold, sell_alcohol, record_alcohol, purchase_alcohol, hR.alcohol, hR.ori_alcohol]
  · intro type city
    have hmask := sell_mask (r := ⟨r.type, r.city_num, r.mask_num⟩) hst (t.my_id (s.conns k).fd) ptr
      type city
    rw [hR.stock, hptr] at hmask
    exact hmask.trans (shelf_purchase hS.size hf hc (s.conns k).ID type city).symm
  · intro beyond w
    simp only [Checker.sold, sell_buy_list, record_recorded, purchase_recorded, hR.day, hnext, hend, hroom,
      ↓reduceIte]
    split_ifs with h8
    · simp
    · simp only [Std.TreeMap.mem_insert, Std.LawfulEqCmp.compare_eq_iff_eq, hR.recorded beyond w,
        hR.id k hk hl, List.mem_append, List.mem_singleton, or_and_right, exists_or, exists_eq_left]
      rw [or_comm, eq_comm (a := w)]
  · simp only [Checker.sold, sell_ori_alcohol, record_capacity, purchase_capacity, hR.ori_alcohol]

end Steps

theorem entryOf_moment (s : Server) (e : Event) : entryOf (server.moment s e) =
    ⟨s.globals.result_index, s.globals.day, (s.conns e.conn).fd,
      (mask_server e.locals e.beyond s.globals (s.conns e.conn) e.text).command,
      (mask_server e.locals e.beyond s.globals (s.conns e.conn) e.text).result.dropLast⟩ := rfl

def Keeps (K : ℕ → Prop) (us : ℕ → Scratch) (s : Server) (t : Checker) (e : Event) : Prop :=
  let c := (check_2 us).step t (entryOf (server.moment s e))
  Tracks K (server.step s e).1 c.1 ∧ (c.2 = none ∨ (entryOf (server.moment s e)).command = lit "show")

section Entries

variable {K : ℕ → Prop} {us : ℕ → Scratch} {s : Server} {t : Checker} {e : Event}

theorem keeps_statics (hR : Tracks K s t) (hS : Ready K s) (htext : e.text = lit "statics") :
    Keeps K us s t e := by
  have hout : mask_server e.locals e.beyond s.globals (s.conns e.conn) e.text =
      server_statics s.globals (s.conns e.conn) := by
    rw [htext]
    rfl
  have hentry (u : Scratch) (l : Log_file) (h : l.command = lit "statics") :
      check_entry u t l = (t, check_statics t l) := by
    rw [check_entry, h]
    rfl
  have hatoi : atoi (decimal s.globals.alcohol) = t.mydata.alcohol := by
    rw [atoi_decimal hS.alcohol, hR.alcohol]
  unfold Keeps
  rw [entryOf_moment, server_step, hout]
  simp only [check_2, server_statics, hentry]
  refine ⟨hR.idle _ _, Or.inl ?_⟩
  simp [check_statics, hatoi]

theorem keeps_show (hR : Tracks K s t) (htext : e.text = lit "show") : Keeps K us s t e := by
  have hout : mask_server e.locals e.beyond s.globals (s.conns e.conn) e.text =
      server_show s.globals (s.conns e.conn) := by
    rw [htext]
    rfl
  have hentry (u : Scratch) (l : Log_file) (h : l.command = lit "show") :
      check_entry u t l = (t, check_show t l) := by
    rw [check_entry, h]
    rfl
  unfold Keeps
  rw [entryOf_moment, server_step, hout]
  simp only [check_2, server_show, hentry]
  exact ⟨hR.idle _ _, Or.inr trivial⟩

theorem keeps_unknown (hR : Tracks K s t) (hkind : kind e.text = .invalid) : Keeps K us s t e := by
  have hout : mask_server e.locals e.beyond s.globals (s.conns e.conn) e.text =
      server_invalid s.globals (s.conns e.conn) := by
    rw [mask_server_eq, hkind]
  have hentry (u : Scratch) (l : Log_file) (h : l.command = lit "exit") :
      check_entry u t l = (t, compare_results l (lit "Input format not valid.")) := by
    rw [check_entry, h]
    rfl
  unfold Keeps
  rw [entryOf_moment, server_step, hout]
  simp only [check_2, server_invalid, hentry]
  exact ⟨hR.idle _ _, Or.inl rfl⟩

theorem keeps_logout (hR : Tracks K s t) (hS : Ready K s) (hk : K e.conn) (hfit : Fits s e)
    (htext : e.text = lit "logout") : Keeps K us s t e := by
  have hout : mask_server e.locals e.beyond s.globals (s.conns e.conn) e.text =
      server_logout s.globals (s.conns e.conn) := by
    rw [htext]
    rfl
  have hentry (u : Scratch) (l : Log_file) (h : l.command = lit "logout") :
      check_entry u t l = check_logout t l := by
    rw [check_entry, h]
    rfl
  have hkind : kind e.text = .logout := by
    rw [htext]
    rfl
  unfold Keeps
  rw [entryOf_moment, server_step, hout]
  by_cases hl : (s.conns e.conn).iflogin = true
  · have hroom : s.globals.buied_num < BUY_ID_NUM := by
      apply (fits_iff s e).mp hfit
      simp [Records, Acts, hkind, hl]
    simp only [check_2, server_logout, hl, Bool.true_eq_false, ↓reduceIte]
    rw [hentry _ _ rfl]
    simp only [check_logout, hR.login _ hk, hl, Bool.true_eq_false, ↓reduceIte]
    exact ⟨hR.loggedOut hS hk hl hroom _ _, Or.inl rfl⟩
  · simp only [check_2, server_logout, hl, ↓reduceIte]
    rw [hentry _ _ rfl]
    simp only [check_logout, hR.login _ hk, hl, ↓reduceIte]
    exact ⟨hR.idle _ _, Or.inl rfl⟩

theorem keeps_login (hR : Tracks K s t) (hS : Ready K s) (hk : K e.conn) {x : Byte} {ds : Text}
    (hx : isupper x = true) (hlen : ds.length = 9) (hds : ∀ b ∈ ds, isdigit b = true)
    (htext : e.text = lit "login " ++ x :: ds) : Keeps K us s t e := by
  have hout : mask_server e.locals e.beyond s.globals (s.conns e.conn) e.text =
      server_login e.locals s.globals (s.conns e.conn) e.text := by
    rw [htext]
    rfl
  have hentry (u : Scratch) (l : Log_file) (h : l.command = e.text) :
      check_entry u t l = check_login u t l := by
    rw [check_entry, h, htext]
    rfl
  have hdrop : e.text.drop 6 = x :: ds := by
    rw [htext]
    rfl
  have hid : List.ofFn (scanID e.locals e.text) = x :: ds := by
    rw [htext]
    exact scanID_login hx hlen hds e.locals
  have hjudge (u : Scratch) :
      judge_correction u (x :: ds) = check_ID e.locals.y (scanID e.locals e.text) := by
    rw [← hid]
    rw [List.ofFn_succ, List.cons.injEq] at hid
    obtain ⟨h0, hrest⟩ := hid
    apply judge_correction_eq
    · rwa [h0]
    · intro j
      exact hds _ (hrest ▸ List.mem_ofFn.mpr ⟨j, rfl⟩)
  unfold Keeps
  rw [entryOf_moment, server_step, hout]
  by_cases hl : (s.conns e.conn).iflogin = true
  · simp only [check_2, server_login, hl, Bool.true_eq_false, ↓reduceIte]
    rw [hentry _ _ rfl]
    simp only [check_login, hR.login _ hk, hl, Bool.true_eq_false, and_false, ↓reduceIte]
    exact ⟨hR.idle _ _, Or.inl rfl⟩
  · by_cases hc : check_ID e.locals.y (scanID e.locals e.text) = true
    · simp only [check_2, server_login, hl, hc, ↓reduceIte]
      rw [hentry _ _ rfl]
      simp only [check_login, hR.login _ hk, hl, hdrop, hjudge, hc, and_self, ↓reduceIte]
      rw [← hid]
      exact ⟨hR.loggedIn hS hk _ _ _, Or.inl rfl⟩
    · simp only [check_2, server_login, hl, hc, Bool.false_eq_true, ↓reduceIte]
      rw [hentry _ _ rfl]
      simp only [check_login, hR.login _ hk, hl, hdrop, hjudge, hc, Bool.false_eq_true, false_and, ↓reduceIte]
      exact ⟨hR.idle _ _, Or.inl rfl⟩

theorem sell_iff_shelf {g : Globals} {r : Request} (hname : startsWith (lit "XXX") r.type = true →
    findType g r.type = none) (hc : 1 ≤ r.city_num) : (∃ i, verdict g r = .sell i) ↔
      r.Valid ∧ ∃ q, shelf g r.type r.city_num = some q ∧ ∀ j, r.mask_num j ≤ q j := by
  constructor
  · rintro ⟨i, hi⟩
    obtain ⟨-, hv, hf, hn, hst⟩ := verdict_eq_sell.mp hi
    exact ⟨hv, _, by simp [shelf, hf, hc, hn], hst⟩
  · rintro ⟨hv, q, hq, hle⟩
    obtain ⟨i, hf, hrow⟩ := Option.bind_eq_some_iff.mp hq
    split_ifs at hrow with hn
    obtain rfl := Option.some.inj hrow
    refine ⟨i, verdict_eq_sell.mpr ⟨?_, hv, hf, hn.2, hle⟩⟩
    by_contra hx
    rw [hname (by simpa using hx)] at hf
    cases hf

theorem compare_results_self (index day connfd : ℤ) (command answer : Text) :
    compare_results ⟨index, day, connfd, command, answer⟩ answer = none := if_pos rfl

theorem purchaseInfo_dropLast : purchaseInfo.dropLast = bought := by decide

theorem buyMsg_valid_iff {r : Request} (h : IsInt32 (r.mask_num 0 + r.mask_num 1 + r.mask_num 2)) :
    BuyMsg.Valid ⟨r.type, r.city_num, r.mask_num⟩ ↔ r.Valid := by
  rw [valid_iff_sum h, Request.Valid, Fin.sum_univ_three]

theorem keeps_request (hR : Tracks K s t) (hS : Ready K s) (hk : K e.conn) (hfit : Fits s e)
    (hbuy : ∃ rest, e.text = lit "buy " ++ rest) {r : Request}
    (hscan : scanRequest e.locals e.text = r)
    (hscan' : ∀ u, scanBuy u e.text = ⟨r.type, r.city_num, r.mask_num⟩)
    (hname : startsWith (lit "XXX") r.type = true ↔ findType s.globals r.type = none)
    (hc : 1 ≤ r.city_num) (hsum : IsInt32 (r.mask_num 0 + r.mask_num 1 + r.mask_num 2)) :
    Keeps K us s t e := by
  obtain ⟨rest, htext⟩ := hbuy
  have hout : mask_server e.locals e.beyond s.globals (s.conns e.conn) e.text =
      server_buy e.locals e.beyond s.globals (s.conns e.conn) e.text := by
    rw [htext]
    rfl
  have hentry (u : Scratch) (l : Log_file) (h : l.command = e.text) :
      check_entry u t l = check_buy u t l := by
    rw [check_entry, h, htext]
    rfl
  have hadmits (u : Scratch) := hR.admits_iff hS hk u e.beyond
  have hsell := sell_iff_shelf hname.mp hc
  have hkind : kind e.text = .buy := by
    rw [htext]
    rfl
  unfold Keeps
  rw [entryOf_moment, server_step, hout, server_buy_eq, hscan]
  by_cases hopen : (s.conns e.conn).iflogin = true ∧
      check_day_of_week s.globals e.beyond (s.conns e.conn).ID = true
  · rw [if_pos hopen]
    cases hv : verdict s.globals r with
    | unknown =>
      obtain ⟨hx, -, hf⟩ := verdict_eq_unknown.mp hv
      rw [hname.mpr hf] at hx
      cases hx
    | refuse =>
      simp only [check_2, refused]
      rw [hentry _ _ rfl, check_buy_fails]
      · exact ⟨hR.idle _ _, Or.inl rfl⟩
      · simp only [hscan']
        intro _ hval q hq hle
        rw [hR.stock] at hq
        obtain ⟨i, hi⟩ := hsell.mpr ⟨(buyMsg_valid_iff hsum).mp hval, q, hq, hle⟩
        rw [hv] at hi
        cases hi
    | sell i =>
      have hroom : s.globals.buied_num < BUY_ID_NUM := by
        apply (fits_iff s e).mp hfit
        simp only [Records, Acts, hkind, hscan]
        exact ⟨by simp, hopen.1, hopen.2, i, hv⟩
      obtain ⟨-, hval, hf, hn, hle⟩ := verdict_eq_sell.mp hv
      have hq : t.mydata.mask r.type r.city_num = some (s.globals.row i (r.city_num - 1)).count := by
        rw [hR.stock]
        simp [shelf, hf, hc, hn]
      simp only [check_2, Hw3.sold, purchaseInfo_dropLast]
      rw [hentry _ _ rfl]
      obtain ⟨st, ptr, hst, -, hptr, heq⟩ := check_buy_sells
        (e := ⟨s.globals.result_index, s.globals.day, (s.conns e.conn).fd, e.text, bought⟩)
        ((hadmits (us t.log_files.length)).mpr hopen)
        (by rw [hscan']; exact (buyMsg_valid_iff hsum).mpr hval) (by rw [hscan']; exact hq)
        (by rw [hscan']; exact hle)
      simp only [hscan'] at hst heq
      rw [heq]
      rw [compare_results_self]
      exact ⟨hR.sold hS hk hopen.1 hroom hf ⟨hc, hn⟩ hst hptr _ _, Or.inl rfl⟩
  · rw [if_neg hopen]
    simp only [check_2, refused]
    rw [hentry _ _ rfl, check_buy_fails fun h => absurd ((hadmits _).mp h) hopen]
    exact ⟨hR.idle _ _, Or.inl rfl⟩

theorem keeps_buy (hR : Tracks K s t) (hS : Ready K s) (hk : K e.conn) (hfit : Fits s e)
    {type : Text} {c : ℕ} {X : Fin 3 → Text} {m : Fin 3 → ℤ} (hword : IsWord type)
    (hname : startsWith (lit "XXX") type = true ↔ findType s.globals type = none)
    (hc : 1 ≤ c ∧ c ≤ 9) (hX : ∀ j, Numeral (m j) (X j)) (hm : ∀ j, IsInt32 (m j))
    (hsum : IsInt32 (m 0 + m 1 + m 2)) (htext : e.text = buyText type (decimal c) X) :
    Keeps K us s t e := by
  have hnum : Request.city_num ⟨type, (decimal c).head (decimal_ne_nil c), m⟩ = c := city_num_digit hc
  have hscan := scanRequest_buyText e.locals hword (decimal_isWord c) hX hm (List.forall_mem_nil _)
  rw [List.append_nil, ← htext, spillString_of_lt (decimal_digit_length hc.2)] at hscan
  refine keeps_request hR hS hk hfit ⟨_, htext⟩ hscan ?_ hname ?_ hsum
  · intro u
    rw [htext, scanBuy_buyText u hword hc.2 hX hm, hnum]
  · rw [hnum]
    omega

end Entries

theorem alcohol_isInt32 (b : Boot) (es : List Event) : IsInt32 (b.after es).globals.alcohol := by
  have hinv : IsInt32 (b.after es).globals.alcohol ∧ IsInt32 (b.after es).globals.alcohol_capacity := by
    refine server.run_invariant
      (P := fun s => IsInt32 s.globals.alcohol ∧ IsInt32 s.globals.alcohol_capacity) ?_
      ⟨b.capacity_int, b.capacity_int⟩ es
    intro s e h
    rw [(same_step s e).capacity]
    refine ⟨?_, h.2⟩
    have hdid := mask_server_did e.locals e.beyond s.globals (s.conns e.conn) e.text
    rw [server_step]
    generalize mask_server e.locals e.beyond s.globals (s.conns e.conn) e.text = o at hdid ⊢
    cases hdid with
    | nothing t rejects globals conn quiet => simpa [globals] using h.1
    | login t command out valid globals conn answer => simpa [globals] using h.1
    | logout t command login globals conn answer => simpa [globals] using h.1
    | buy i t command login day sells globals conn answer =>
      simp only [globals, record_alcohol, purchase_alcohol]
      split_ifs
      · exact h.2
      · exact int32_isInt32 _
  exact hinv.1

def Sends (es : List Event) (k : ℕ) : Prop := ∃ e ∈ es, e.conn = k

def Boot.replayed (b : Boot) (us : ℕ → Scratch) (area_start area_end : List ℕ) (es : List Event) : Checker :=
  (check_2 us).run (b.checker area_start area_end) ((b.history es).map entryOf)

/-- After every entry both sides are in the same state, and only entries of `show` are reported. -/
structure Boot.Replays (b : Boot) (us : ℕ → Scratch) (area_start area_end : List ℕ) (es : List Event) :
    Prop where
  state : ∀ fs, fs <+: es → SameState (Sends es) (b.after fs) (b.replayed us area_start area_end fs)
  reports : ∀ q ∈ (check_2 us).trace (b.checker area_start area_end) ((b.history es).map entryOf),
    q.event.command ≠ lit "show" → q.out = none

theorem ready_after {b : Boot} {es : List Event} (h : b.Script es) {fs : List Event} (hfit : b.RunFits fs) :
    Ready (Sends es) (b.after fs) := by
  refine ⟨?_, alcohol_isInt32 b fs, ?_, ?_, ?_⟩
  · rw [day_after h.day hfit]
    omega
  · intro k hk
    obtain ⟨y, hy⟩ := login_checked b fs k hk
    exact (check_ID_digit hy).1
  · intro i hi
    rw [num_after] at hi
    rw [row_after_type_num]
    exact b.type_num_le i hi
  · rintro j k ⟨e, he, rfl⟩ ⟨f, hf, rfl⟩ hjk
    rw [(same_after b fs).fd, (same_after b fs).fd] at hjk
    exact h.fd_inj e he f hf hjk

theorem xxx_unknown {b : Boot} {es : List Event} (h : b.Script es) (fs : List Event) :
    findType (b.after fs).globals (lit "XXX") = none := by
  rw [findType_eq_none]
  intro i hi he
  rw [num_after] at hi
  rw [row_after_type] at he
  have hname := h.names i hi
  rw [← he] at hname
  exact absurd hname (by decide)

theorem keeps_scripted {b : Boot} {es fs : List Event} (h : b.Script es) {e : Event} (he : e ∈ es)
    (hfs : b.RunFits fs) (hfit : Fits (b.after fs) e) {t : Checker} (hR : Tracks (Sends es) (b.after fs) t)
    (us : ℕ → Scratch) : Keeps (Sends es) us (b.after fs) t e := by
  have hS := ready_after h hfs
  have hk : Sends es e.conn := ⟨e, he, rfl⟩
  have htext := h.text e he
  generalize hw : e.text = w at htext
  cases htext with
  | login x ds letter length digits => exact keeps_login hR hS hk letter length digits hw
  | logout => exact keeps_logout hR hS hk hfit hw
  | statics => exact keeps_statics hR hS hw
  | display => exact keeps_show hR hw
  | other w unknown => exact keeps_unknown hR (by rw [hw]; exact unknown)
  | buy type c X m name digit numerals int sum =>
    rcases name with rfl | ⟨i, hi, rfl⟩
    · refine keeps_buy hR hS hk hfit (by simp [IsWord, lit, isspace]) ?_ digit numerals int sum hw
      exact iff_of_true (by decide) (xxx_unknown h fs)
    · refine keeps_buy hR hS hk hfit (b.type_name i hi).1 ?_ digit numerals int sum hw
      rw [h.names i hi, findType_after h.distinct fs hi]
      simp

theorem tracks_start {b : Boot} {es : List Event} (h : b.Script es) (area_start area_end : List ℕ) :
    Tracks (Sends es) b.start (b.checker area_start area_end) := by
  refine ⟨⟨rfl, rfl, ?_, ?_, fun _ _ => rfl⟩, rfl, ?_⟩
  · exact read_file_mask h.distinct h.numbered _ rfl
  · intro beyond w
    simp [Boot.checker, Boot.start, Boot.globals, Globals.recorded]
  · intro k _ hl
    cases hl

theorem tracks_run {b : Boot} {es : List Event} (h : b.Script es) (hfit : b.RunFits es) {fs : List Event}
    (hfs : fs <+: es) (us : ℕ → Scratch) (area_start area_end : List ℕ) :
    Tracks (Sends es) (b.after fs) (b.replayed us area_start area_end fs) ∧
      ∀ q ∈ (check_2 us).trace (b.checker area_start area_end) ((b.history fs).map entryOf),
        q.event.command ≠ lit "show" → q.out = none := by
  induction fs using List.reverseRecOn with
  | nil => exact ⟨tracks_start h area_start area_end, List.forall_mem_nil _⟩
  | append_singleton fs e ih =>
    have hfs' : fs <+: es := (List.prefix_append fs [e]).trans hfs
    have he : e ∈ es := hfs.subset (by simp)
    have hq : server.moment (b.after fs) e ∈ b.history (fs ++ [e]) :=
      mem_history_iff.mpr ⟨fs, e, [], by simp, rfl⟩
    obtain ⟨hR, hreports⟩ := ih hfs'
    obtain ⟨hstep, hreport⟩ := keeps_scripted h he (hfit.initial hfs') (hfit.initial hfs _ hq) hR us
    have hentries : (b.history (fs ++ [e])).map entryOf =
        (b.history fs).map entryOf ++ [entryOf (server.moment (b.after fs) e)] := by
      rw [Boot.history, Machine.trace_snoc, List.map_append]
      rfl
    rw [Boot.replayed, hentries, Machine.run_snoc, Machine.trace_snoc, Boot.after, Machine.run_snoc]
    refine ⟨hstep, fun q hq hshow => ?_⟩
    rcases List.mem_append.mp hq with hq | hq
    · exact hreports q hq hshow
    · obtain rfl := List.mem_singleton.mp hq
      exact hreport.resolve_right hshow

theorem replays_of_room (b : Boot) (es : List Event) (h : b.Script es) (hroom : b.RecordsInRoom es)
    (us : ℕ → Scratch) (area_start area_end : List ℕ) : b.Replays us area_start area_end es := by
  have hfit := (runFits_iff b es).mpr hroom
  constructor
  · intro fs hfs
    exact (tracks_run h hfit hfs us area_start area_end).1.toSameState
  · exact (tracks_run h hfit (List.prefix_refl es) us area_start area_end).2

theorem sampleShop_script {es : List Event} (hconn : ∀ e ∈ es, e.conn = 0)
    (htext : ∀ e ∈ es, Scripted sampleShop.toInventory e.text) : sampleShop.Script es where
  distinct := sampleShop_distinct
  names := by decide
  numbered := by
    intro i hi j hj
    obtain rfl : i = 0 := by
      have hi' : i < 1 := hi
      omega
    have hj2 : j < 2 := by
      have h2 : (sampleShop.data (100 * (0 : ℕ))).type_num = 2 := by decide
      omega
    interval_cases j <;> decide
  day := by decide
  fd_lt := by
    intro e he
    rw [hconn e he]
    decide
  fd_inj := by
    intro e he f hf _
    rw [hconn e he, hconn f hf]
  text := htext

def blankScratch (_ : ℕ) : Scratch := ⟨fun _ => 0, 0, 0, fun _ => 0⟩

theorem scripted_login : Scripted sampleShop.toInventory (lit "login A123456789") :=
  .login 65 (lit "123456789") (by decide) (by decide) (by simp [lit, isdigit])

theorem replays_of_room_visit : sampleShop.Replays blankScratch [] [] visit := by
  have hbuy : Scripted sampleShop.toInventory (lit "buy S1 1 1 1 1") := by
    have h : lit "buy S1 1 1 1 1" = buyText (sampleShop.data (100 * (0 : ℕ))).type (decimal (1 : ℕ))
      (fun _ => decimal 1) := by decide
    rw [h]
    exact .buy _ 1 _ (fun _ => 1) (Or.inr ⟨0, by decide, rfl⟩) (by decide) (fun _ => decimal_numeral 1)
      (by decide) (by decide)
  refine replays_of_room sampleShop visit (sampleShop_script ?_ ?_)
    ((runFits_iff _ _).mp (withinRecord_of_length (by decide)).fits) blankScratch [] []
  · decide
  · intro e he
    rcases List.mem_cons.mp he with rfl | he
    · exact scripted_login
    · obtain rfl := List.mem_singleton.mp he
      exact hbuy

theorem exists_not_in_array (a : Fin BUY_ID_NUM → ID) : ∃ x, ∀ i, a i ≠ x := by
  by_contra h
  push Not at h
  have hcard := Fintype.card_le_of_surjective a h
  have hbyte : Fintype.card Byte = 256 := by
    rw [← FinEnum.card_eq_fintypeCard]
    rfl
  rw [Fintype.card_fun, hbyte, Fintype.card_fin, Fintype.card_fin] at hcard
  exact absurd hcard (by norm_num)

theorem replays_buied_num {b : Boot} {us : ℕ → Scratch} {area_start area_end : List ℕ} {es : List Event}
    (h : b.Replays us area_start area_end es) : (b.after es).globals.buied_num ≤ BUY_ID_NUM := by
  by_contra hn
  have hrec := (h.state es (List.prefix_refl es)).recorded
  obtain ⟨x, hx⟩ := exists_not_in_array (b.after es).globals.buied_ID
  have hbyte : Nontrivial Byte := ⟨0, 1, by decide⟩
  obtain ⟨y, hy⟩ : ∃ y : ID, y ≠ x := exists_ne x
  have hmem : x ∈ (b.after es).globals.recorded (fun _ => x) := by
    refine List.mem_map.mpr ⟨BUY_ID_NUM, List.mem_range.mpr (by omega), ?_⟩
    simp [Globals.buied]
  obtain ⟨d, hd, he⟩ := (hrec (fun _ => y) _).mp ((hrec (fun _ => x) (List.ofFn x)).mpr ⟨x, hmem, rfl⟩)
  obtain rfl := List.ofFn_injective he
  obtain ⟨i, -, hi⟩ := List.mem_map.mp hd
  unfold Globals.buied at hi
  split_ifs at hi with hlt
  · exact hx _ hi
  · exact hy hi

theorem replays_fails :
    let es := (List.replicate (BUY_ID_NUM + 1) loginLogout).flatten
    sampleShop.Script es ∧ ¬ sampleShop.Replays blankScratch [] [] es := by
  have hmem (n : ℕ) (e : Event) (he : e ∈ (List.replicate n loginLogout).flatten) :
      e = loginEvent ∨ e = logoutEvent := by
    obtain ⟨l, hl, hel⟩ := List.mem_flatten.mp he
    rw [List.eq_of_mem_replicate hl] at hel
    simpa [loginLogout] using hel
  constructor
  · apply sampleShop_script
    · intro e he
      rcases hmem _ e he with rfl | rfl <;> rfl
    · intro e he
      rcases hmem _ e he with rfl | rfl
      · exact scripted_login
      · exact .logout
  · intro h
    have hle := replays_buied_num h
    rw [(loginLogout_run sampleShop (BUY_ID_NUM + 1)).2] at hle
    omega

end EmbeddedOS.Hw3
