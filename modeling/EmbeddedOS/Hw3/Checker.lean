import EmbeddedOS.Library.Tables
import EmbeddedOS.Hw3.LogDecode

/-!
`check_2` of `checker.cpp`, which replays the log of the server on maps of its own, with what it
reads from the inventory.
-/

namespace EmbeddedOS.Hw3

open CText Runs

structure City where
  id : ℤ
  name : Text
  mask : Fin 3 → ℤ

structure Store where
  name : Text
  cities_map : Std.TreeMap ℤ City

structure DB where
  day : ℤ
  alcohol : ℤ
  ori_alcohol : ℤ
  stores_map : Std.TreeMap Text Store
  buy_list : Std.TreeMap Text Bool

/-- The variables of `checker.cpp`; `log_files` is what the loop of `check_2` has passed. -/
structure Checker where
  log_static : ℤ → Bool
  my_id : ℤ → Text
  mydata : DB
  area_start : List ℕ
  area_end : List ℕ
  log_files : List Log_file

/-- What is not initialised: `num` of `judge_correction`, `city_idx` and `mask` of `check_2`, and
the byte at `id[9]` when the string ends before it. -/
structure Scratch where
  num : ℕ → ℤ
  past : Byte
  city_idx : ℤ
  mask : Fin 3 → ℤ

structure Report where
  index : ℤ
  answer : Text
  wrong : Text

def readCities (v : Inventory) (i : ℕ) : Std.TreeMap ℤ City :=
  Tables.fill (fun j => (v.data (100 * i + j)).line)
    (fun j => ⟨(v.data (100 * i + j)).line, (v.data (100 * i + j)).city, (v.data (100 * i + j)).count⟩)
    (v.data (100 * i)).type_num.toNat

def read_file (v : Inventory) : Std.TreeMap Text Store :=
  Tables.fill (fun i => (v.data (100 * i)).type)
    (fun i => ⟨(v.data (100 * i)).type, readCities v i⟩) v.num

def letterNum (b : Byte) : ℤ :=
  if b ∈ lit "ABCDEFGHW" then chr b - 55
  else if b = ch 'I' then chr b - 39
  else if b ∈ lit "JKLMN" then chr b - 56
  else if b = ch 'O' then chr b - 44
  else if b ∈ lit "PQRSTUVZ" then chr b - 57
  else if b ∈ lit "XY" then chr b - 58
  else chr b - 55

def idNum (u : Scratch) (msg : Text) (i : ℕ) : ℤ :=
  match msg[i]? with
  | none => u.num i
  | some b => atoi [b]

def judge_correction (u : Scratch) (msg : Text) : Bool :=
  if msg.length > 10 then false
  else
    let num := idNum u msg
    let num0 := letterNum (msg.headD 0)
    let Y := num0.tdiv 10 + num0.tmod 10 * 9
    let sum := (List.range' 1 8).foldl (fun sum i => sum + num i * (9 - i)) Y
    let Z := 10 - sum.tmod 10
    Z == num 9

def compare_results (e : Log_file) (answer : Text) : Option Report :=
  if e.results = answer then none else some ⟨e.index, answer, e.results⟩

def check_login (u : Scratch) (t : Checker) (e : Log_file) : Checker × Option Report :=
  let msg := e.command.drop 6
  if judge_correction u msg = true ∧ t.log_static e.connfd = false then
    ({ t with
        my_id := Function.update t.my_id e.connfd msg
        log_static := Function.update t.log_static e.connfd true },
      compare_results e (lit "Login successful."))
  else (t, compare_results e (lit "Login failed."))

def check_logout (t : Checker) (e : Log_file) : Checker × Option Report :=
  if t.log_static e.connfd = false then (t, compare_results e (lit "Logout failed."))
  else
    ({ t with
        log_static := Function.update t.log_static e.connfd false
        mydata := { t.mydata with buy_list := t.mydata.buy_list.insert (t.my_id e.connfd) true }
        my_id := Function.update t.my_id e.connfd [] },
      compare_results e (lit "Logout successful."))

structure BuyMsg where
  store : Text
  city_idx : ℤ
  mask : Fin 3 → ℤ

def scanBuy (u : Scratch) (command : Text) : BuyMsg :=
  let store := getWord (some (command.drop 4)) []
  let city_idx := getInt store.2 u.city_idx
  let mask0 := getInt city_idx.2 (u.mask 0)
  let mask1 := getInt mask0.2 (u.mask 1)
  let mask2 := getInt mask1.2 (u.mask 2)
  ⟨store.1, city_idx.1, ![mask0.1, mask1.1, mask2.1]⟩

def lastDigit (u : Scratch) (id : Text) : ℤ := chr ((id ++ [0]).getD 9 u.past) - 48

def dayOpen (day n : ℤ) : Prop :=
  day = 7 ∨ (day.tmod 2 = 1 ∧ n.tmod 2 = 1) ∨ (day.tmod 2 = 0 ∧ n.tmod 2 = 0)

instance (day n : ℤ) : Decidable (dayOpen day n) := inferInstanceAs (Decidable (_ ∨ _))

def DB.sell (d : DB) (id : Text) (r : BuyMsg) (st : Store) (ptr : City) : DB :=
  let alcohol := int32 (d.alcohol - 1)
  let city := { ptr with mask := fun j => ptr.mask j - r.mask j }
  let d := { d with
    alcohol := if alcohol < 5 then d.ori_alcohol else alcohol
    stores_map := d.stores_map.insert r.store
      { st with cities_map := st.cities_map.insert r.city_idx city }
    buy_list := d.buy_list.insert id true
    day := int32 (d.day + 1) }
  if d.day > 7 then { d with day := 1, buy_list := ∅ } else d

def lastEntry (t : Checker) (connfd : ℤ) : Option ℕ :=
  (List.range t.log_files.length).reverse.find? fun j =>
    t.log_files[j]?.map Log_file.connfd == some connfd

def bought : Text :=
  lit "Disinfecting hands with alcohol. Putting masks into envelope. Thank you for your purchase."

def check_buy (u : Scratch) (t : Checker) (e : Log_file) : Checker × Option Report :=
  let id := t.my_id e.connfd
  let r := scanBuy u e.command
  let fail := (t, compare_results e (lit "Buy failed."))
  if t.log_static e.connfd = true ∧ dayOpen t.mydata.day (lastDigit u id) ∧ id ∉ t.mydata.buy_list then
    if int32 (int32 (r.mask 0 + r.mask 1) + r.mask 2) ≤ 3 ∧ r.mask 0 ≥ 0 ∧ r.mask 1 ≥ 0 ∧ r.mask 2 ≥ 0 then
      match t.mydata.stores_map[r.store]? with
      | none => fail
      | some st =>
        match st.cities_map[r.city_idx]? with
        | none => fail
        | some ptr =>
          if ptr.mask 0 ≥ r.mask 0 ∧ ptr.mask 1 ≥ r.mask 1 ∧ ptr.mask 2 ≥ r.mask 2 then
            ({ t with
                mydata := t.mydata.sell id r st ptr
                log_static := Function.update t.log_static e.connfd false
                area_start := t.area_start ++ (lastEntry t e.connfd).toList
                area_end := t.area_end ++ [t.log_files.length] },
              compare_results e bought)
          else fail
    else fail
  else fail

def show2string (d : DB) : Text :=
  (d.stores_map.toList.flatMap fun p => p.2.name ++ 32 :: p.2.cities_map.toList.flatMap fun q =>
    decimal q.2.id ++ 32 :: (q.2.name ++ 32 :: (decimal (q.2.mask 0) ++ 32 ::
      (decimal (q.2.mask 1) ++ 32 :: (decimal (q.2.mask 2) ++ [32]))))).dropLast

def check_flag (t : Checker) (index : ℕ) : Bool :=
  (t.area_start.zip t.area_end).all fun a => !(decide (index > a.1) && decide (index < a.2))

def check_show (t : Checker) (e : Log_file) : Option Report :=
  let s := show2string t.mydata
  if e.results.take s.length ≠ s ∧ check_flag t t.log_files.length = true then
    some ⟨e.index, s, e.results⟩
  else none

def check_statics (t : Checker) (e : Log_file) : Option Report :=
  let x := atoi e.results
  if x ≠ t.mydata.alcohol ∧ check_flag t t.log_files.length = true then
    some ⟨e.index, decimal t.mydata.alcohol, decimal x⟩
  else none

def check_entry (u : Scratch) (t : Checker) (e : Log_file) : Checker × Option Report :=
  if startsWith (lit "login ") e.command then check_login u t e
  else if e.command = lit "logout" then check_logout t e
  else if startsWith (lit "buy ") e.command then check_buy u t e
  else if e.command = lit "show" then (t, check_show t e)
  else if e.command = lit "statics" then (t, check_statics t e)
  else (t, compare_results e (lit "Input format not valid."))

def check_2 (us : ℕ → Scratch) : Machine Checker Log_file (Option Report) where
  step t e :=
    let c := check_entry (us t.log_files.length) t e
    ({ c.1 with log_files := t.log_files ++ [e] }, c.2)

/-- The checker when `main` calls `check_2`; only `save_areas` keeps what `check_1` left in it. -/
def Boot.checker (b : Boot) (area_start area_end : List ℕ) : Checker where
  log_static _ := false
  my_id _ := []
  mydata := ⟨b.day, b.capacity, b.capacity, read_file b.toInventory, ∅⟩
  area_start := area_start
  area_end := area_end
  log_files := []

end EmbeddedOS.Hw3
