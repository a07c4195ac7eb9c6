import EmbeddedOS.Library.Scanning
import EmbeddedOS.Library.Runs

/-!
The variables of `hw3.cpp`. A string that `sscanf` stores past the end of a local array runs into the local
behind it, at the distances of the shipped executable, and a load of memory the program never set gives an
arbitrary value, which the state or the event supplies.
-/

namespace EmbeddedOS.Hw3

open CText

abbrev BUY_ID_NUM : ℕ := 100000

abbrev ID := Fin 10 → Byte

def ch (c : Char) : Byte := c.toNat.toUInt8

/-- An element of `data`; `type_num` and `type` are used in column 0 only. -/
structure Inv where
  line : ℤ
  a : ℤ
  b : ℤ
  c : ℤ
  type_num : ℤ
  sum : ℤ
  type : Text
  city : Text

def Inv.count (r : Inv) : Fin 3 → ℤ := ![r.a, r.b, r.c]

/-- `data` is flat: `data[i][j]` is row `100 * i + j`, and the rows outside `0..1499` are the
memory around the array, which no other variable of the model occupies. -/
structure Globals where
  num : ℕ
  data : ℤ → Inv
  day : ℤ
  alcohol : ℤ
  alcohol_capacity : ℤ
  buied_num : ℕ
  buied_ID : Fin BUY_ID_NUM → ID
  writeToResult : Text
  result_index : ℤ

namespace Globals

def row (g : Globals) (i : ℕ) (j : ℤ) : Inv := g.data (100 * i + j)

/-- `buied_ID[i]`; `beyond` is what lies after the array. -/
def buied (g : Globals) (beyond : ℕ → ID) (i : ℕ) : ID :=
  if h : i < BUY_ID_NUM then g.buied_ID ⟨i, h⟩ else beyond i

def recorded (g : Globals) (beyond : ℕ → ID) : List ID := (List.range g.buied_num).map (g.buied beyond)

/-- `buied_ID[buied_num] = ID; buied_num++`. A store behind the array is left out; the program does not outlive
it, which `attempt` says. -/
def addBuied (g : Globals) (id : ID) : Globals :=
  { g with
    buied_ID := fun i => if i.val = g.buied_num then id else g.buied_ID i
    buied_num := g.buied_num + 1 }

def record (g : Globals) (t : Text) : Globals :=
  { g with
    writeToResult := g.writeToResult ++ t
    result_index := int32 (g.result_index + 1) }

end Globals

/-- The locals of `mask_server` that outlive a command. -/
structure Conn where
  fd : ℤ
  iflogin : Bool
  ID : ID

/-- The locals of the handlers that are not initialised: `tmp_ID` of `server_login`, `y` of
`check_ID`, and `type`, `city`, `mask_num` of `server_buy`. -/
structure Locals where
  tmp_ID : ID
  y : ℤ
  type : Text
  city : Byte
  mask_num : Fin 3 → ℤ

structure Outcome where
  globals : Globals
  conn : Conn
  writes : List Text
  command : Text
  result : Text

structure Server where
  globals : Globals
  conns : ℕ → Conn

structure Event where
  conn : ℕ
  text : Text
  locals : Locals
  beyond : ℕ → ID

def IsName (size : ℕ) (w : Text) : Prop := IsWord w ∧ 0 ∉ w ∧ w.length < size

instance (size : ℕ) (w : Text) : Decidable (IsName size w) := inferInstanceAs (Decidable (_ ∧ _))

/-- What the loader leaves in `num` and `data` for an inventory that fits the arrays. -/
structure Inventory where
  num : ℕ
  data : ℤ → Inv
  num_le : num ≤ 15
  type_num_le : ∀ i < num, (data (100 * i)).type_num ≤ 100
  type_name : ∀ i < num, IsName 20 (data (100 * i)).type
  city_name : ∀ i < num, ∀ j : ℕ, j < (data (100 * i)).type_num → IsName 50 (data (100 * i + j)).city

/-- The server before its first command: the inventory, the arguments of `main`, and the
descriptors of the connections with their uninitialised `ID`. -/
structure Boot extends Inventory where
  day : ℤ
  capacity : ℤ
  fd : ℕ → ℤ
  ID : ℕ → ID
  day_int : IsInt32 day
  capacity_int : IsInt32 capacity
  fd_int : ∀ k, 0 ≤ fd k ∧ IsInt32 (fd k)

def Boot.globals (b : Boot) : Globals where
  num := b.num
  data := b.data
  day := b.day
  alcohol := b.capacity
  alcohol_capacity := b.capacity
  buied_num := 0
  buied_ID := fun _ _ => 32
  writeToResult := []
  result_index := 0

def Boot.start (b : Boot) : Server := ⟨b.globals, fun k => ⟨b.fd k, false, b.ID k⟩⟩

def Inventory.DistinctTypes (v : Inventory) : Prop :=
  ∀ i < v.num, ∀ j < v.num, (v.data (100 * i)).type = (v.data (100 * j)).type → i = j

section Fields

variable (g : Globals) (id : ID) (t : Text)

@[simp] theorem record_num : (g.record t).num = g.num := rfl
@[simp] theorem record_data : (g.record t).data = g.data := rfl
@[simp] theorem record_day : (g.record t).day = g.day := rfl
@[simp] theorem record_alcohol : (g.record t).alcohol = g.alcohol := rfl
@[simp] theorem record_capacity : (g.record t).alcohol_capacity = g.alcohol_capacity := rfl
@[simp] theorem record_buied_num : (g.record t).buied_num = g.buied_num := rfl
@[simp] theorem record_buied_ID : (g.record t).buied_ID = g.buied_ID := rfl
@[simp] theorem record_log : (g.record t).writeToResult = g.writeToResult ++ t := rfl
@[simp] theorem record_index : (g.record t).result_index = int32 (g.result_index + 1) := rfl
@[simp] theorem record_recorded (beyond : ℕ → ID) : (g.record t).recorded beyond = g.recorded beyond := rfl

@[simp] theorem addBuied_num : (g.addBuied id).num = g.num := rfl
@[simp] theorem addBuied_data : (g.addBuied id).data = g.data := rfl
@[simp] theorem addBuied_day : (g.addBuied id).day = g.day := rfl
@[simp] theorem addBuied_alcohol : (g.addBuied id).alcohol = g.alcohol := rfl
@[simp] theorem addBuied_capacity : (g.addBuied id).alcohol_capacity = g.alcohol_capacity := rfl
@[simp] theorem addBuied_buied_num : (g.addBuied id).buied_num = g.buied_num + 1 := rfl
@[simp] theorem addBuied_log : (g.addBuied id).writeToResult = g.writeToResult := rfl
@[simp] theorem addBuied_index : (g.addBuied id).result_index = g.result_index := rfl

theorem addBuied_recorded (beyond : ℕ → ID) : (g.addBuied id).recorded beyond =
    g.recorded beyond ++ [if g.buied_num < BUY_ID_NUM then id else beyond g.buied_num] := by
  simp only [Globals.recorded, addBuied_buied_num, List.range_succ, List.map_append, List.map_cons,
    List.map_nil]
  congr 1
  · apply List.map_congr_left
    intro i hi
    have hne : i ≠ g.buied_num := by have := List.mem_range.mp hi; omega
    simp [Globals.buied, Globals.addBuied, hne]
  · by_cases h : g.buied_num < BUY_ID_NUM <;> simp [Globals.buied, Globals.addBuied, h]

end Fields

end EmbeddedOS.Hw3
