import EmbeddedOS.Library.Lines
import EmbeddedOS.Library.Runs

/-!
The mask machine of `hw1.c`: its globals, its functions, and the loops of `main`, `login` and
`buy` as one machine that is fed with the keys they read. What a key leaves that makes a store
outside an array, and what a load behind `check` gives, the key press supplies.
-/

namespace EmbeddedOS.Hw1

open CText Runs

abbrev ID := Fin 10 → Byte

def ch (c : Char) : Byte := c.toNat.toUInt8

structure Inv where
  line : ℤ
  a : ℤ
  b : ℤ
  c : ℤ
  city : Text

def Inv.count (r : Inv) : Fin 3 → ℤ := ![r.a, r.b, r.c]

inductive Mode where
  | main
  | login (i_login : ℕ)
  | buy (i_buy : ℕ)
  | ended
  deriving DecidableEq

/-- `data` is flat: `data[i][j]` is row `100 * i + j`, and the rows outside `0..499` and the
`in_num[i]` with `i ≥ 5` are the memory around the arrays, which a run that stays inside them
neither reads nor writes. `file` is `inventory.txt`. -/
structure Globals where
  data : ℤ → Inv
  in_num : ℕ → ℤ
  s : Text
  num : ℤ
  inOut : Bool
  ID_number : ID
  i_ID : ℕ
  day_of_week : ℤ
  allowlog : Bool
  buy_n : ℤ
  bought_n : ℤ
  login_n : ℤ
  check : Fin 10 → ID
  buyinfo : Fin 10 → Byte
  alcohol : ℤ
  file : Text
  mode : Mode

inductive Display where
  | blank
  | echo (key : Byte)
  | inventory
  | askID
  | menu
  | pressLogin
  | alreadyBought
  | askOrder
  | alcohol (n : ℤ)
  | loggedIn
  | notAllowed
  | tooMany
  | haveBought
  | purchased (supplement : Bool)
  deriving DecidableEq

/-- One key, what lies behind `check` when it is handled, and what it leaves where it stores outside
an array. -/
structure Press where
  key : Byte
  beyond : ℕ → ID
  spill : Globals → Globals × Display

namespace Globals

def row (g : Globals) (i : ℤ) (j : ℤ) : Inv := g.data (100 * i + j)

def checkAt (g : Globals) (beyond : ℕ → ID) (i : ℕ) : ID := if h : i < 10 then g.check ⟨i, h⟩ else beyond i

end Globals

/-- The globals, what is left of the file, and whether only rows and counts of the arrays were
touched and every name fitted into its `city[50]`. -/
structure Reader where
  globals : Globals
  fp : Text
  inside : Bool

namespace Reader

def line (r : Reader) : Reader :=
  match fgets 100 r.fp with
  | none => r
  | some (l, rest) => ⟨{ r.globals with s := l }, rest, r.inside⟩

def scan (r : Reader) (format : List Conversion) : List Field := sscanf format r.globals.s

end Reader

def cityFormat : List Conversion := [.int, .word none, .int, .int, .int]

def readCity (i j : ℕ) (r : Reader) : Reader :=
  let r := r.line
  let fs := r.scan cityFormat
  let old := r.globals.row i j
  let new : Inv :=
    { line := (intAt fs 0).getD old.line
      city := (wordAt fs 1).getD old.city
      a := (intAt fs 2).getD old.a
      b := (intAt fs 3).getD old.b
      c := (intAt fs 4).getD old.c }
  ⟨{ r.globals with data := Function.update r.globals.data (100 * i + j) new }, r.fp,
    r.inside && decide (100 * i + j < 500 ∧ ((wordAt fs 1).getD []).length < 50)⟩

def readCities (i : ℕ) : ℕ → ℕ → Reader → Reader
  | _, 0, r => r
  | j, n + 1, r => readCities i (j + 1) n (readCity i j r)

/-- The line with the letter of the type is read into a local that is only displayed. -/
def readType (i : ℕ) (r : Reader) : Reader :=
  let r := r.line.line
  let n := (intAt (r.scan [.int]) 0).getD (r.globals.in_num i)
  readCities i 0 n.toNat ⟨{ r.globals with in_num := Function.update r.globals.in_num i n }, r.fp,
    r.inside && decide (i < 5)⟩

def readTypes : ℕ → ℕ → Reader → Reader
  | _, 0, r => r
  | i, n + 1, r => readTypes (i + 1) n (readType i r)

def reading (g : Globals) : Reader :=
  let r := Reader.line ⟨g, g.file, true⟩
  let n := (intAt (r.scan [.int]) 0).getD r.globals.num
  readTypes 0 n.toNat ⟨{ r.globals with num := n }, r.fp, r.inside⟩

def readInventory (g : Globals) : Globals := (reading g).globals

def cityLine (j : ℕ) (r : Inv) : Text :=
  decimal (j + 1) ++ 32 :: (r.city ++ 32 :: (decimal r.a ++ 32 :: (decimal r.b ++ 32 ::
    (decimal r.c ++ [newline]))))

def typeLetter (i : ℕ) : Byte := UInt8.ofNat (i + 65)

def typeText (g : Globals) (i : ℕ) : Text :=
  typeLetter i :: newline :: (decimal (g.in_num i) ++ newline ::
    (List.range (g.in_num i).toNat).flatMap fun j => cityLine j (g.row i j))

def inventoryText (g : Globals) : Text :=
  decimal g.num ++ newline :: (List.range g.num.toNat).flatMap (typeText g)

def rewriteInv (g : Globals) : Globals := { g with file := inventoryText g }

def digitAt (ID_number : ID) (i : Fin 10) : ℤ := chr (ID_number i) - 48

def letterValue (b : Byte) : ℤ :=
  if b = ch 'A' then 1
  else if b = ch 'B' then 10
  else if b = ch 'C' then 19
  else if b = ch 'D' then 28
  else 0

def checkIDnumber (day_of_week : ℤ) (ID_number : ID) : Bool :=
  let d := digitAt ID_number
  let z := 10 - (letterValue (ID_number 0) + d 1 * 8 + d 2 * 7 + d 3 * 6 + d 4 * 5 + d 5 * 4 + d 6 * 3 +
    d 7 * 2 + d 8 * 1).tmod 10
  z == d 9 && (day_of_week == 7 || day_of_week.tmod 2 == (d 9).tmod 2)

def ifboughtfn (g : Globals) (beyond : ℕ → ID) : Bool :=
  (List.range (g.login_n - 1).toNat).any fun i => decide (g.checkAt beyond i = g.ID_number)

structure Order where
  type : Byte
  type_n : ℤ
  mask : Fin 3 → ℤ

def order (g : Globals) : Order where
  type := g.buyinfo 0
  type_n := chr (g.buyinfo 2) - 48
  mask := ![chr (g.buyinfo 4) - 48, chr (g.buyinfo 6) - 48, chr (g.buyinfo 8) - 48]

def Order.place (o : Order) : ℤ := 100 * (chr o.type - 65) + (o.type_n - 1)

def clamped (x q : ℤ) : ℤ := if int32 (x - q) ≤ 0 then 0 else int32 (x - q)

/-- The last of the three tests of the source names `b` again, so `c` is not clamped. -/
def sell (r : Inv) (o : Order) : Inv :=
  { r with
    a := clamped r.a (o.mask 0)
    b := clamped r.b (o.mask 1)
    c := int32 (r.c - o.mask 2) }

def purchase (g : Globals) : Globals :=
  let o := order g
  rewriteInv { g with
    bought_n := int32 (g.bought_n + 1)
    buy_n := int32 (g.buy_n + 1)
    data := Function.update g.data o.place (sell (g.data o.place) o)
    alcohol := if g.alcohol ≤ 0 then 4 else g.alcohol - 1
    mode := .main }

def mainKey (g : Globals) (e : Press) : Globals × Display :=
  if e.key = ch '1' then (readInventory g, .inventory)
  else if e.key = ch '2' then
    if g.inOut = false then ({ g with inOut := true, mode := .login 0 }, .askID)
    else ({ g with buy_n := 0, inOut := false }, .menu)
  else if e.key = ch '3' then
    if g.inOut = false then (g, .pressLogin)
    else if g.bought_n ≥ 1 ∧ ifboughtfn g e.beyond = true then (g, .alreadyBought)
    else ({ g with mode := .buy 0 }, .askOrder)
  else if e.key = ch '4' then (g, .alcohol g.alcohol)
  else if e.key = ch '#' then ({ g with mode := .ended }, .blank)
  else (g, .blank)

def recordLogin (g : Globals) : Globals :=
  { g with
    check := fun i => if i.val = g.i_ID then g.ID_number else g.check i
    i_ID := if g.i_ID + 1 ≥ 10 then 0 else g.i_ID + 1
    login_n := int32 (g.login_n + 1) }

def loginKey (g : Globals) (i_login : ℕ) (e : Press) : Globals × Display :=
  if e.key = ch '#' then
    let g := { g with allowlog := checkIDnumber g.day_of_week g.ID_number, mode := .main }
    if g.allowlog = true then (recordLogin g, .loggedIn) else (g, .notAllowed)
  else
    ({ g with
        ID_number := fun i => if i.val = i_login then e.key else g.ID_number i
        mode := .login (i_login + 1) }, .echo e.key)

def buyKey (g : Globals) (i_buy : ℕ) (e : Press) : Globals × Display :=
  if e.key = ch '#' then
    let o := order g
    if i_buy ≠ 9 ∨ o.mask 0 + o.mask 1 + o.mask 2 > 3 then ({ g with mode := .main }, .tooMany)
    else if g.buy_n ≥ 1 then ({ g with buy_n := 0, mode := .main }, .haveBought)
    else (purchase g, .purchased (decide (g.alcohol ≤ 0)))
  else
    ({ g with
        buyinfo := fun i => if i.val = i_buy then e.key else g.buyinfo i
        mode := .buy (i_buy + 1) }, .echo e.key)

def Completes (g : Globals) (e : Press) : Prop :=
  g.mode = .buy 9 ∧ e.key = ch '#' ∧ (order g).mask 0 + (order g).mask 1 + (order g).mask 2 ≤ 3 ∧ g.buy_n < 1

instance (g : Globals) (e : Press) : Decidable (Completes g e) :=
  inferInstanceAs (Decidable (_ ∧ _ ∧ _ ∧ _))

/-- The key makes a store outside an array: a file that does not fit, an eleventh key of an ID or an
order, an order for a row outside `data`, or a login at an `i_ID` outside `check`. -/
def spills (g : Globals) (e : Press) : Bool :=
  match g.mode with
  | .main => decide (e.key = ch '1') && !(reading g).inside
  | .login i_login =>
    if e.key = ch '#' then checkIDnumber g.day_of_week g.ID_number && decide (10 ≤ g.i_ID)
    else decide (10 ≤ i_login)
  | .buy i_buy =>
    if e.key = ch '#' then decide (Completes g e ∧ ¬ (0 ≤ (order g).place ∧ (order g).place < 500))
    else decide (10 ≤ i_buy)
  | .ended => false

def machine : Machine Globals Press Display where
  step g e :=
    if spills g e then e.spill g
    else
      match g.mode with
      | .main => mainKey g e
      | .login i_login => loginKey g i_login e
      | .buy i_buy => buyKey g i_buy e
      | .ended => (g, .blank)

structure Boot where
  day_of_week : ℤ
  file : Text
  around : ℤ → Inv
  in_num_around : ℕ → ℤ
  day_range : 1 ≤ day_of_week ∧ day_of_week ≤ 7

def Boot.start (b : Boot) : Globals where
  data k := if 0 ≤ k ∧ k < 500 then ⟨0, 0, 0, 0, []⟩ else b.around k
  in_num i := if i < 5 then 0 else b.in_num_around i
  s := []
  num := 0
  inOut := false
  ID_number _ := 0
  i_ID := 0
  day_of_week := b.day_of_week
  allowlog := false
  buy_n := 0
  bought_n := 0
  login_n := 0
  check _ _ := 0
  buyinfo _ := 0
  alcohol := 5
  file := b.file
  mode := .main

abbrev Boot.after (b : Boot) (es : List Press) : Globals := machine.run b.start es

abbrev Handled := Moment Globals Press Display

abbrev Boot.history (b : Boot) (es : List Press) : List Handled := machine.trace b.start es

theorem after_snoc (b : Boot) (fs : List Press) (e : Press) :
    b.after (fs ++ [e]) = (machine.step (b.after fs) e).1 := machine.run_snoc b.start fs e

theorem history_snoc (b : Boot) (fs : List Press) (e : Press) :
    b.history (fs ++ [e]) = b.history fs ++ [machine.moment (b.after fs) e] := machine.trace_snoc b.start fs e

/-- No key of the run makes a store outside an array. -/
def Boot.Confined (b : Boot) (es : List Press) : Prop := ∀ q ∈ b.history es, spills q.pre q.event = false

instance (b : Boot) (es : List Press) : Decidable (b.Confined es) :=
  inferInstanceAs (Decidable (∀ q ∈ b.history es, spills q.pre q.event = false))

theorem moment_mem (b : Boot) {es fs : List Press} {e : Press} (h : fs ++ [e] <+: es) :
    machine.moment (b.after fs) e ∈ b.history es := by
  obtain ⟨gs, rfl⟩ := h
  exact machine.mem_trace_iff.mpr ⟨fs, e, gs, by simp, rfl⟩

theorem Boot.Confined.step {b : Boot} {es fs : List Press} {e : Press} (h : b.Confined es) (hfs : fs ++ [e] <+: es) :
    spills (b.after fs) e = false := h _ (moment_mem b hfs)

theorem Boot.Confined.left {b : Boot} {es fs : List Press} (h : b.Confined es) (hfs : fs <+: es) : b.Confined fs := by
  obtain ⟨gs, rfl⟩ := hfs
  intro q hq
  apply h q
  rw [Boot.history, Machine.trace_append]
  exact List.mem_append_left _ hq

end EmbeddedOS.Hw1
