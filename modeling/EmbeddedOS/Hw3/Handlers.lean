import EmbeddedOS.Hw3.State

namespace EmbeddedOS.Hw3

open CText Runs

def login_succ : Text := lit "Login successful.\n"
def login_fail : Text := lit "Login failed.\n"
def logout_succ : Text := lit "Logout successful.\n"
def logout_fail : Text := lit "Logout failed.\n"
def buy_fail : Text := lit "Buy failed.\n"
def disinfect : Text := lit "Disinfecting hands with alcohol."
def putting_mask : Text := lit "Putting masks into envelope."
def thankyou : Text := lit "Thank you for your purchase."
def invalid : Text := lit "Input format not valid.\n"

def recordPrefix (g : Globals) (fd : ℤ) : Text :=
  decimal g.result_index ++ comma :: (decimal g.day ++ comma :: (decimal fd ++ [comma]))

def recordHead (size : ℕ) (g : Globals) (fd : ℤ) (command : Text) : Text :=
  snprintf size (recordPrefix g fd ++ (command ++ [comma]))

/-- The value `y` has after the `if` chain of `check_ID`. -/
def letterCode (y : ℤ) (b : Byte) : ℤ :=
  if b = ch 'I' then 34
  else if b = ch 'O' then 35
  else if b = ch 'W' then 32
  else if b = ch 'Z' then 33
  else if chr b ≥ chr (ch 'A') ∧ chr b ≤ chr (ch 'H') then chr b - chr (ch 'A') + 10
  else if chr b ≥ chr (ch 'J') ∧ chr b ≤ chr (ch 'N') then chr b - chr (ch 'J') + 18
  else if chr b ≥ chr (ch 'P') ∧ chr b ≤ chr (ch 'V') then chr b - chr (ch 'P') + 23
  else if b = ch 'X' then 30
  else if b = ch 'Y' then 31
  else y

def digitAt (ID : ID) (k : Fin 10) : ℤ := chr (ID k) - 48

def check_ID (y : ℤ) (ID : ID) : Bool :=
  let y := letterCode y (ID 0)
  let Y := y.tdiv 10 + (y.tmod 10) * 9
  let Z := 10 - (Y + digitAt ID 1 * 8 + digitAt ID 2 * 7 + digitAt ID 3 * 6 + digitAt ID 4 * 5 +
    digitAt ID 5 * 4 + digitAt ID 6 * 3 + digitAt ID 7 * 2 + digitAt ID 8 * 1).tmod 10
  Z == digitAt ID 9

def day_of_week (day : ℤ) (ID : ID) : Bool :=
  if day = 7 then true
  else if day.tmod 2 ≠ (digitAt ID 9).tmod 2 then false
  else true

def check_day_of_week (g : Globals) (beyond : ℕ → ID) (ID : ID) : Bool :=
  if day_of_week g.day ID = false then false
  else (List.range g.buied_num).all fun i =>
    !decide ((List.finRange 10).countP (fun j => ID j == g.buied beyond i j) ≥ 10)

def cityText (r : Inv) : Text :=
  decimal r.line ++ 32 :: (r.city ++ 32 :: (decimal r.a ++ 32 :: (decimal r.b ++ 32 :: decimal r.c)))

def cities (g : Globals) (i : ℕ) : List Inv :=
  (List.range (g.row i 0).type_num.toNat).map fun j : ℕ => g.row i j

def show_info (g : Globals) : Text :=
  lit "show\n" ++ (List.range g.num).flatMap fun i =>
    (g.row i 0).type ++ newline :: (cities g i).flatMap fun r => snprintf 30 (cityText r ++ [newline])

def write_info (g : Globals) : Text :=
  (List.range g.num).flatMap fun i =>
    (if i = 0 then (g.row i 0).type else 32 :: (g.row i 0).type) ++
      (cities g i).flatMap fun r => snprintf 30 (32 :: cityText r)

def server_show (g : Globals) (c : Conn) : Outcome where
  globals := g.record (recordHead 30 g c.fd (lit "show") ++ (write_info g ++ [newline]))
  conn := c
  writes := [show_info g]
  command := lit "show"
  result := write_info g ++ [newline]

/-- What `sscanf(buf, "%s %10s", buf_ID, tmp_ID)` stores from the address of `tmp_ID` on, which is 16 bytes
behind `buf_ID`. -/
def storedID (buf : Text) : Text :=
  let fs := sscanf [.word none, .word (some 10)] buf
  let memory := spill 16 ((wordAt fs 0).getD []) []
  match wordAt fs 1 with
  | none => memory
  | some w => storeString w memory

def scanID (l : Locals) (buf : Text) : ID := fun i => (storedID buf).getD i (l.tmp_ID i)

def server_login (l : Locals) (g : Globals) (c : Conn) (buf : Text) : Outcome :=
  let login_info := recordHead 50 g c.fd buf
  let fail : Outcome := ⟨g.record (login_info ++ login_fail), c, [login_fail], buf, login_fail⟩
  if c.iflogin = false then
    let tmp_ID := scanID l buf
    if check_ID l.y tmp_ID = true then
      ⟨g.record (login_info ++ login_succ), { c with iflogin := true, ID := tmp_ID }, [login_succ],
        buf, login_succ⟩
    else fail
  else fail

def server_logout (g : Globals) (c : Conn) : Outcome :=
  let logout_info := recordHead 30 g c.fd (lit "logout")
  if c.iflogin = false then
    ⟨g.record (logout_info ++ logout_fail), c, [logout_fail], lit "logout", logout_fail⟩
  else
    ⟨(g.addBuied c.ID).record (logout_info ++ logout_succ), { c with iflogin := false },
      [logout_succ], lit "logout", logout_succ⟩

structure Request where
  type : Text
  city : Byte
  mask_num : Fin 3 → ℤ

def Request.city_num (r : Request) : ℤ := chr r.city - 48

def buyFormat : List Conversion := [.word none, .word none, .word none, .int, .int, .int]

/-- `sscanf(info, "%s %s %s %d %d %d", buy_buf, type, city, mask_num …)`; `type` is 16 bytes behind `buy_buf`
and 17 bytes behind `city`, which has room for one character. -/
def scanRequest (l : Locals) (info : Text) : Request :=
  let fs := sscanf buyFormat info
  let type := spillString 16 ((wordAt fs 0).getD []) l.type
  let type := (wordAt fs 1).getD type
  { type := spillString 17 ((wordAt fs 2).getD []) type
    city := ((wordAt fs 2).bind List.head?).getD l.city
    mask_num := fun j => (intAt fs (3 + j)).getD (l.mask_num j) }

def findType (g : Globals) (type : Text) : Option ℕ :=
  (List.range g.num).find? fun i => type == (g.row i 0).type

def purchase (g : Globals) (i : ℕ) (r : Request) (ID : ID) : Globals :=
  let city := g.row i (r.city_num - 1)
  let sold := { city with
    a := city.a - r.mask_num 0
    b := city.b - r.mask_num 1
    c := city.c - r.mask_num 2 }
  let alcohol := int32 (g.alcohol - 1)
  let g := { g with
    data := Function.update g.data (100 * i + (r.city_num - 1)) sold
    alcohol := if alcohol < 5 then g.alcohol_capacity else alcohol }
  let g := g.addBuied ID
  let day := int32 (g.day + 1)
  if day = 8 then { g with day := 1, buied_ID := fun _ _ => 32, buied_num := 0 }
  else { g with day := day }

def purchaseInfo : Text := disinfect ++ 32 :: (putting_mask ++ 32 :: (thankyou ++ [newline]))

def server_buy (l : Locals) (beyond : ℕ → ID) (g : Globals) (c : Conn) (info : Text) : Outcome :=
  let buy_info := recordHead 50 g c.fd info
  let fail : Outcome := ⟨g.record (buy_info ++ buy_fail), c, [buy_fail], info, buy_fail⟩
  if c.iflogin = false then fail
  else if check_day_of_week g beyond c.ID = false then fail
  else
    let r := scanRequest l info
    if startsWith (lit "XXX") r.type then fail
    else if r.mask_num 0 > 3 ∨ r.mask_num 1 > 3 ∨ r.mask_num 2 > 3 then fail
    else if r.mask_num 0 < 0 ∨ r.mask_num 1 < 0 ∨ r.mask_num 2 < 0 then fail
    else if r.mask_num 0 + r.mask_num 1 + r.mask_num 2 > 3 then fail
    else
      match findType g r.type with
      -- the loop ends without a match: no `write`, and nothing after the prefix
      | none => ⟨g.record buy_info, c, [], info, []⟩
      | some i =>
        let city := g.row i (r.city_num - 1)
        if (g.row i 0).type_num < r.city_num then fail
        else if city.a < r.mask_num 0 ∨ city.b < r.mask_num 1 ∨ city.c < r.mask_num 2 then fail
        else
          ⟨(purchase g i r c.ID).record (buy_info ++ purchaseInfo), { c with iflogin := false },
            [disinfect, putting_mask, thankyou], info, purchaseInfo⟩

def server_statics (g : Globals) (c : Conn) : Outcome where
  globals := g.record (snprintf 30 (recordPrefix g c.fd ++
    (lit "statics," ++ (decimal g.alcohol ++ [newline]))))
  conn := c
  writes := [snprintf 10 (decimal g.alcohol ++ [newline])]
  command := lit "statics"
  result := decimal g.alcohol ++ [newline]

def server_invalid (g : Globals) (c : Conn) : Outcome where
  globals := g.record (recordHead 30 g c.fd (lit "exit") ++ invalid)
  conn := c
  writes := [invalid]
  command := lit "exit"
  result := invalid

def mask_server (l : Locals) (beyond : ℕ → ID) (g : Globals) (c : Conn) (buf : Text) : Outcome :=
  if startsWith (lit "show") buf then server_show g c
  else if startsWith (lit "login") buf then server_login l g c buf
  else if startsWith (lit "logout") buf then server_logout g c
  else if startsWith (lit "buy") buf then server_buy l beyond g c buf
  else if startsWith (lit "statics") buf then server_statics g c
  else server_invalid g c

def server : Machine Server Event Outcome where
  step s e :=
    let o := mask_server e.locals e.beyond s.globals (s.conns e.conn) e.text
    (⟨o.globals, Function.update s.conns e.conn o.conn⟩, o)

end EmbeddedOS.Hw3
