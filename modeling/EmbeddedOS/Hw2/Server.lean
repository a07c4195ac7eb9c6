import EmbeddedOS.Hw3.Handlers

/-!
The server of `server.cpp`. The functions that have the same text in `hw3.cpp`, `check_ID` and the calls
of `sscanf`, are taken from there, and so are the connection, its uninitialised locals and the events.
-/

namespace EmbeddedOS.Hw2Server

open CText Runs
open Hw3 (ID BUY_ID_NUM Conn Locals Event Boot Request ch digitAt scanID scanRequest check_ID)
open Hw3 (login_succ login_fail logout_succ logout_fail buy_fail disinfect putting_mask thankyou invalid)

structure Inv where
  line : ℤ
  a : ℤ
  b : ℤ
  c : ℤ
  type_num : ℤ
  type : Text
  city : Text

@[ext] structure Globals where
  num : ℕ
  data : ℤ → Inv
  day : ℤ
  alcohol : ℤ
  buied_num : ℕ
  buied_ID : Fin BUY_ID_NUM → ID
  writeToResult : Text
  result_index : ℤ

namespace Globals

variable (g : Globals)

def row (i : ℕ) (j : ℤ) : Inv := g.data (100 * i + j)

def buied (beyond : ℕ → ID) (i : ℕ) : ID := if h : i < BUY_ID_NUM then g.buied_ID ⟨i, h⟩ else beyond i

def addBuied (id : ID) : Globals :=
  { g with
    buied_ID := fun i => if i.val = g.buied_num then id else g.buied_ID i
    buied_num := g.buied_num + 1 }

def record (t : Text) : Globals :=
  { g with
    writeToResult := g.writeToResult ++ t
    result_index := int32 (g.result_index + 1) }

def recordPrefix (fd : ℤ) : Text :=
  decimal g.result_index ++ comma :: (decimal g.day ++ comma :: (decimal fd ++ [comma]))

def recordHead (size : ℕ) (fd : ℤ) (command : Text) : Text :=
  snprintf size (g.recordPrefix fd ++ (command ++ [comma]))

end Globals

structure Outcome where
  globals : Globals
  conn : Conn
  writes : List Text
  command : Text
  result : Text

structure Server where
  globals : Globals
  conns : ℕ → Conn

def check_day_of_week (g : Globals) (beyond : ℕ → ID) (ID : ID) : Bool :=
  if Hw3.day_of_week g.day ID = false then false
  else (List.range g.buied_num).all fun i =>
    !decide ((List.finRange 10).countP (fun j => ID j == g.buied beyond i j) ≥ 10)

def cityText (r : Inv) : Text :=
  decimal r.line ++ 32 :: (r.city ++ 32 :: (decimal r.a ++ 32 :: (decimal r.b ++ 32 :: decimal r.c)))

def cities (g : Globals) (i : ℕ) : List Inv :=
  (List.range (g.row i 0).type_num.toNat).map fun j : ℕ => g.row i j

def show_info (g : Globals) : Text :=
  lit "show\n" ++ (List.range g.num).flatMap fun i =>
    (g.row i 0).type ++ newline :: (cities g i).flatMap fun r => snprintf 30 (cityText r ++ [newline])

def write_info (g : Globals) : Text :=
  (List.range g.num).flatMap fun i =>
    (if i = 0 then (g.row i 0).type else 32 :: (g.row i 0).type) ++
      (cities g i).flatMap fun r => snprintf 30 (32 :: cityText r)

def server_show (g : Globals) (c : Conn) : Outcome where
  globals := g.record (g.recordHead 30 c.fd (lit "show") ++ (write_info g ++ [newline]))
  conn := c
  writes := [show_info g]
  command := lit "show"
  result := write_info g ++ [newline]

def server_login (l : Locals) (g : Globals) (c : Conn) (buf : Text) : Outcome :=
  let login_info := g.recordHead 50 c.fd buf
  let fail : Outcome := ⟨g.record (login_info ++ login_fail), c, [login_fail], buf, login_fail⟩
  if c.iflogin = false then
    let tmp_ID := scanID l buf
    if check_ID l.y tmp_ID = true then
      ⟨g.record (login_info ++ login_succ), { c with iflogin := true, ID := tmp_ID }, [login_succ],
        buf, login_succ⟩
    else fail
  else fail

def server_logout (g : Globals) (c : Conn) : Outcome :=
  let logout_info := g.recordHead 30 c.fd (lit "logout")
  if c.iflogin = false then
    ⟨g.record (logout_info ++ logout_fail), c, [logout_fail], lit "logout", logout_fail⟩
  else
    ⟨(g.addBuied c.ID).record (logout_info ++ logout_succ), { c with iflogin := false },
      [logout_succ], lit "logout", logout_succ⟩

def findType (g : Globals) (type : Text) : Option ℕ :=
  (List.range g.num).find? fun i => type == (g.row i 0).type

def memset (s : ID) (c : Byte) (n : ℕ) : ID := fun j => if j.val < n then c else s j

def purchase (g : Globals) (i : ℕ) (r : Request) (ID : ID) : Globals :=
  let city := g.row i (r.city_num - 1)
  let sold := { city with
    a := city.a - r.mask_num 0
    b := city.b - r.mask_num 1
    c := city.c - r.mask_num 2 }
  let alcohol := int32 (g.alcohol - 1)
  let g := { g with
    data := Function.update g.data (100 * i + (r.city_num - 1)) sold
    alcohol := if alcohol < 5 then 50 else alcohol }
  let g := g.addBuied ID
  let day := int32 (g.day + 1)
  if day = 8 then { g with day := 1, buied_ID := fun i => memset (g.buied_ID i) 32 10, buied_num := 0 }
  else { g with day := day }

def purchaseInfo : Text := disinfect ++ 32 :: (putting_mask ++ 32 :: (thankyou ++ [newline]))

def server_buy (l : Locals) (beyond : ℕ → ID) (g : Globals) (c : Conn) (info : Text) : Outcome :=
  let buy_info := g.recordHead 50 c.fd info
  let fail : Outcome := ⟨g.record (buy_info ++ buy_fail), c, [buy_fail], info, buy_fail⟩
  if c.iflogin = false then fail
  else if check_day_of_week g beyond c.ID = false then fail
  else
    let r := scanRequest l info
    if startsWith (lit "XXX") r.type then fail
    else if r.mask_num 0 > 3 ∨ r.mask_num 1 > 3 ∨ r.mask_num 2 > 3 then fail
    else if r.mask_num 0 < 0 ∨ r.mask_num 1 < 0 ∨ r.mask_num 2 < 0 then fail
    else if r.mask_num 0 + r.mask_num 1 + r.mask_num 2 > 3 then fail
    else
      match findType g r.type with
      -- the loop ends without a match: no `write`, and nothing after the prefix
      | none => ⟨g.record buy_info, c, [], info, []⟩
      | some i =>
        let city := g.row i (r.city_num - 1)
        if (g.row i 0).type_num < r.city_num then fail
        else if city.a < r.mask_num 0 ∨ city.b < r.mask_num 1 ∨ city.c < r.mask_num 2 then fail
        else
          ⟨(purchase g i r c.ID).record (buy_info ++ purchaseInfo), { c with iflogin := false },
            [disinfect, putting_mask, thankyou], info, purchaseInfo⟩

def server_statics (g : Globals) (c : Conn) : Outcome where
  globals := g.record (snprintf 30 (g.recordPrefix c.fd ++
    (lit "statics," ++ (decimal g.alcohol ++ [newline]))))
  conn := c
  writes := [snprintf 10 (decimal g.alcohol ++ [newline])]
  command := lit "statics"
  result := decimal g.alcohol ++ [newline]

def server_invalid (g : Globals) (c : Conn) : Outcome where
  globals := g.record (g.recordHead 30 c.fd (lit "exit") ++ invalid)
  conn := c
  writes := [invalid]
  command := lit "exit"
  result := invalid

def mask_server (l : Locals) (beyond : ℕ → ID) (g : Globals) (c : Conn) (buf : Text) : Outcome :=
  if startsWith (lit "show") buf then server_show g c
  else if startsWith (lit "login") buf then server_login l g c buf
  else if startsWith (lit "logout") buf then server_logout g c
  else if startsWith (lit "buy") buf then server_buy l beyond g c buf
  else if startsWith (lit "statics") buf then server_statics g c
  else server_invalid g c

def server : Machine Server Event Outcome where
  step s e :=
    let o := mask_server e.locals e.beyond s.globals (s.conns e.conn) e.text
    (⟨o.globals, Function.update s.conns e.conn o.conn⟩, o)

/-- Row by row what the loader of `hw3.cpp` leaves, which has one member more. -/
def plain (r : Hw3.Inv) : Inv := ⟨r.line, r.a, r.b, r.c, r.type_num, r.type, r.city⟩

def start (b : Boot) : Server where
  globals :=
    { num := b.num
      data := fun a => plain (b.data a)
      day := b.day
      alcohol := 50
      buied_num := 0
      buied_ID := fun _ _ => 32
      writeToResult := []
      result_index := 0 }
  conns := fun k => ⟨b.fd k, false, b.ID k⟩

end EmbeddedOS.Hw2Server
