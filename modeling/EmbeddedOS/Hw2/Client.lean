import EmbeddedOS.Hw3.Framing

/-!
The client of `client.cpp` on its connection to the server of `server.cpp`. The handlers of that
server are those of `hw3.cpp` with a capacity of 50, and so is its loop around `read`.
-/

namespace EmbeddedOS.Hw2

open CText Runs Hw3

structure Store where
  num : ℤ
  name : Text

def mydata (v : Inventory) : List Store :=
  (List.range v.num).map fun i : ℕ => ⟨(v.data (100 * i)).type_num, (v.data (100 * i)).type⟩

def id : List Text :=
  ["A117188556", "B174959258", "C124442496", "D127578896", "E165814285",
    "F144839863", "G132796381", "H288868017", "J161621706", "K164296902",
    "L157449751", "M129448656", "N177233546", "P149589598", "Q119678958",
    "R167761572", "S142039712", "T173532954", "U171830029", "V155914441",
    "W186714857", "X184327514", "Y191108548", "Z196589652", "O176202085",
    "I169747354", "X184327515", "Y191108546", "Z196589657", "O176202088"].map lit

/-- The results of `rand` in one call of `buy`. -/
structure Draws where
  store : ℕ
  again : ℕ
  city : ℕ
  x : ℕ
  mask : Fin 3 → ℕ

def maskTexts : List Text :=
  ["3 0 0", "2 1 0", "2 0 1", "1 2 0", "1 0 2", "1 1 1", "0 2 1", "0 1 2", "0 3 0", "0 0 3"].map lit

def masks (d : Draws) : Text :=
  match maskTexts[d.x % 11]? with
  | some t => t
  | none =>
    let r (j : Fin 3) : Text := decimal (d.mask j % 4 : ℕ)
    r 0 ++ 32 :: (r 1 ++ 32 :: r 2)

/-- The string that `buy` sends; `none` where it divides by zero. -/
def buy (stores : List Store) (d : Draws) : Option Text :=
  let store_name := d.store % (stores.length + 1)
  let temp := (stores[store_name]?.map Store.name).getD (lit "XXX")
  let store_name := if temp = lit "XXX" then d.again % stores.length else store_name
  match stores[store_name]? with
  | none => none
  | some store =>
    if store.num + 1 = 0 then none
    else
      let city_id := (d.city : ℤ).tmod (store.num + 1)
      let city := if city_id < store.num then city_id + 1 else store.num + 1
      some (lit "buy" ++ 32 :: (temp ++ 32 :: (decimal city ++ 32 :: masks d)))

inductive Command where
  | display
  | login (i : Fin 30)
  | logout
  | buy (d : Draws)
  | statics
  | exit

def Command.text (stores : List Store) : Command → Option Text
  | .display => some (lit "show")
  | .login i => some (lit "login " ++ id.getD i [])
  | .logout => some (lit "logout")
  | .buy d => Hw2.buy stores d
  | .statics => some (lit "statics")
  | .exit => some (lit "exit")

def readBuy (unread : Text) : List Text × Text :=
  let first := unread.take 32
  let rest := unread.drop 32
  if cstring first = disinfect then ([first, rest.take 28, (rest.drop 28).take 28], (rest.drop 28).drop 28)
  else ([first], rest)

def Command.collect (c : Command) (unread : Text) : List Text × Text :=
  match c with
  | .buy _ => readBuy unread
  | _ => ([unread.take 1024], unread.drop 1024)

/-- The server with the buffer of `mask_server` for this connection, and what it has written that
the client has not read. -/
structure Link where
  server : Server
  buf : Text
  unread : Text

/-- The commands of other connections that come before a command of this one, and the memory its
handler finds. -/
structure Visit where
  others : List Event
  locals : Locals
  beyond : ℕ → ID

def reads : ℕ → Text → List Text
  | 0, _ => []
  | n + 1, t => if t = [] then [] else t.take 30 :: reads n (t.drop 30)

namespace Link

def visited (l : Link) (v : Visit) : Server := Hw3.server.run l.server v.others

def handle (k : ℕ) (v : Visit) (bytes : Text) (l : Link) : Link :=
  let buf := readInto l.buf bytes
  let r := Hw3.server.step (l.visited v) ⟨k, cstring buf, v.locals, v.beyond⟩
  ⟨r.1, memset30 buf, l.unread ++ r.2.writes.flatten⟩

def handleAll (k : ℕ) : (ℕ → Visit) → List Text → Link → Link
  | _, [], l => l
  | vs, bytes :: rest, l => handleAll k (fun n => vs (n + 1)) rest (l.handle k (vs 0) bytes)

end Link

structure Exchange where
  command : Command
  visits : ℕ → Visit

def exchanges (k : ℕ) (stores : List Store) : Machine Link Exchange (List Text) where
  step l x :=
    match x.command.text stores with
    | none => (l, [])
    | some t =>
      let l := l.handleAll k x.visits (reads t.length t)
      let r := x.command.collect l.unread
      ({ l with unread := r.2 }, r.1)

theorem capacity_int : IsInt32 50 := by decide

def start (b : Boot) (memory : Text) : Link :=
  ⟨Boot.start { b with capacity := 50, capacity_int := capacity_int }, memory, []⟩

end EmbeddedOS.Hw2
