import EmbeddedOS.Hw3.HandlerCases
import EmbeddedOS.Hw3.Shop

namespace EmbeddedOS.Hw3

open CText Runs Shop

section Purchase

variable (g : Globals) (i : ℕ) (r : Request) (id : ID)

def Request.article (r : Request) (i : ℕ) : ℤ := 100 * i + (r.city_num - 1)

theorem purchase_num : (purchase g i r id).num = g.num := by
  simp only [purchase]; split_ifs <;> rfl

theorem purchase_capacity : (purchase g i r id).alcohol_capacity = g.alcohol_capacity := by
  simp only [purchase]; split_ifs <;> rfl

theorem purchase_log : (purchase g i r id).writeToResult = g.writeToResult := by
  simp only [purchase]; split_ifs <;> rfl

theorem purchase_index : (purchase g i r id).result_index = g.result_index := by
  simp only [purchase]; split_ifs <;> rfl

theorem purchase_alcohol : (purchase g i r id).alcohol =
    if int32 (g.alcohol - 1) < 5 then g.alcohol_capacity else int32 (g.alcohol - 1) := by
  by_cases hd : int32 (g.day + 1) = 8 <;> simp [purchase, hd]

theorem purchase_day : (purchase g i r id).day =
    if int32 (g.day + 1) = 8 then 1 else int32 (g.day + 1) := by
  by_cases hd : int32 (g.day + 1) = 8 <;> simp [purchase, hd]

theorem purchase_buied_num : (purchase g i r id).buied_num =
    if int32 (g.day + 1) = 8 then 0 else g.buied_num + 1 := by
  by_cases hd : int32 (g.day + 1) = 8 <;> simp [purchase, hd]

theorem purchase_buied_ID : (purchase g i r id).buied_ID =
    if int32 (g.day + 1) = 8 then fun _ _ => 32 else (g.addBuied id).buied_ID := by
  by_cases hd : int32 (g.day + 1) = 8 <;> simp [purchase, hd, Globals.addBuied]

theorem purchase_recorded (beyond : ℕ → ID) : (purchase g i r id).recorded beyond =
    if int32 (g.day + 1) = 8 then []
    else g.recorded beyond ++ [if g.buied_num < BUY_ID_NUM then id else beyond g.buied_num] := by
  by_cases hd : int32 (g.day + 1) = 8
  · simp [purchase, hd, Globals.recorded]
  · rw [if_neg hd, ← addBuied_recorded]
    simp only [purchase, addBuied_day, hd, ↓reduceIte]
    rfl

theorem purchase_data : (purchase g i r id).data =
    Function.update g.data (r.article i) { g.data (r.article i) with
      a := (g.data (r.article i)).a - r.mask_num 0
      b := (g.data (r.article i)).b - r.mask_num 1
      c := (g.data (r.article i)).c - r.mask_num 2 } := by
  by_cases hd : int32 (g.day + 1) = 8 <;> simp [purchase, hd, Globals.row, Request.article]

theorem purchase_count (a : ℤ) : ((purchase g i r id).data a).count =
    Function.update (fun a => (g.data a).count) (r.article i)
      ((g.data (r.article i)).count - r.mask_num) a := by
  rw [purchase_data]
  by_cases h : a = r.article i
  · subst h
    simp only [Function.update_self, Inv.count]
    funext j
    fin_cases j <;> simp
  · simp [Function.update_of_ne h]

end Purchase

theorem match_count_iff (x y : ID) :
    (List.finRange 10).countP (fun j => x j == y j) ≥ 10 ↔ x = y := by
  have hl : (List.finRange 10).length = 10 := by simp
  constructor
  · intro h
    have he : (List.finRange 10).countP (fun j => x j == y j) = (List.finRange 10).length :=
      le_antisymm List.countP_le_length (by omega)
    funext j
    simpa using List.countP_eq_length.mp he j (List.mem_finRange j)
  · rintro rfl
    simp

theorem check_day_of_week_iff (g : Globals) (beyond : ℕ → ID) (x : ID) :
    check_day_of_week g beyond x = true ↔ day_of_week g.day x = true ∧ x ∉ g.recorded beyond := by
  by_cases hd : day_of_week g.day x = true
  · simp only [check_day_of_week, hd, Bool.true_eq_false, ↓reduceIte, List.all_eq_true,
      List.mem_range, match_count_iff, Bool.not_eq_true', decide_eq_false_iff_not, true_and,
      Globals.recorded, List.mem_map, not_exists, not_and]
    exact ⟨fun h i hi he => h i hi he.symm, fun h i hi he => h i hi he.symm⟩
  · simp [check_day_of_week, hd]

def rules (capacity : ℤ) : Rules ID ℤ ℤ where
  opens := day_of_week
  ends d := decide (int32 (d + 1) = 8)
  next d := if int32 (d + 1) = 8 then 1 else int32 (d + 1)
  use a := if int32 (a - 1) < 5 then capacity else int32 (a - 1)

def wanted (g : Globals) (r : Request) : Option ℤ :=
  if startsWith (lit "XXX") r.type then none
  else
    match findType g r.type with
    | none => none
    | some i => if r.city_num ≤ (g.row i 0).type_num then some (r.article i) else none

def shopCommand (s : Server) (e : Event) : Command ID ℤ :=
  match kind e.text with
  | .login =>
    if check_ID e.locals.y (scanID e.locals e.text) then .login (scanID e.locals e.text) else .idle
  | .logout => .logout
  | .buy =>
    let r := scanRequest e.locals e.text
    match wanted s.globals r with
    | none => .idle
    | some t => .buy t r.mask_num
  | _ => .idle

def mark (s : Server) (e : Event) (o : Outcome) : Mark ℕ ID ℤ ℤ :=
  let r := scanRequest e.locals e.text
  if o.LoggedIn then .loggedIn e.conn o.conn.ID
  else if o.LoggedOut then .loggedOut e.conn (s.conns e.conn).ID
  else if o.Sold then
    .sold e.conn (s.conns e.conn).ID s.globals.day ((wanted s.globals r).getD 0) r.mask_num
  else .nothing

def momentMark (q : Moment Server Event Outcome) : Mark ℕ ID ℤ ℤ := mark q.pre q.event q.out

def Fits (s : Server) (e : Event) : Prop :=
  (server.step s e).2.LoggedOut ∨ (server.step s e).2.Sold → s.globals.buied_num < BUY_ID_NUM

structure Refines (s : Server) (t : Shop.State ℕ ID ℤ ℤ ℤ) : Prop where
  session : ∀ k, t.session k = if (s.conns k).iflogin then some (s.conns k).ID else none
  day : t.day = s.globals.day
  supplies : t.supplies = s.globals.alcohol
  bought : ∀ beyond, t.bought = s.globals.recorded beyond
  stock : ∀ a, t.stock a = (s.globals.data a).count
  room : s.globals.buied_num ≤ BUY_ID_NUM

theorem mark_nothing {s : Server} {e : Event} {o : Outcome} (h : o.Quiet) : mark s e o = .nothing := by
  simp [mark, h.1, h.2.1, h.2.2]

theorem mark_loggedIn {s : Server} {e : Event} {o : Outcome} (h : o.LoggedIn) :
    mark s e o = .loggedIn e.conn o.conn.ID := by
  simp [mark, h]

theorem mark_loggedOut {s : Server} {e : Event} {o : Outcome} (h : o.LoggedOut) :
    mark s e o = .loggedOut e.conn (s.conns e.conn).ID := by
  have hn : ¬ o.LoggedIn := fun hi => hi.not_loggedOut h
  simp [mark, h, hn]

theorem mark_sold {s : Server} {e : Event} {o : Outcome} (h : o.Sold) :
    mark s e o = .sold e.conn (s.conns e.conn).ID s.globals.day
      ((wanted s.globals (scanRequest e.locals e.text)).getD 0)
      (scanRequest e.locals e.text).mask_num := by
  have hi : ¬ o.LoggedIn := fun hi => hi.not_sold h
  have ho : ¬ o.LoggedOut := fun ho => ho.not_sold h
  simp [mark, h, hi, ho]

theorem wanted_of_sell {g : Globals} {r : Request} {i : ℕ} (h : verdict g r = .sell i) :
    wanted g r = some (r.article i) := by
  obtain ⟨hx, -, hf, hc, -⟩ := verdict_eq_sell.mp h
  simp [wanted, hx, hf, hc]

theorem sell_of_wanted {g : Globals} {r : Request} {t : ℤ} (h : wanted g r = some t)
    (hv : r.Valid) (hs : ∀ j, r.mask_num j ≤ (g.data t).count j) : ∃ i, verdict g r = .sell i := by
  by_cases hx : startsWith (lit "XXX") r.type = true
  · simp [wanted, hx] at h
  · cases hf : findType g r.type with
    | none => simp [wanted, hx, hf] at h
    | some i =>
      simp only [wanted, hx, Bool.false_eq_true, ↓reduceIte, hf, Option.ite_none_right_eq_some,
        Option.some.injEq] at h
      obtain ⟨hc, rfl⟩ := h
      exact ⟨i, verdict_eq_sell.mpr ⟨by simpa using hx, hv, hf, hc, hs⟩⟩

theorem shop_rejects {s : Server} {t : Shop.State ℕ ID ℤ ℤ ℤ} {e : Event} (hR : Refines s t)
    (h : ¬ Acts e.locals e.beyond s.globals (s.conns e.conn) e.text) (capacity : ℤ) :
    (shop (rules capacity)).step t (e.conn, shopCommand s e) = (t, .nothing) := by
  have hs := hR.session e.conn
  unfold shopCommand
  cases hk : kind e.text with
  | display => simp [shop]
  | statics => simp [shop]
  | invalid => simp [shop]
  | login =>
    by_cases hid : check_ID e.locals.y (scanID e.locals e.text) = true
    · have hl : (s.conns e.conn).iflogin = true := by simpa [Acts, hk, hid] using h
      simp [shop, hid, hs, hl]
    · simp [shop, hid]
  | logout =>
    have hl : (s.conns e.conn).iflogin = false := by simpa [Acts, hk] using h
    simp [shop, hs, hl]
  | buy =>
    cases hw : wanted s.globals (scanRequest e.locals e.text) with
    | none => simp [shop, hw]
    | some a =>
      by_cases hl : (s.conns e.conn).iflogin = true
      · have hn : ¬ t.Sells (rules capacity) (s.conns e.conn).ID a
            (scanRequest e.locals e.text).mask_num := by
          rintro ⟨ho, hb, hv, hst⟩
          rw [hR.day] at ho
          rw [hR.bought e.beyond] at hb
          simp only [hR.stock] at hst
          obtain ⟨i, hi⟩ := sell_of_wanted hw hv hst
          apply h
          simp only [Acts, hk]
          exact ⟨hl, (check_day_of_week_iff _ _ _).mpr ⟨ho, hb⟩, i, hi⟩
        simp [shop, hw, hs, hl, hn]
      · simp [shop, hw, hs, hl]

theorem server_step (s : Server) (e : Event) : server.step s e =
    (⟨(mask_server e.locals e.beyond s.globals (s.conns e.conn) e.text).globals,
      Function.update s.conns e.conn
        (mask_server e.locals e.beyond s.globals (s.conns e.conn) e.text).conn⟩,
      mask_server e.locals e.beyond s.globals (s.conns e.conn) e.text) := rfl

theorem session_update {conns : ℕ → Conn} {session : ℕ → Option ID}
    (h : ∀ k, session k = if (conns k).iflogin then some (conns k).ID else none) (k : ℕ) {c : Conn} {x : Option ID}
    (hx : x = if c.iflogin then some c.ID else none) (j : ℕ) : Function.update session k x j =
      if (Function.update conns k c j).iflogin then some (Function.update conns k c j).ID else none := by
  by_cases hj : j = k
  · subst hj
    rw [Function.update_self, Function.update_self, hx]
  · rw [Function.update_of_ne hj, Function.update_of_ne hj, h]

theorem refines_step (capacity : ℤ) (s : Server) (t : Shop.State ℕ ID ℤ ℤ ℤ) (e : Event)
    (hR : Refines s t) (hcap : s.globals.alcohol_capacity = capacity) (hfit : Fits s e) :
    Refines (server.step s e).1 ((shop (rules capacity)).step t (e.conn, shopCommand s e)).1 ∧
      mark s e (server.step s e).2 = ((shop (rules capacity)).step t (e.conn, shopCommand s e)).2 := by
  have hs := hR.session e.conn
  have hdid := mask_server_did e.locals e.beyond s.globals (s.conns e.conn) e.text
  unfold Fits at hfit
  rw [server_step] at hfit ⊢
  generalize mask_server e.locals e.beyond s.globals (s.conns e.conn) e.text = o at hdid hfit ⊢
  cases hdid with
  | nothing text rejects globals conn quiet =>
    rw [shop_rejects hR rejects]
    refine ⟨⟨?_, ?_, ?_, ?_, ?_, ?_⟩, mark_nothing quiet⟩
    · simpa [conn] using hR.session
    · simpa [globals] using hR.day
    · simpa [globals] using hR.supplies
    · simpa [globals] using hR.bought
    · simpa [globals] using hR.stock
    · simpa [globals] using hR.room
  | login text command out valid globals conn answer =>
    have hc : shopCommand s e = .login (scanID e.locals e.text) := by
      simp [shopCommand, command, valid]
    rw [mark_loggedIn answer, hc]
    simp only [shop, hs, out, Bool.false_eq_true, ↓reduceIte, conn, and_true]
    refine ⟨?_, ?_, ?_, ?_, ?_, ?_⟩
    · exact session_update hR.session e.conn rfl
    · simpa [globals, State.setSession] using hR.day
    · simpa [globals, State.setSession] using hR.supplies
    · simpa [globals, State.setSession] using hR.bought
    · simpa [globals, State.setSession] using hR.stock
    · simpa [globals] using hR.room
  | logout text command login globals conn answer =>
    have hroom := hfit (Or.inl answer)
    have hc : shopCommand s e = .logout := by simp [shopCommand, command]
    rw [mark_loggedOut answer, hc]
    simp only [shop, hs, login, ↓reduceIte, conn, and_true]
    refine ⟨?_, ?_, ?_, ?_, ?_, ?_⟩
    · exact session_update hR.session e.conn rfl
    · simpa [globals, State.setSession] using hR.day
    · simpa [globals, State.setSession] using hR.supplies
    · intro beyond
      simp [globals, addBuied_recorded, hroom, hR.bought beyond]
    · simpa [globals, State.setSession] using hR.stock
    · simpa [globals] using hroom
  | buy i text command login day sells globals conn answer =>
    have hroom := hfit (Or.inr answer)
    have hw := wanted_of_sell sells
    obtain ⟨-, hv, -, -, hst⟩ := verdict_eq_sell.mp sells
    obtain ⟨ho, hb⟩ := (check_day_of_week_iff _ _ _).mp day
    have hc : shopCommand s e = .buy ((scanRequest e.locals e.text).article i)
        (scanRequest e.locals e.text).mask_num := by
      simp [shopCommand, command, hw]
    have hsells : t.Sells (rules capacity) (s.conns e.conn).ID ((scanRequest e.locals e.text).article i)
        (scanRequest e.locals e.text).mask_num := by
      refine ⟨by rw [hR.day]; exact ho, by rw [hR.bought e.beyond]; exact hb, hv, ?_⟩
      intro j
      rw [hR.stock]
      exact hst j
    rw [mark_sold answer, hc, hw]
    simp only [shop, hs, login, ↓reduceIte, hsells, conn, Option.getD_some, hR.day, and_true]
    refine ⟨?_, ?_, ?_, ?_, ?_, ?_⟩
    · exact session_update hR.session e.conn rfl
    · simp [globals, State.sell, rules, purchase_day, hR.day]
    · simp [globals, State.sell, rules, purchase_alcohol, hR.supplies, hcap]
    · intro beyond
      simp [globals, State.sell, rules, purchase_recorded, hR.bought beyond, hR.day, hroom]
    · intro a
      simp only [globals, State.sell, record_data, purchase_count]
      congr 1
      · funext a
        exact hR.stock a
      · rw [hR.stock]
    · simp only [globals, record_buied_num, purchase_buied_num]
      split_ifs
      · omega
      · omega

end EmbeddedOS.Hw3
