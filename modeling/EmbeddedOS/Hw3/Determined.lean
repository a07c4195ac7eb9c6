import EmbeddedOS.Hw3.Leftovers

/-!
Two runs of the server on the same commands. The rows around `data`, the uninitialised locals, the memory
behind `buied_ID` and the IDs of connections that have not logged in may differ from run to run.
-/

namespace EmbeddedOS.Hw3

open CText Runs

structure SameRows (g g' : Globals) : Prop where
  num : g.num = g'.num
  data : ∀ a : ℤ, 0 ≤ a → a < 1500 → g.data a = g'.data a
  day : g.day = g'.day
  buied_num : g.buied_num = g'.buied_num
  buied_ID : g.buied_ID = g'.buied_ID
  result_index : g.result_index = g'.result_index

structure SameConn (c c' : Conn) : Prop where
  fd : c.fd = c'.fd
  iflogin : c.iflogin = c'.iflogin
  ID : c.iflogin = true → c.ID = c'.ID

structure Twin (s s' : Server) : Prop where
  globals : SameRows s.globals s'.globals
  conns : ∀ k, SameConn (s.conns k) (s'.conns k)

structure InArrays (g : Globals) : Prop where
  num_le : g.num ≤ 15
  type_num_le : ∀ i < g.num, (g.row i 0).type_num ≤ 100
  type_ne : ∀ i < g.num, (g.row i 0).type ≠ []
  room : g.buied_num ≤ BUY_ID_NUM

def Housed (g : Globals) (r : Request) : Prop :=
  startsWith (lit "XXX") r.type = false → r.Valid → ∀ i, findType g r.type = some i →
    r.city_num ≤ (g.row i 0).type_num → 0 ≤ r.article i

section Rows

variable {g g' : Globals} (h : SameRows g g') (hg : InArrays g)
include h

theorem SameRows.record (t t' : Text) : SameRows (g.record t) (g'.record t') :=
  ⟨h.num, h.data, h.day, h.buied_num, h.buied_ID, by simp [h.result_index]⟩

theorem SameRows.addBuied (id : ID) : SameRows (g.addBuied id) (g'.addBuied id) :=
  ⟨h.num, h.data, h.day, by simp [h.buied_num], by simp [Globals.addBuied, h.buied_num, h.buied_ID],
    h.result_index⟩

theorem recordPrefix_same (fd : ℤ) : recordPrefix g fd = recordPrefix g' fd := by
  rw [recordPrefix, recordPrefix, h.result_index, h.day]

include hg

theorem row_same {i : ℕ} (hi : i < g.num) {j : ℤ} (h0 : 0 ≤ 100 * i + j) (h100 : j < 100) :
    g.row i j = g'.row i j := by
  have hnum := hg.num_le
  exact h.data _ h0 (by omega)

theorem first_row_same {i : ℕ} (hi : i < g.num) : g.row i 0 = g'.row i 0 :=
  row_same h hg hi (by omega) (by norm_num)

theorem cities_same {i : ℕ} (hi : i < g.num) : cities g i = cities g' i := by
  rw [cities, cities, ← first_row_same h hg hi]
  apply List.map_congr_left
  intro j hj
  have hle := hg.type_num_le i hi
  have hlt := List.mem_range.mp hj
  exact row_same h hg hi (by omega) (by omega)

theorem show_info_same : show_info g = show_info g' := by
  rw [show_info, show_info, ← h.num]
  congr 1
  apply List.flatMap_congr
  intro i hi
  have hi := List.mem_range.mp hi
  rw [first_row_same h hg hi, cities_same h hg hi]

theorem write_info_same : write_info g = write_info g' := by
  rw [write_info, write_info, ← h.num]
  apply List.flatMap_congr
  intro i hi
  have hi := List.mem_range.mp hi
  rw [first_row_same h hg hi, cities_same h hg hi]

theorem findType_same (type : Text) : findType g type = findType g' type := by
  rw [findType, findType, ← h.num]
  apply List.find?_congr
  intro i hi
  rw [first_row_same h hg (List.mem_range.mp hi)]

theorem check_day_same (beyond beyond' : ℕ → ID) (x : ID) :
    check_day_of_week g beyond x = check_day_of_week g' beyond' x := by
  have hroom := hg.room
  have hscan : ∀ i ∈ List.range g.buied_num, g.buied beyond i = g'.buied beyond' i := by
    intro i hi
    have hlt : i < BUY_ID_NUM := lt_of_lt_of_le (List.mem_range.mp hi) hroom
    simp only [Globals.buied, hlt, ↓reduceDIte, h.buied_ID]
  have hall (p : ID → Bool) : (List.range g.buied_num).all (fun i => p (g.buied beyond i)) =
      (List.range g.buied_num).all (fun i => p (g'.buied beyond' i)) := by
    rw [Bool.eq_iff_iff, List.all_eq_true, List.all_eq_true]
    exact forall₂_congr fun i hi => by rw [hscan i hi]
  rw [check_day_of_week, check_day_of_week, ← h.day, ← h.buied_num]
  exact congrArg (fun b => if day_of_week g.day x = false then false else b)
    (hall fun y => !decide ((List.finRange 10).countP (fun j => x j == y j) ≥ 10))

theorem verdict_same {r : Request} (hr : Housed g r) : verdict g r = verdict g' r := by
  by_cases hv : startsWith (lit "XXX") r.type = false ∧ r.Valid
  · rw [verdict_named hv.1 hv.2, verdict_named hv.1 hv.2, ← findType_same h hg]
    cases hf : findType g r.type with
    | none => rfl
    | some i =>
      obtain ⟨hi, -⟩ := findType_eq_some hf
      simp only [← first_row_same h hg hi]
      by_cases hc : r.city_num ≤ (g.row i 0).type_num
      · have hle := hg.type_num_le i hi
        have h0 := hr hv.1 hv.2 i hf hc
        have hrow : g.row i (r.city_num - 1) = g'.row i (r.city_num - 1) :=
          row_same h hg hi h0 (by omega)
        have hstocked : r.Stocked g i ↔ r.Stocked g' i := by rw [Request.Stocked, Request.Stocked, hrow]
        exact if_congr (and_congr_right fun _ => hstocked) rfl rfl
      · simp [hc]
  · rw [verdict_refuse hv, verdict_refuse hv]

theorem purchase_same {i : ℕ} (hi : i < g.num) {r : Request} (h0 : 0 ≤ r.article i)
    (hc : r.city_num ≤ 100) (x : ID) : SameRows (purchase g i r x) (purchase g' i r x) := by
  have hrow : g.data (r.article i) = g'.data (r.article i) := by
    have hnum := hg.num_le
    apply h.data _ h0
    simp only [Request.article]
    omega
  constructor
  case num => rw [purchase_num, purchase_num, h.num]
  case data =>
    intro a ha ha'
    rw [purchase_data, purchase_data, hrow]
    by_cases he : a = r.article i
    · rw [he, Function.update_self, Function.update_self]
    · rw [Function.update_of_ne he, Function.update_of_ne he, h.data a ha ha']
  case day => rw [purchase_day, purchase_day, h.day]
  case buied_num => rw [purchase_buied_num, purchase_buied_num, h.day, h.buied_num]
  case buied_ID =>
    rw [purchase_buied_ID, purchase_buied_ID, h.day, (h.addBuied x).buied_ID]
  case result_index => rw [purchase_index, purchase_index, h.result_index]

end Rows

/-- Neither the locals nor the rows around `data` decide about a buy. -/
def RequestHoused (g : Globals) (text : Text) : Prop :=
  RequestSettled g text ∧ ∀ x, Housed g (scanRequest (blankLocals x) text)

structure SameAnswer (k : Kind) (g g' : Globals) (o o' : Outcome) : Prop where
  globals : SameRows o.globals o'.globals
  conn : SameConn o.conn o'.conn
  answer : (k = .statics → g.alcohol = g'.alcohol) →
    o.writes = o'.writes ∧ o.command = o'.command ∧ o.result = o'.result
  supply : g.alcohol = g'.alcohol → g.alcohol_capacity = g'.alcohol_capacity →
    o.globals.alcohol = o'.globals.alcohol

section Command

variable {g g' : Globals} (h : SameRows g g') (hg : InArrays g)
include h

theorem quiet_same {c c' : Conn} (hc : SameConn c c') {k : Kind} (t t' : Text) (ws : List Text)
    (command result : Text) :
    SameAnswer k g g' ⟨g.record t, c, ws, command, result⟩ ⟨g'.record t', c', ws, command, result⟩ :=
  ⟨h.record t t', hc, fun _ => ⟨rfl, rfl, rfl⟩, fun ha _ => ha⟩

theorem server_login_same {c c' : Conn} (hc : SameConn c c') {text : Text} (hlogin : c.iflogin = true ∨ IDSettled text)
    (l l' : Locals) : SameAnswer .login g g' (server_login l g c text) (server_login l' g' c' text) := by
  simp only [server_login, ← hc.iflogin]
  by_cases hl : c.iflogin = true
  · simp only [hl, Bool.true_eq_false, ↓reduceIte]
    exact quiet_same h hc _ _ _ _ _
  · obtain ⟨hcheck, hsame⟩ := settled_check (hlogin.resolve_left hl) l l'
    simp only [Bool.not_eq_true] at hl
    by_cases hid : check_ID l.y (scanID l text) = true
    · have hid' : check_ID l'.y (scanID l text) = true := by
        rw [hsame hid, ← hcheck]
        exact hid
      simp only [hl, hid, hid', ← hsame hid, ↓reduceIte]
      exact ⟨h.record _ _, ⟨hc.fd, rfl, fun _ => rfl⟩, fun _ => ⟨rfl, rfl, rfl⟩, fun ha _ => ha⟩
    · simp only [hl, hid, ← hcheck, Bool.false_eq_true, ↓reduceIte]
      exact quiet_same h hc _ _ _ _ _

theorem server_logout_same {c c' : Conn} (hc : SameConn c c') :
    SameAnswer .logout g g' (server_logout g c) (server_logout g' c') := by
  simp only [server_logout, ← hc.iflogin]
  by_cases hl : c.iflogin = true
  · simp only [hl, Bool.true_eq_false, ↓reduceIte, ← hc.ID hl]
    exact ⟨(h.addBuied c.ID).record _ _, ⟨hc.fd, rfl, fun hf => by cases hf⟩,
      fun _ => ⟨rfl, rfl, rfl⟩, fun ha _ => ha⟩
  · simp only [Bool.not_eq_true] at hl
    simp only [hl, ↓reduceIte]
    exact quiet_same h hc _ _ _ _ _

include hg

theorem verdict_housed {text : Text} (hset : RequestHoused g text) (l l' : Locals) :
    (scanRequest l text = scanRequest l' text ∧ Housed g (scanRequest l text)) ∨
      (verdict g (scanRequest l text) = .refuse ∧ verdict g' (scanRequest l' text) = .refuse) := by
  obtain ⟨hset, hhoused⟩ := hset
  rcases hset with h6 | hall
  · have hblank := scanRequest_complete h6 l (blankLocals 0)
    exact Or.inl ⟨scanRequest_complete h6 l l', by rw [hblank]; exact hhoused 0⟩
  · right
    have htypes' : ∀ i < g'.num, (g'.row i 0).type ≠ [] := by
      intro i hi
      rw [← h.num] at hi
      rw [← first_row_same h hg hi]
      exact hg.type_ne i hi
    constructor
    · by_contra hn
      exact verdict_blank hg.type_ne hn (hall _)
    · by_contra hn
      exact verdict_blank htypes' hn (by rw [← verdict_same h hg (hhoused _)]; exact hall _)

theorem sold_same {c c' : Conn} (hc : SameConn c c') (hl : c.iflogin = true) (info : Text) {i : ℕ} {r : Request}
    (hv : verdict g r = .sell i) (hr : Housed g r) : SameAnswer .buy g g' (sold g c info i r) (sold g' c' info i r) := by
  obtain ⟨hx, hvalid, hf, hle, -⟩ := verdict_eq_sell.mp hv
  obtain ⟨hi, -⟩ := findType_eq_some hf
  have hsame := purchase_same h hg hi (hr hx hvalid i hf hle) (hle.trans (hg.type_num_le i hi)) c.ID
  refine ⟨?_, ⟨hc.fd, rfl, fun hf => by cases hf⟩, fun _ => ⟨rfl, rfl, rfl⟩, fun ha hcap => ?_⟩
  · simp only [sold, ← hc.ID hl]
    exact hsame.record _ _
  · simp only [sold, record_alcohol, purchase_alcohol, ha, hcap]

theorem server_buy_same {c c' : Conn} (hc : SameConn c c') {beyond beyond' : ℕ → ID} {text : Text}
    (hbuy : c.iflogin = true ∧ check_day_of_week g beyond c.ID = true → RequestHoused g text) (l l' : Locals) :
    SameAnswer .buy g g' (server_buy l beyond g c text) (server_buy l' beyond' g' c' text) := by
  simp only [server_buy_eq, ← hc.iflogin]
  by_cases hl : c.iflogin = true
  · rw [← hc.ID hl, ← check_day_same h hg beyond beyond']
    by_cases hd : check_day_of_week g beyond c.ID = true
    · simp only [hl, hd, and_self, ↓reduceIte]
      rcases verdict_housed h hg (hbuy ⟨hl, hd⟩) l l' with ⟨hscan, hhoused⟩ | ⟨hr, hr'⟩
      · rw [← hscan, ← verdict_same h hg hhoused]
        cases hv : verdict g (scanRequest l text) with
        | refuse => exact quiet_same h hc _ _ _ _ _
        | unknown => exact quiet_same h hc _ _ _ _ _
        | sell i => exact sold_same h hg hc hl text hv hhoused
      · rw [hr, hr']
        exact quiet_same h hc _ _ _ _ _
    · simp only [hd, Bool.false_eq_true, and_false, ↓reduceIte]
      exact quiet_same h hc _ _ _ _ _
  · simp only [hl, Bool.false_eq_true, false_and, ↓reduceIte]
    exact quiet_same h hc _ _ _ _ _

theorem mask_server_same {c c' : Conn} (hc : SameConn c c') {beyond beyond' : ℕ → ID} {text : Text}
    (hlogin : kind text = .login → c.iflogin = true ∨ IDSettled text)
    (hbuy : kind text = .buy → c.iflogin = true ∧ check_day_of_week g beyond c.ID = true → RequestHoused g text)
    (l l' : Locals) : SameAnswer (kind text) g g' (mask_server l beyond g c text)
      (mask_server l' beyond' g' c' text) := by
  rw [mask_server_eq, mask_server_eq]
  cases hk : kind text with
  | display =>
    simp only [server_show, show_info_same h hg, write_info_same h hg]
    exact quiet_same h hc _ _ _ _ _
  | statics =>
    refine ⟨h.record _ _, hc, fun ha => ?_, fun ha _ => ha⟩
    simp only [server_statics, ha rfl, and_self]
  | invalid => exact quiet_same h hc _ _ _ _ _
  | login => exact server_login_same h hc (hlogin hk) l l'
  | logout => exact server_logout_same h hc
  | buy => exact server_buy_same h hg hc (hbuy hk) l l'

end Command

def SameInput (e e' : Event) : Prop := e.conn = e'.conn ∧ e.text = e'.text

/-- Neither the locals nor the memory around the arrays decide about the command. -/
def Determined (s : Server) (e : Event) : Prop :=
  ¬ Overruns s e ∧
    (kind e.text = .login → (s.conns e.conn).iflogin = true ∨ IDSettled e.text) ∧
    (kind e.text = .buy → (s.conns e.conn).iflogin = true ∧
      check_day_of_week s.globals e.beyond (s.conns e.conn).ID = true → RequestHoused s.globals e.text)

structure Matched (s s' : Server) : Prop where
  alcohol : s.globals.alcohol = s'.globals.alcohol
  capacity : s.globals.alcohol_capacity = s'.globals.alcohol_capacity
  log : s.globals.writeToResult = s'.globals.writeToResult

structure TwinStep (q q' : Handled) : Prop where
  input : SameInput q.event q'.event
  pre : Twin q.pre q'.pre
  post : Twin q.post q'.post
  reply : kind q.event.text ≠ .statics → q.out.writes = q'.out.writes ∧
    ∃ t, q.post.globals.writeToResult = q.pre.globals.writeToResult ++ t ∧
      q'.post.globals.writeToResult = q'.pre.globals.writeToResult ++ t
  matched : Matched q.pre q'.pre → q.out.writes = q'.out.writes ∧ Matched q.post q'.post

theorem inArrays_step {s : Server} {e : Event} (h : InArrays s.globals) (hroom : ¬ Overruns s e) :
    InArrays (server.step s e).1.globals := by
  have hsame := same_step s e
  have hlabel (i : ℕ) : ((server.step s e).1.globals.row i 0).type_num = (s.globals.row i 0).type_num ∧
      ((server.step s e).1.globals.row i 0).type = (s.globals.row i 0).type := by
    have hl := hsame.label (100 * i + 0)
    simp only [Inv.label, Prod.mk.injEq] at hl
    exact ⟨hl.2.1, hl.2.2.2.1⟩
  refine ⟨hsame.num.trans_le h.num_le, fun i hi => ?_, fun i hi => ?_, ?_⟩
  · rw [(hlabel i).1]
    exact h.type_num_le i (hsame.num ▸ hi)
  · rw [(hlabel i).2]
    exact h.type_ne i (hsame.num ▸ hi)
  · have hlt (hrec : Records e.locals e.beyond s.globals (s.conns e.conn) e.text) :
        s.globals.buied_num < BUY_ID_NUM := not_le.mp fun hle => hroom ⟨hrec, hle⟩
    have hle := h.room
    have hdid := mask_server_did e.locals e.beyond s.globals (s.conns e.conn) e.text
    have hrecords := records_iff e.locals e.beyond s.globals (s.conns e.conn) e.text
    rw [server_step]
    generalize mask_server e.locals e.beyond s.globals (s.conns e.conn) e.text = o at hdid hrecords ⊢
    cases hdid with
    | nothing t rejects globals conn quiet => simpa [globals] using hle
    | login t command out valid globals conn answer => simpa [globals] using hle
    | logout t command login globals conn answer =>
      have hn := hlt (hrecords.mp (Or.inl answer))
      simp only [globals, record_buied_num, addBuied_buied_num]
      omega
    | buy i t command login day sells globals conn answer =>
      have hn := hlt (hrecords.mp (Or.inr answer))
      simp only [globals, record_buied_num, purchase_buied_num]
      split_ifs <;> omega

theorem twin_step {s s' : Server} {e e' : Event} (h : Twin s s') (hs : InArrays s.globals)
    (he : SameInput e e') (hd : Determined s e) : TwinStep (server.moment s e) (server.moment s' e') := by
  obtain ⟨k', t', l', beyond'⟩ := e'
  obtain ⟨rfl, rfl⟩ := he
  obtain ⟨hroom, hlogin, hbuy⟩ := hd
  have hsame : SameAnswer (kind e.text) s.globals s'.globals
      (mask_server e.locals e.beyond s.globals (s.conns e.conn) e.text)
      (mask_server l' beyond' s'.globals (s'.conns e.conn) e.text) :=
    mask_server_same h.globals hs (h.conns e.conn) hlogin hbuy e.locals l'
  have htwin : Twin (server.step s e).1 (server.step s' ⟨e.conn, e.text, l', beyond'⟩).1 := by
    refine ⟨hsame.globals, fun k => ?_⟩
    rw [server_step, server_step]
    by_cases hk : k = e.conn
    · subst hk
      simpa using hsame.conn
    · simpa [hk] using h.conns k
  have hlog := mask_server_log e.locals e.beyond s.globals (s.conns e.conn) e.text
  have hlog' := mask_server_log l' beyond' s'.globals (s'.conns e.conn) e.text
  have hrecord (ha : kind e.text = .statics → s.globals.alcohol = s'.globals.alcohol) :
      recordText s.globals (s.conns e.conn).fd (kind e.text)
          (mask_server e.locals e.beyond s.globals (s.conns e.conn) e.text) =
        recordText s'.globals (s'.conns e.conn).fd (kind e.text)
          (mask_server l' beyond' s'.globals (s'.conns e.conn) e.text) := by
    obtain ⟨-, hcommand, hresult⟩ := hsame.answer ha
    rw [recordText, recordText, recordHead, recordHead, ← recordPrefix_same h.globals, hcommand, hresult,
      (h.conns e.conn).fd]
  constructor
  case input => exact ⟨rfl, rfl⟩
  case pre => exact h
  case post => exact htwin
  case reply =>
    intro hk
    have hanswer (hk' : kind e.text = .statics) : s.globals.alcohol = s'.globals.alcohol := absurd hk' hk
    refine ⟨(hsame.answer hanswer).1, _, hlog, ?_⟩
    rw [hrecord hanswer]
    exact hlog'
  case matched =>
    intro hm
    have hanswer (_ : kind e.text = .statics) : s.globals.alcohol = s'.globals.alcohol := hm.alcohol
    refine ⟨(hsame.answer hanswer).1, hsame.supply hm.alcohol hm.capacity, ?_, ?_⟩
    · exact (same_step s e).capacity.trans (hm.capacity.trans (same_step s' _).capacity.symm)
    · refine hlog.trans (Eq.trans ?_ hlog'.symm)
      rw [hrecord hanswer]
      exact congrArg (· ++ _) hm.log

structure SameShop (b b' : Boot) : Prop where
  num : b.num = b'.num
  data : ∀ a : ℤ, 0 ≤ a → a < 1500 → b.data a = b'.data a
  day : b.day = b'.day
  fd : b.fd = b'.fd

theorem SameShop.start {b b' : Boot} (h : SameShop b b') : Twin b.start b'.start :=
  ⟨⟨h.num, h.data, h.day, rfl, rfl, rfl⟩, fun k => ⟨congrFun h.fd k, rfl, fun hl => by cases hl⟩⟩

theorem inArrays_start (b : Boot) : InArrays b.start.globals := by
  have hrow (i : ℕ) : b.start.globals.row i 0 = b.data (100 * i) := by simp [Boot.start, Boot.globals, Globals.row]
  refine ⟨b.num_le, fun i hi => ?_, fun i hi => ?_, Nat.zero_le _⟩
  · rw [hrow]
    exact b.type_num_le i hi
  · rw [hrow]
    exact (b.type_name i hi).1.1

theorem twin_run {b b' : Boot} (h : SameShop b b') {es es' : List Event} (hin : List.Forall₂ SameInput es es')
    (hd : ∀ q ∈ b.history es, Determined q.pre q.event) :
    (Twin (b.after es) (b'.after es') ∧ (b.capacity = b'.capacity → Matched (b.after es) (b'.after es'))) ∧
      List.Forall₂ (fun q q' => TwinStep q q' ∧ (b.capacity = b'.capacity → Matched q.pre q'.pre))
        (b.history es) (b'.history es') := by
  have hrun := server.abreast (N := server) (B := SameInput) (A := Determined)
    (R := fun s s' => (Twin s s' ∧ (b.capacity = b'.capacity → Matched s s')) ∧ InArrays s.globals)
    (Q := fun q q' => TwinStep q q' ∧ (b.capacity = b'.capacity → Matched q.pre q'.pre)) ?_
    ⟨⟨h.start, fun hc => ⟨hc, hc, rfl⟩⟩, inArrays_start b⟩ hin hd
  · exact ⟨hrun.1.1, hrun.2⟩
  · rintro s s' e e' ⟨⟨htwin, hmatched⟩, hs⟩ he hdet
    have hstep := twin_step htwin hs he hdet
    exact ⟨⟨⟨hstep.post, fun hc => (hstep.matched (hmatched hc)).2⟩, inArrays_step hs hdet.1⟩, hstep, hmatched⟩

end EmbeddedOS.Hw3
