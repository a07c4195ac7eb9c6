import EmbeddedOS.Hw2.Server
import EmbeddedOS.Hw3.Determined

/-!
The server of `hw3.cpp` with a capacity of 50 is the server of `server.cpp`, and the capacity shows in
`statics` only: in every run of one memory, and, where every command is determined, in runs whose memory
differs, as it does between the two programs.
-/

namespace EmbeddedOS.Hw2Server

open CText Runs
open Hw3 (ID Conn Locals Event Boot Request Handled SameConn SameInput SameShop Twin TwinStep Matched Determined)

def forget (g : Hw3.Globals) : Globals where
  num := g.num
  data := fun a => plain (g.data a)
  day := g.day
  alcohol := g.alcohol
  buied_num := g.buied_num
  buied_ID := g.buied_ID
  writeToResult := g.writeToResult
  result_index := g.result_index

def forgetOutcome (o : Hw3.Outcome) : Outcome := ⟨forget o.globals, o.conn, o.writes, o.command, o.result⟩

def forgetServer (s : Hw3.Server) : Server := ⟨forget s.globals, s.conns⟩

theorem memset_all (s : ID) (c : Byte) : memset s c 10 = fun _ => c := by
  funext j
  exact if_pos j.isLt

theorem plain_update (d : ℤ → Hw3.Inv) (k : ℤ) (row : Hw3.Inv) :
    Function.update (fun a => plain (d a)) k (plain row) = fun a => plain (Function.update d k row a) :=
  (Function.comp_update plain d k row).symm

theorem forget_purchase {g : Hw3.Globals} (hcapacity : g.alcohol_capacity = 50) (i : ℕ) (r : Request) (x : ID) :
    purchase (forget g) i r x = forget (Hw3.purchase g i r x) := by
  have hdata := plain_update g.data (100 * i + (r.city_num - 1))
    { g.row i (r.city_num - 1) with
      a := (g.row i (r.city_num - 1)).a - r.mask_num 0
      b := (g.row i (r.city_num - 1)).b - r.mask_num 1
      c := (g.row i (r.city_num - 1)).c - r.mask_num 2 }
  unfold purchase Hw3.purchase
  simp only [hcapacity, memset_all]
  change (if int32 (g.day + 1) = 8 then _ else _) = forget (if int32 (g.day + 1) = 8 then _ else _)
  by_cases hday : int32 (g.day + 1) = 8
  · rw [if_pos hday, if_pos hday]
    apply Globals.ext
    case data => exact hdata
    all_goals rfl
  · rw [if_neg hday, if_neg hday]
    apply Globals.ext
    case data => exact hdata
    all_goals rfl

section Handlers

variable (l : Locals) (beyond : ℕ → ID) (g : Hw3.Globals) (c : Conn)

theorem forget_cities (i : ℕ) : cities (forget g) i = (Hw3.cities g i).map plain := by
  simp only [cities, Hw3.cities, List.map_map]
  rfl

theorem forget_show_info : show_info (forget g) = Hw3.show_info g := by
  simp only [show_info, Hw3.show_info, forget_cities, List.flatMap_map]
  rfl

theorem forget_write_info : write_info (forget g) = Hw3.write_info g := by
  simp only [write_info, Hw3.write_info, forget_cities, List.flatMap_map]
  rfl

theorem forget_show : server_show (forget g) c = forgetOutcome (Hw3.server_show g c) := by
  simp only [server_show, Hw3.server_show, forget_show_info, forget_write_info]
  rfl

theorem forget_login (buf : Text) :
    server_login l (forget g) c buf = forgetOutcome (Hw3.server_login l g c buf) := by
  simp only [server_login, Hw3.server_login]
  split_ifs
  · rfl
  · rfl
  · rfl

theorem forget_logout : server_logout (forget g) c = forgetOutcome (Hw3.server_logout g c) := by
  simp only [server_logout, Hw3.server_logout]
  split_ifs
  · rfl
  · rfl

theorem forget_buy (hcapacity : g.alcohol_capacity = 50) (info : Text) :
    server_buy l beyond (forget g) c info = forgetOutcome (Hw3.server_buy l beyond g c info) := by
  have hday : check_day_of_week (forget g) beyond c.ID = Hw3.check_day_of_week g beyond c.ID := rfl
  have htype (type : Text) : findType (forget g) type = Hw3.findType g type := rfl
  simp only [server_buy, Hw3.server_buy, hday, htype, forget_purchase hcapacity]
  split_ifs
  · rfl
  · rfl
  · rfl
  · rfl
  · rfl
  · rfl
  · obtain ⟨r, hr⟩ : ∃ r, r = Hw3.scanRequest l info := ⟨_, rfl⟩
    rw [← hr]
    cases Hw3.findType g r.type with
    | none => rfl
    | some i =>
      have hrow (j : ℤ) : (forget g).row i j = plain (g.row i j) := rfl
      simp only [hrow]
      by_cases hcity : (g.row i 0).type_num < r.city_num
      · simp only [plain, hcity, ↓reduceIte]
        rfl
      · by_cases hstock : (g.row i (r.city_num - 1)).a < r.mask_num 0 ∨
            (g.row i (r.city_num - 1)).b < r.mask_num 1 ∨ (g.row i (r.city_num - 1)).c < r.mask_num 2
        · simp only [plain, hcity, hstock, ↓reduceIte]
          rfl
        · simp only [plain, hcity, hstock, ↓reduceIte]
          rfl

theorem forget_mask_server (hcapacity : g.alcohol_capacity = 50) (buf : Text) :
    mask_server l beyond (forget g) c buf = forgetOutcome (Hw3.mask_server l beyond g c buf) := by
  unfold mask_server Hw3.mask_server
  split_ifs
  · exact forget_show g c
  · exact forget_login l g c buf
  · exact forget_logout g c
  · exact forget_buy l beyond g c hcapacity buf
  · rfl
  · rfl

end Handlers

theorem forget_step {s : Hw3.Server} (hcapacity : s.globals.alcohol_capacity = 50) (e : Event) :
    server.step (forgetServer s) e =
      (forgetServer (Hw3.server.step s e).1, forgetOutcome (Hw3.server.step s e).2) := by
  have h := forget_mask_server e.locals e.beyond s.globals (s.conns e.conn) hcapacity e.text
  simp only [server, Hw3.server, forgetServer, h, forgetOutcome]

structure SameSales (s t : Hw3.Server) : Prop where
  num : s.globals.num = t.globals.num
  data : s.globals.data = t.globals.data
  day : s.globals.day = t.globals.day
  buied_num : s.globals.buied_num = t.globals.buied_num
  buied_ID : s.globals.buied_ID = t.globals.buied_ID
  result_index : s.globals.result_index = t.globals.result_index
  conns : s.conns = t.conns

def supply (g : Hw3.Globals) (alcohol capacity : ℤ) (log : Text) : Hw3.Globals :=
  { g with alcohol := alcohol, alcohol_capacity := capacity, writeToResult := log }

theorem sameSales_iff {s t : Hw3.Server} :
    SameSales s t ↔ ∃ a C w, t = ⟨supply s.globals a C w, s.conns⟩ := by
  constructor
  · intro h
    obtain ⟨g, conns⟩ := s
    obtain ⟨g', conns'⟩ := t
    obtain ⟨num, data, day, buied_num, buied_ID, result_index, hconns⟩ := h
    cases g
    cases g'
    simp only at num data day buied_num buied_ID result_index hconns
    subst num data day buied_num buied_ID result_index hconns
    exact ⟨_, _, _, rfl⟩
  · rintro ⟨a, C, w, rfl⟩
    exact ⟨rfl, rfl, rfl, rfl, rfl, rfl, rfl⟩

structure SameAnswer (k : Hw3.Kind) (o o' : Hw3.Outcome) : Prop where
  globals : ∃ a C w, o'.globals = supply o.globals a C w
  conn : o'.conn = o.conn
  answer : k ≠ .statics → o'.writes = o.writes ∧ o'.command = o.command ∧ o'.result = o.result

section Supply

variable (l : Locals) (beyond : ℕ → ID) (g : Hw3.Globals) (c : Conn) (buf : Text) (a C : ℤ) (w : Text)

theorem supply_purchase (i : ℕ) (r : Request) (x : ID) :
    ∃ a', Hw3.purchase (supply g a C w) i r x = supply (Hw3.purchase g i r x) a' C w := by
  unfold Hw3.purchase
  by_cases hday : int32 (g.day + 1) = 8
  · simp only [supply, Hw3.Globals.addBuied, Hw3.Globals.row, hday, ↓reduceIte]
    exact ⟨_, rfl⟩
  · simp only [supply, Hw3.Globals.addBuied, Hw3.Globals.row, hday, ↓reduceIte]
    exact ⟨_, rfl⟩

theorem supply_mask_server : SameAnswer (Hw3.kind buf) (Hw3.mask_server l beyond g c buf)
    (Hw3.mask_server l beyond (supply g a C w) c buf) := by
  have hsame {k : Hw3.Kind} {o o' : Hw3.Outcome} (hg : ∃ a C w, o'.globals = supply o.globals a C w)
      (ho : o' = { o with globals := o'.globals }) : SameAnswer k o o' := by
    rw [ho]
    exact ⟨hg, rfl, fun _ => ⟨rfl, rfl, rfl⟩⟩
  rw [Hw3.mask_server_eq, Hw3.mask_server_eq]
  cases Hw3.kind buf with
  | display => exact hsame ⟨_, _, _, rfl⟩ rfl
  | statics => exact ⟨⟨_, _, _, rfl⟩, rfl, fun h => absurd rfl h⟩
  | invalid => exact hsame ⟨_, _, _, rfl⟩ rfl
  | login =>
    simp only [Hw3.server_login]
    split_ifs
    · exact hsame ⟨_, _, _, rfl⟩ rfl
    · exact hsame ⟨_, _, _, rfl⟩ rfl
    · exact hsame ⟨_, _, _, rfl⟩ rfl
  | logout =>
    simp only [Hw3.server_logout]
    split_ifs
    · exact hsame ⟨_, _, _, rfl⟩ rfl
    · exact hsame ⟨_, _, _, rfl⟩ rfl
  | buy =>
    have hday : Hw3.check_day_of_week (supply g a C w) beyond c.ID = Hw3.check_day_of_week g beyond c.ID := rfl
    have hverdict (r : Request) : Hw3.verdict (supply g a C w) r = Hw3.verdict g r := rfl
    simp only [Hw3.server_buy_eq, hday, hverdict]
    split_ifs
    · cases Hw3.verdict g (Hw3.scanRequest l buf) with
      | refuse => exact hsame ⟨_, _, _, rfl⟩ rfl
      | unknown => exact hsame ⟨_, _, _, rfl⟩ rfl
      | sell i =>
        obtain ⟨a', h⟩ := supply_purchase g a C w i (Hw3.scanRequest l buf) c.ID
        simp only [Hw3.sold, h]
        exact hsame ⟨_, _, _, rfl⟩ rfl
    · exact hsame ⟨_, _, _, rfl⟩ rfl

end Supply

structure SameCommand (q q' : Handled) : Prop where
  event : q.event = q'.event
  pre : SameSales q.pre q'.pre
  post : SameSales q.post q'.post
  writes : Hw3.kind q.event.text ≠ .statics → q.out.writes = q'.out.writes
  record : Hw3.kind q.event.text ≠ .statics →
    ∃ t, q.post.globals.writeToResult = q.pre.globals.writeToResult ++ t ∧
      q'.post.globals.writeToResult = q'.pre.globals.writeToResult ++ t

theorem sameCommand_step {s t : Hw3.Server} (e : Event) (h : SameSales s t) :
    SameCommand (Hw3.server.moment s e) (Hw3.server.moment t e) := by
  obtain ⟨a, C, w, rfl⟩ := sameSales_iff.mp h
  obtain ⟨⟨a', C', w', hglobals⟩, hconn, hanswer⟩ :=
    supply_mask_server e.locals e.beyond s.globals (s.conns e.conn) e.text a C w
  constructor
  case event => rfl
  case pre => exact h
  case post =>
    apply sameSales_iff.mpr
    refine ⟨a', C', w', ?_⟩
    simp only [Machine.moment, Hw3.server_step, hglobals, hconn]
  case writes => exact fun hk => (hanswer hk).1.symm
  case record =>
    intro hk
    obtain ⟨-, hcommand, hresult⟩ := hanswer hk
    refine ⟨_, Hw3.mask_server_log .., ?_⟩
    rw [Machine.moment_post, Hw3.server_step, Hw3.mask_server_log]
    simp only [Hw3.recordText, hcommand, hresult]
    rfl

def withCapacity (b : Boot) (C : { n : ℤ // IsInt32 n }) : Boot := { b with capacity := C, capacity_int := C.2 }

theorem sameCommand_run (b : Boot) (C C' : { n : ℤ // IsInt32 n }) (es : List Event) :
    SameSales ((withCapacity b C).after es) ((withCapacity b C').after es) ∧
      List.Forall₂ SameCommand ((withCapacity b C).history es) ((withCapacity b C').history es) := by
  apply Hw3.server.lockstep
  · intro s t e h
    have hstep := sameCommand_step e h
    exact ⟨hstep.post, hstep⟩
  · exact ⟨rfl, rfl, rfl, rfl, rfl, rfl, rfl⟩

structure Forgets (q : Handled) (q' : Moment Server Event Outcome) : Prop where
  event : q'.event = q.event
  pre : q'.pre = forgetServer q.pre
  out : q'.out = forgetOutcome q.out
  post : q'.post = forgetServer q.post

theorem fifty_isInt32 : IsInt32 50 := by decide

def fifty : { n : ℤ // IsInt32 n } := ⟨50, fifty_isInt32⟩

theorem forgets_run (b : Boot) (es : List Event) :
    server.run (start b) es = forgetServer ((withCapacity b fifty).after es) ∧
      List.Forall₂ Forgets ((withCapacity b fifty).history es) (server.trace (start b) es) := by
  have h := Hw3.server.lockstep (N := server) (Q := Forgets)
    (R := fun s t => t = forgetServer s ∧ s.globals.alcohol_capacity = 50) (s := (withCapacity b fifty).start)
    (t := start b) ?_ ⟨rfl, rfl⟩ es
  · exact ⟨h.1.1, h.2⟩
  · rintro s t e ⟨rfl, hcapacity⟩
    have hstep := forget_step hcapacity e
    have hpost := congrArg Prod.fst hstep
    have hout := congrArg Prod.snd hstep
    exact ⟨⟨hpost, (Hw3.same_step s e).capacity.trans hcapacity⟩, rfl, rfl, hout, hpost⟩

structure SameState (s : Hw3.Server) (t : Server) : Prop where
  num : s.globals.num = t.globals.num
  data : ∀ a : ℤ, 0 ≤ a → a < 1500 → plain (s.globals.data a) = t.globals.data a
  day : s.globals.day = t.globals.day
  alcohol : s.globals.alcohol = t.globals.alcohol
  buied_num : s.globals.buied_num = t.globals.buied_num
  buied_ID : s.globals.buied_ID = t.globals.buied_ID
  log : s.globals.writeToResult = t.globals.writeToResult
  result_index : s.globals.result_index = t.globals.result_index
  conns : ∀ k, SameConn (s.conns k) (t.conns k)

structure SameStep (q : Handled) (q' : Moment Server Event Outcome) : Prop where
  input : SameInput q.event q'.event
  pre : SameState q.pre q'.pre
  post : SameState q.post q'.post
  writes : q.out.writes = q'.out.writes

/-- The alcohol does not influence the sales, and a capacity of 50 gives the older server. -/
structure Extends (b b' : Boot) (es es' : List Event) : Prop where
  sales : Twin (b.after es) (b'.after es') ∧ List.Forall₂ TwinStep (b.history es) (b'.history es')
  older : SameState ((withCapacity b fifty).after es) (server.run (start b') es') ∧
    List.Forall₂ SameStep ((withCapacity b fifty).history es) (server.trace (start b') es')

theorem sameState_forget {s s' : Hw3.Server} (h : Twin s s') (hm : Matched s s') : SameState s (forgetServer s') where
  num := h.globals.num
  data a ha ha' := congrArg plain (h.globals.data a ha ha')
  day := h.globals.day
  alcohol := hm.alcohol
  buied_num := h.globals.buied_num
  buied_ID := h.globals.buied_ID
  log := hm.log
  result_index := h.globals.result_index
  conns := h.conns

theorem determined_supply {s t : Hw3.Server} (h : SameSales s t) {e : Event} (hd : Determined s e) :
    Determined t e := by
  obtain ⟨a, C, w, rfl⟩ := sameSales_iff.mp h
  exact hd

theorem determined_fifty {b : Boot} {es : List Event} (hd : ∀ q ∈ b.history es, Determined q.pre q.event) :
    ∀ q ∈ (withCapacity b fifty).history es, Determined q.pre q.event := by
  intro q hq
  obtain ⟨fs, e, gs, rfl, rfl⟩ := Hw3.mem_history_iff.mp hq
  have hfirst := hd (Hw3.server.moment (b.after fs) e) (Hw3.mem_history_iff.mpr ⟨fs, e, gs, rfl, rfl⟩)
  exact determined_supply (sameCommand_run b ⟨b.capacity, b.capacity_int⟩ fifty fs).1 hfirst

theorem forall₂_through {α β γ : Type*} {R : α → β → Prop} {S : β → γ → Prop} {T : α → γ → Prop}
    (h : ∀ x y z, R x y → S y z → T x z) {l : List α} {m : List β} {n : List γ} (hR : List.Forall₂ R l m)
    (hS : List.Forall₂ S m n) : List.Forall₂ T l n := by
  induction hR generalizing n with
  | nil =>
    cases hS
    exact .nil
  | cons hxy _ ih =>
    cases hS with
    | cons hyz hrest => exact .cons (h _ _ _ hxy hyz) (ih hrest)

theorem server_extended (b b' : Boot) (h : SameShop b b') (es es' : List Event)
    (hin : List.Forall₂ SameInput es es') :
    (∀ C C' : { n : ℤ // IsInt32 n },
      SameSales ((withCapacity b C).after es) ((withCapacity b C').after es) ∧
        List.Forall₂ SameCommand ((withCapacity b C).history es) ((withCapacity b C').history es)) ∧
    ((∀ q ∈ b.history es, Determined q.pre q.event) → Extends b b' es es') := by
  refine ⟨fun C C' => sameCommand_run b C C' es, fun hd => ?_⟩
  obtain ⟨htwin, hsteps⟩ := Hw3.twin_run h hin hd
  have hfifty : SameShop (withCapacity b fifty) (withCapacity b' fifty) := ⟨h.num, h.data, h.day, h.fd⟩
  obtain ⟨⟨htwin', hmatched⟩, hsteps'⟩ := Hw3.twin_run hfifty hin (determined_fifty hd)
  obtain ⟨hrun, htrace⟩ := forgets_run b' es'
  refine ⟨⟨htwin.1, hsteps.imp fun _ _ hq => hq.1⟩, ?_, ?_⟩
  · rw [hrun]
    exact sameState_forget htwin' (hmatched rfl)
  · refine forall₂_through ?_ hsteps' htrace
    rintro q q' q'' ⟨hq, hm⟩ hf
    obtain ⟨hwrites, hpost⟩ := hq.matched (hm rfl)
    refine ⟨?_, ?_, ?_, ?_⟩
    · rw [hf.event]
      exact hq.input
    · rw [hf.pre]
      exact sameState_forget hq.pre (hm rfl)
    · rw [hf.post]
      exact sameState_forget hq.post hpost
    · rw [hf.out]
      exact hwrites

def crowdedMemory : Boot where
  num := 1
  data a := if a = -1 then ⟨0, 9, 9, 9, 0, 0, [], []⟩ else Hw3.sampleData a
  num_le := Hw3.sampleShop.num_le
  type_num_le := Hw3.sampleShop.type_num_le
  type_name := Hw3.sampleShop.type_name
  city_name := by
    intro i hi j hj
    have hrow : (100 * (i : ℤ) + j) ≠ -1 := by omega
    rw [if_neg hrow]
    exact Hw3.sampleShop.city_name i hi j hj
  day := 1
  capacity := 50
  fd := Hw3.sampleShop.fd
  ID _ _ := 0
  day_int := Hw3.sampleShop.day_int
  capacity_int := Hw3.sampleShop.capacity_int
  fd_int := Hw3.sampleShop.fd_int

theorem crowdedMemory_same : SameShop Hw3.sampleShop crowdedMemory := by
  refine ⟨rfl, fun a ha _ => ?_, rfl, rfl⟩
  have hrow : a ≠ -1 := by omega
  exact (if_neg hrow).symm

theorem visit_determined : ∀ q ∈ Hw3.sampleShop.history Hw3.visit, Determined q.pre q.event := by
  intro q hq
  rcases List.mem_cons.mp hq with rfl | hq
  · exact ⟨by decide, fun _ => Or.inr ⟨by decide, by decide⟩, fun hk => absurd hk (by decide)⟩
  · obtain rfl := List.mem_singleton.mp hq
    refine ⟨by decide, fun hk => absurd hk (by decide), fun _ _ => ⟨Or.inl (by decide), fun x => ?_⟩⟩
    have hsix : (sscanf Hw3.buyFormat (lit "buy S1 1 1 1 1")).length = 6 := by decide
    have hscan := Hw3.scanRequest_complete hsix (Hw3.blankLocals x) (Hw3.blankLocals 0)
    have hcity : (Hw3.scanRequest (Hw3.blankLocals 0) (lit "buy S1 1 1 1 1")).city_num = 1 := by decide
    intro _ _ i _ _
    change 0 ≤ (Hw3.scanRequest (Hw3.blankLocals x) (lit "buy S1 1 1 1 1")).article i
    rw [hscan, Request.article, hcity]
    omega

theorem server_extended_visit : (server.run (start crowdedMemory) Hw3.visit).globals.day = 2 := by
  have hin : List.Forall₂ SameInput Hw3.visit Hw3.visit := List.forall₂_same.mpr fun _ _ => ⟨rfl, rfl⟩
  have h := (server_extended Hw3.sampleShop crowdedMemory crowdedMemory_same Hw3.visit Hw3.visit hin).2
    visit_determined
  rw [← h.older.1.day]
  decide

def frontBuy : List Event := [Hw3.loginEvent, Hw3.ask 0 (lit "buy S1 0 1 0 0")]

theorem server_extended_fails : SameShop Hw3.sampleShop crowdedMemory ∧
    ¬ Extends Hw3.sampleShop crowdedMemory frontBuy frontBuy := by
  refine ⟨crowdedMemory_same, fun h => ?_⟩
  exact absurd h.older.1.day (by decide)

end EmbeddedOS.Hw2Server
