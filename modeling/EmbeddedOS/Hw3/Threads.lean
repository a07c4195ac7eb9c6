import EmbeddedOS.Library.Sections
import EmbeddedOS.Hw3.History

/-!
The threads of `mask_server` under `all_mutex`: the handlers statement by statement, and the commands
they handle one at a time.
-/

namespace EmbeddedOS.Hw3

open CText Runs Sections

/-- What one thread has for itself. `wrote` is everything that it has passed to `write`. -/
structure Frame where
  conn : Conn
  buf : Text
  locals : Locals
  beyond : ℕ → ID
  info : Text
  write_info : Text
  tmp_ID : ID
  succ_fail : Bool
  request : Request
  found : Option ℕ
  wrote : List Text

/-- What `read` left in `buf`, and the memory that the handler finds. -/
structure Arrival where
  text : Text
  locals : Locals
  beyond : ℕ → ID

def Arrival.event (k : ℕ) (a : Arrival) : Event := ⟨k, a.text, a.locals, a.beyond⟩

abbrev Stmt := Globals × Frame → Globals × Frame

def assign (f : Globals → Frame → Frame) : Stmt := fun x => (x.1, f x.1 x.2)

def store (f : Frame → Globals → Globals) : Stmt := fun x => (f x.2 x.1, x.2)

def write (t : Frame → Text) : Stmt := assign fun _ fr => { fr with wrote := fr.wrote ++ [t fr] }

def append (t : Frame → Text) : Stmt := store fun fr g => { g with writeToResult := g.writeToResult ++ t fr }

def countResult : Stmt := store fun _ g => { g with result_index := int32 (g.result_index + 1) }

def block (fs : List Stmt) : Code (Globals × Frame) := fs.foldr .act .done

def onFrame (b : Globals → Frame → Bool) : Globals × Frame → Bool := fun x => b x.1 x.2

namespace Threads

def server_show : Code (Globals × Frame) := block [
  assign fun g fr => { fr with info := show_info g, write_info := write_info g },
  write fun fr => fr.info,
  assign fun g fr => { fr with info := recordHead 30 g fr.conn.fd (lit "show") },
  append fun fr => fr.info ++ (fr.write_info ++ [newline]),
  countResult]

def loginFails : Code (Globals × Frame) := block [
  assign fun _ fr => { fr with succ_fail := false },
  write fun _ => login_fail]

def server_login : Code (Globals × Frame) :=
  (Code.test (onFrame fun _ fr => !fr.conn.iflogin)
    (.act (assign fun _ fr => { fr with tmp_ID := scanID fr.locals fr.buf })
      (.test (onFrame fun _ fr => check_ID fr.locals.y fr.tmp_ID)
        (block [
          assign fun _ fr => { fr with conn := { fr.conn with iflogin := true } },
          assign fun _ fr => { fr with succ_fail := true },
          assign fun _ fr => { fr with conn := { fr.conn with ID := fr.tmp_ID } },
          write fun _ => login_succ])
        loginFails))
    loginFails).seq
  (.act (assign fun g fr => { fr with info := recordHead 50 g fr.conn.fd fr.buf })
    (.test (onFrame fun _ fr => fr.succ_fail)
      (block [append fun fr => fr.info ++ login_succ, countResult])
      (block [append fun fr => fr.info ++ login_fail, countResult])))

def storeID : Stmt := store fun fr g =>
  { g with buied_ID := fun i => if i.val = g.buied_num then fr.conn.ID else g.buied_ID i }

def countID : Stmt := store fun _ g => { g with buied_num := g.buied_num + 1 }

def endLogin : Stmt := assign fun _ fr => { fr with conn := { fr.conn with iflogin := false } }

def server_logout : Code (Globals × Frame) :=
  .act (assign fun g fr => { fr with info := recordHead 30 g fr.conn.fd (lit "logout") })
    (.test (onFrame fun _ fr => !fr.conn.iflogin)
      (block [write fun _ => logout_fail, append fun fr => fr.info ++ logout_fail, countResult])
      (block [endLogin, storeID, countID, write fun _ => logout_succ,
        append fun fr => fr.info ++ logout_succ, countResult]))

def buyFails : Code (Globals × Frame) := block [
  write fun _ => buy_fail,
  assign fun _ fr => { fr with info := fr.info ++ buy_fail }]

def addressed (fr : Frame) : ℤ := 100 * (fr.found.getD 0 : ℕ) + (fr.request.city_num - 1)

def take (f : Frame → Inv → Inv) : Stmt := store fun fr g =>
  { g with data := Function.update g.data (addressed fr) (f fr (g.data (addressed fr))) }

def sale : Code (Globals × Frame) :=
  (block [
    take fun fr r => { r with a := r.a - fr.request.mask_num 0 },
    take fun fr r => { r with b := r.b - fr.request.mask_num 1 },
    take fun fr r => { r with c := r.c - fr.request.mask_num 2 },
    write fun _ => disinfect,
    store fun _ g => { g with alcohol := int32 (g.alcohol - 1) }]).seq
  ((Code.test (onFrame fun g _ => g.alcohol < 5)
      (block [store fun _ g => { g with alcohol := g.alcohol_capacity }]) .done).seq
  ((block [
    write fun _ => putting_mask,
    write fun _ => thankyou,
    assign fun _ fr => { fr with info := fr.info ++ purchaseInfo },
    storeID,
    countID,
    endLogin,
    store fun _ g => { g with day := int32 (g.day + 1) }]).seq
  (Code.test (onFrame fun g _ => g.day = 8)
    (block [
      store fun _ g => { g with day := 1 },
      store fun _ g => { g with buied_ID := fun _ _ => 32 },
      store fun _ g => { g with buied_num := 0 }]) .done)))

def buyFrom : Code (Globals × Frame) :=
  .test (onFrame fun g fr => (g.row (fr.found.getD 0) 0).type_num < fr.request.city_num) buyFails
    (.test (onFrame fun g fr => (g.data (addressed fr)).a < fr.request.mask_num 0 ∨
        (g.data (addressed fr)).b < fr.request.mask_num 1 ∨ (g.data (addressed fr)).c < fr.request.mask_num 2)
      buyFails sale)

def buyRequest : Code (Globals × Frame) :=
  .act (assign fun _ fr => { fr with request := scanRequest fr.locals fr.buf })
    (.test (onFrame fun _ fr => startsWith (lit "XXX") fr.request.type) buyFails
      (.test (onFrame fun _ fr => fr.request.mask_num 0 > 3 ∨ fr.request.mask_num 1 > 3 ∨
          fr.request.mask_num 2 > 3) buyFails
        (.test (onFrame fun _ fr => fr.request.mask_num 0 < 0 ∨ fr.request.mask_num 1 < 0 ∨
            fr.request.mask_num 2 < 0) buyFails
          (.test (onFrame fun _ fr => fr.request.mask_num 0 + fr.request.mask_num 1 + fr.request.mask_num 2 > 3)
            buyFails
            (.act (assign fun g fr => { fr with found := findType g fr.request.type })
              (.test (onFrame fun _ fr => fr.found.isSome) buyFrom .done))))))

def server_buy : Code (Globals × Frame) :=
  .act (assign fun g fr => { fr with info := recordHead 50 g fr.conn.fd fr.buf })
    ((Code.test (onFrame fun _ fr => !fr.conn.iflogin) buyFails
      (.test (onFrame fun g fr => !check_day_of_week g fr.beyond fr.conn.ID) buyFails buyRequest)).seq
    (block [append fun fr => fr.info, countResult]))

def server_statics : Code (Globals × Frame) := block [
  assign fun g fr => { fr with info := snprintf 10 (decimal g.alcohol ++ [newline]) },
  write fun fr => fr.info,
  assign fun g fr => { fr with info := snprintf 30 (recordPrefix g fr.conn.fd ++
    (lit "statics," ++ (decimal g.alcohol ++ [newline]))) },
  append fun fr => fr.info,
  countResult]

def server_invalid : Code (Globals × Frame) := block [
  write fun _ => invalid,
  assign fun g fr => { fr with info := recordHead 30 g fr.conn.fd (lit "exit") },
  append fun fr => fr.info ++ invalid,
  countResult]

def mask_server (a : Arrival) : Code (Globals × Frame) :=
  .act (assign fun _ fr => { fr with buf := a.text, locals := a.locals, beyond := a.beyond })
    (.test (onFrame fun _ fr => startsWith (lit "show") fr.buf) server_show
    (.test (onFrame fun _ fr => startsWith (lit "login") fr.buf) server_login
    (.test (onFrame fun _ fr => startsWith (lit "logout") fr.buf) server_logout
    (.test (onFrame fun _ fr => startsWith (lit "buy") fr.buf) server_buy
    (.test (onFrame fun _ fr => startsWith (lit "statics") fr.buf) server_statics
      server_invalid)))))

end Threads

structure Performs (x y : Globals × Frame) (o : Outcome) : Prop where
  globals : y.1 = o.globals
  conn : y.2.conn = o.conn
  wrote : y.2.wrote = x.2.wrote ++ o.writes

theorem run_block_cons (f : Stmt) (fs : List Stmt) (x : Globals × Frame) :
    (block (f :: fs)).run x = (block fs).run (f x) := rfl

theorem run_block_nil (x : Globals × Frame) : (block []).run x = x := rfl

namespace Threads

variable (g : Globals) (fr : Frame)

theorem server_show_performs : Performs (g, fr) (server_show.run (g, fr)) (Hw3.server_show g fr.conn) :=
  ⟨rfl, rfl, rfl⟩

theorem server_statics_performs :
    Performs (g, fr) (server_statics.run (g, fr)) (Hw3.server_statics g fr.conn) := ⟨rfl, rfl, rfl⟩

theorem server_invalid_performs :
    Performs (g, fr) (server_invalid.run (g, fr)) (Hw3.server_invalid g fr.conn) := ⟨rfl, rfl, rfl⟩

theorem server_login_performs : Performs (g, fr) (server_login.run (g, fr))
    (Hw3.server_login fr.locals g fr.conn fr.buf) := by
  cases hl : fr.conn.iflogin with
  | true =>
    constructor <;>
      simp [server_login, Hw3.server_login, hl, Code.run_seq, onFrame, loginFails, block, assign, write, append,
        store, countResult, Globals.record]
  | false =>
    by_cases hc : check_ID fr.locals.y (scanID fr.locals fr.buf) = true
    · constructor <;>
        simp [server_login, Hw3.server_login, hl, hc, Code.run_seq, onFrame, block, assign, write, append,
          store, countResult, Globals.record]
    · constructor <;>
        simp [server_login, Hw3.server_login, hl, hc, Code.run_seq, onFrame, loginFails, block, assign, write,
          append, store, countResult, Globals.record]

theorem server_logout_performs : Performs (g, fr) (server_logout.run (g, fr)) (Hw3.server_logout g fr.conn) := by
  cases hl : fr.conn.iflogin with
  | true =>
    constructor <;>
      simp [server_logout, Hw3.server_logout, hl, onFrame, block, assign, write, append, store, storeID, countID,
        endLogin, countResult, Globals.record, Globals.addBuied]
  | false =>
    constructor <;>
      simp [server_logout, Hw3.server_logout, hl, onFrame, block, assign, write, append, store, countResult,
        Globals.record]

theorem take_take (f f' : Frame → Inv → Inv) (x : Globals × Frame) :
    take f' (take f x) = take (fun fr r => f' fr (f fr r)) x := by
  simp [take, store]

theorem sale_run {i : ℕ} (hi : fr.found = some i) : sale.run (g, fr) = (purchase g i fr.request fr.conn.ID,
    { fr with
      conn := { fr.conn with iflogin := false }
      info := fr.info ++ purchaseInfo
      wrote := fr.wrote ++ saleWrites }) := by
  have hplace : addressed fr = 100 * i + (fr.request.city_num - 1) := by simp [addressed, hi]
  simp only [sale, Code.run_seq, run_block_cons, run_block_nil, take_take, Code.run_test]
  simp only [take, store, assign, write, storeID, countID, endLogin, onFrame, hplace, decide_eq_true_eq]
  split_ifs with ha hd hd <;>
    simp_all [purchase, Globals.addBuied, Globals.row, saleWrites]

structure Ends (x y : Globals × Frame) (g : Globals) (conn : Conn) (info : Text) (writes : List Text) : Prop where
  globals : y.1 = g
  conn : y.2.conn = conn
  info : y.2.info = x.2.info ++ info
  wrote : y.2.wrote = x.2.wrote ++ writes

theorem buyFails_ends : Ends (g, fr) (buyFails.run (g, fr)) g fr.conn buy_fail [buy_fail] := ⟨rfl, rfl, rfl, rfl⟩

theorem buyFrom_ends {i : ℕ} (hi : fr.found = some i) :
    if fr.request.city_num ≤ (g.row i 0).type_num ∧ fr.request.Stocked g i then
      Ends (g, fr) (buyFrom.run (g, fr)) (purchase g i fr.request fr.conn.ID) { fr.conn with iflogin := false }
        purchaseInfo saleWrites
    else Ends (g, fr) (buyFrom.run (g, fr)) g fr.conn buy_fail [buy_fail] := by
  have hplace : g.data (addressed fr) = g.row i (fr.request.city_num - 1) := by simp [addressed, hi, Globals.row]
  by_cases hc : (g.row i 0).type_num < fr.request.city_num
  · rw [if_neg (fun h => absurd h.1 (not_le.mpr hc))]
    have hrun : buyFrom.run (g, fr) = buyFails.run (g, fr) := by simp [buyFrom, onFrame, hi, hc]
    rw [hrun]
    exact buyFails_ends g fr
  · by_cases hs : fr.request.Stocked g i
    · rw [if_pos ⟨not_lt.mp hc, hs⟩]
      have hn := (stocked_iff _ _ _).mp hs
      have hrun : buyFrom.run (g, fr) = sale.run (g, fr) := by
        simp only [buyFrom, onFrame, hi, Option.getD_some, hplace, Code.run_test, hc, hn, decide_false,
          Bool.false_eq_true, ↓reduceIte]
      rw [hrun, sale_run g fr hi]
      exact ⟨rfl, rfl, rfl, rfl⟩
    · rw [if_neg (fun h => hs h.2)]
      have hn := not_not.mp (mt (stocked_iff g i fr.request).mpr hs)
      have hrun : buyFrom.run (g, fr) = buyFails.run (g, fr) := by
        simp only [buyFrom, onFrame, hi, Option.getD_some, hplace, Code.run_test, hc, hn, decide_false, decide_true,
          Bool.false_eq_true, ↓reduceIte]
      rw [hrun]
      exact buyFails_ends g fr

theorem buyRequest_ends : match verdict g (scanRequest fr.locals fr.buf) with
    | .refuse => Ends (g, fr) (buyRequest.run (g, fr)) g fr.conn buy_fail [buy_fail]
    | .unknown => Ends (g, fr) (buyRequest.run (g, fr)) g fr.conn [] []
    | .sell i => Ends (g, fr) (buyRequest.run (g, fr)) (purchase g i (scanRequest fr.locals fr.buf) fr.conn.ID)
        { fr.conn with iflogin := false } purchaseInfo saleWrites := by
  generalize hr : scanRequest fr.locals fr.buf = r
  have hfails : Ends (g, fr) (buyFails.run (g, { fr with request := r })) g fr.conn buy_fail [buy_fail] :=
    ⟨rfl, rfl, rfl, rfl⟩
  by_cases hx : startsWith (lit "XXX") r.type = true
  · have hrun : buyRequest.run (g, fr) = buyFails.run (g, { fr with request := r }) := by
      simp [buyRequest, onFrame, assign, hr, hx]
    rw [verdict_refuse (fun h => by simp [hx] at h), hrun]
    exact hfails
  · by_cases hv : r.Valid
    · obtain ⟨h1, h2, h3⟩ := (valid_iff r).mp hv
      have hrun : buyRequest.run (g, fr) = (Code.test (onFrame fun _ fr => fr.found.isSome) buyFrom .done).run
          (g, { fr with request := r, found := findType g r.type }) := by
        simp only [buyRequest, onFrame, assign, Code.run_act, Code.run_test, hr, hx, h1, h2, h3, decide_false,
          Bool.false_eq_true, ↓reduceIte]
      rw [verdict_named (by simpa using hx) hv, hrun]
      cases hf : findType g r.type with
      | none => exact ⟨rfl, rfl, by simp [onFrame], by simp [onFrame]⟩
      | some i =>
        have hfrom := buyFrom_ends g { fr with request := r, found := some i } rfl
        have hrun' : (Code.test (onFrame fun _ fr => fr.found.isSome) buyFrom .done).run
            (g, { fr with request := r, found := some i }) =
              buyFrom.run (g, { fr with request := r, found := some i }) := rfl
        rw [hrun']
        by_cases hi : r.city_num ≤ (g.row i 0).type_num ∧ r.Stocked g i
        · simp only [if_pos hi] at hfrom ⊢
          exact ⟨hfrom.globals, hfrom.conn, hfrom.info, hfrom.wrote⟩
        · simp only [if_neg hi] at hfrom ⊢
          exact ⟨hfrom.globals, hfrom.conn, hfrom.info, hfrom.wrote⟩
    · have hrun : buyRequest.run (g, fr) = buyFails.run (g, { fr with request := r }) := by
        simp only [buyRequest, onFrame, assign, Code.run_act, Code.run_test, hr, hx, Bool.false_eq_true, ↓reduceIte,
          decide_eq_true_eq]
        split_ifs with h1 h2 h3
        · rfl
        · rfl
        · rfl
        all_goals exact absurd ((valid_iff r).mpr ⟨h1, h2, h3⟩) hv
      rw [verdict_refuse (fun h => hv h.2), hrun]
      exact hfails

theorem Ends.performs {x y : Globals × Frame} {g' : Globals} {conn : Conn} {info : Text} {writes : List Text}
    (h : Ends x y g' conn info writes) (command result : Text) :
    Performs x ((block [append fun fr => fr.info, countResult]).run y)
      ⟨g'.record (x.2.info ++ info), conn, writes, command, result⟩ := by
  obtain ⟨hg, hc, hi, hw⟩ := h
  constructor
  · simp [block, append, countResult, store, hg, hi, Globals.record]
  · simpa [block, append, countResult, store] using hc
  · simpa [block, append, countResult, store] using hw

theorem server_buy_performs : Performs (g, fr) (server_buy.run (g, fr))
    (Hw3.server_buy fr.locals fr.beyond g fr.conn fr.buf) := by
  let fr' : Frame := { fr with info := recordHead 50 g fr.conn.fd fr.buf }
  have hrefused : Performs (g, fr) ((block [append fun fr => fr.info, countResult]).run (buyFails.run (g, fr')))
      (refused g fr.conn fr.buf) := by
    have h := (buyFails_ends g fr').performs fr.buf buy_fail
    exact ⟨h.globals, h.conn, h.wrote⟩
  rw [server_buy_eq]
  by_cases hl : fr.conn.iflogin = true
  · by_cases hd : check_day_of_week g fr.beyond fr.conn.ID = true
    · have hrun : server_buy.run (g, fr) =
          (block [append fun fr => fr.info, countResult]).run (buyRequest.run (g, fr')) := by
        simp [server_buy, Code.run_seq, onFrame, assign, hl, hd, fr']
      rw [if_pos ⟨hl, hd⟩, hrun]
      have hends := buyRequest_ends g fr'
      change match verdict g (scanRequest fr.locals fr.buf) with | .refuse => _ | .unknown => _ | .sell i => _ at hends
      cases hv : verdict g (scanRequest fr.locals fr.buf) with
      | refuse =>
        rw [hv] at hends
        have h := hends.performs fr.buf buy_fail
        exact ⟨h.globals, h.conn, h.wrote⟩
      | unknown =>
        rw [hv] at hends
        have h := hends.performs fr.buf []
        rw [List.append_nil] at h
        exact ⟨h.globals, h.conn, h.wrote⟩
      | sell i =>
        rw [hv] at hends
        have h := hends.performs fr.buf purchaseInfo
        exact ⟨h.globals, h.conn, h.wrote⟩
    · have hrun : server_buy.run (g, fr) =
          (block [append fun fr => fr.info, countResult]).run (buyFails.run (g, fr')) := by
        simp [server_buy, Code.run_seq, onFrame, assign, hl, hd, fr']
      rw [if_neg (fun h => hd h.2), hrun]
      exact hrefused
  · have hrun : server_buy.run (g, fr) =
        (block [append fun fr => fr.info, countResult]).run (buyFails.run (g, fr')) := by
      simp [server_buy, Code.run_seq, onFrame, assign, hl, fr']
    rw [if_neg (fun h => hl h.1), hrun]
    exact hrefused

theorem performs_test {x y : Globals × Frame} {b : Globals × Frame → Bool} {c d : Code (Globals × Frame)}
    {o o' : Outcome} (hc : Performs x (c.run y) o) (hd : Performs x (d.run y) o') :
    Performs x ((Code.test b c d).run y) (if b y then o else o') := by
  rw [Code.run_test]
  split_ifs
  · exact hc
  · exact hd

theorem mask_server_performs (a : Arrival) : Performs (g, fr) ((mask_server a).run (g, fr))
    (Hw3.mask_server a.locals a.beyond g fr.conn a.text) := by
  let fr' : Frame := { fr with buf := a.text, locals := a.locals, beyond := a.beyond }
  have h : Performs (g, fr') ((mask_server a).run (g, fr)) (Hw3.mask_server a.locals a.beyond g fr.conn a.text) := by
    unfold Hw3.mask_server
    apply performs_test (server_show_performs g fr')
    apply performs_test (server_login_performs g fr')
    apply performs_test (server_logout_performs g fr')
    apply performs_test (server_buy_performs g fr')
    apply performs_test (server_statics_performs g fr')
    exact server_invalid_performs g fr'
  exact ⟨h.globals, h.conn, h.wrote⟩

end Threads

abbrev Schedule := List (Turn ℕ Arrival)

structure Crew (b : Boot) where
  frame : ℕ → Frame
  conn : ∀ k, (frame k).conn = b.start.conns k
  wrote : ∀ k, (frame k).wrote = []

namespace Crew

variable {b : Boot} (c : Crew b) (ts : Schedule)

abbrev after : State ℕ Globals Frame Arrival := Sections.after Threads.mask_server b.globals c.frame ts

def handled : List Event := (entries Threads.mask_server b.globals c.frame ts).map fun q => q.2.event q.1

def received (k : ℕ) : List Event :=
  ((notes Threads.mask_server b.globals c.frame ts).filterMap (Note.taken k)).map (Arrival.event k)

end Crew

def sentTo (h : List Handled) (k : ℕ) : List Text :=
  (h.filter fun q => q.event.conn = k).flatMap fun q => q.out.writes

structure Together (b : Boot) (es : List Event) (x : Globals × (ℕ → Frame)) : Prop where
  globals : x.1 = (b.after es).globals
  conn : ∀ k, (x.2 k).conn = (b.after es).conns k
  wrote : ∀ k, (x.2 k).wrote = sentTo (b.history es) k

theorem together_serial {b : Boot} (c : Crew b) (qs : List (ℕ × Arrival)) :
    Together b (qs.map fun q => q.2.event q.1)
      ((serial Threads.mask_server).run (b.globals, c.frame) qs) := by
  induction qs using List.reverseRecOn with
  | nil => exact ⟨rfl, c.conn, c.wrote⟩
  | append_singleton qs q ih =>
    rw [List.map_append, List.map_singleton, Machine.run_snoc]
    generalize (serial Threads.mask_server).run (b.globals, c.frame) qs = x at ih ⊢
    generalize qs.map (fun q => q.2.event q.1) = es at ih ⊢
    obtain ⟨k, a⟩ := q
    obtain ⟨g, own⟩ := x
    obtain ⟨hglobals, hconn, hwrote⟩ := ih
    obtain rfl : g = (b.after es).globals := hglobals
    have hp := Threads.mask_server_performs (b.after es).globals (own k) a
    rw [hconn] at hp
    have hafter : b.after (es ++ [a.event k]) = (server.step (b.after es) (a.event k)).1 :=
      server.run_snoc b.start es (a.event k)
    have hhistory : b.history (es ++ [a.event k]) = b.history es ++ [server.moment (b.after es) (a.event k)] :=
      server.trace_snoc b.start es (a.event k)
    constructor
    · rw [hafter]
      exact hp.globals
    · intro j
      rw [hafter]
      by_cases hj : j = k
      · subst hj
        simpa [serial, server, Arrival.event] using hp.conn
      · simpa [serial, server, Arrival.event, hj] using hconn j
    · intro j
      rw [hhistory, sentTo, List.filter_append, List.flatMap_append, ← sentTo, ← hwrote]
      by_cases hj : j = k
      · subst hj
        simpa [serial, server, Machine.moment, Arrival.event] using hp.wrote
      · simp [serial, Machine.moment, Arrival.event, hj, Ne.symm hj]

structure Crew.Atomic {b : Boot} (c : Crew b) (ts : Schedule) : Prop where
  alone : ∀ j k rest rest', (c.after ts).status j = .inside rest → (c.after ts).status k = .inside rest' → j = k
  order : ∀ k, (c.handled ts).filter (fun e => e.conn = k) <+: c.received ts k
  settled : Together b (c.handled ts) (c.after ts).settled
  free : (c.after ts).mutex = none → Together b (c.handled ts) ((c.after ts).shared, (c.after ts).own)

theorem filter_handled (qs : List (ℕ × Arrival)) (k : ℕ) :
    (qs.map fun q => q.2.event q.1).filter (fun e => e.conn = k) =
      ((qs.filter fun q => q.1 = k).map Prod.snd).map (Arrival.event k) := by
  induction qs with
  | nil => rfl
  | cons q qs ih =>
    by_cases hq : q.1 = k
    · simpa [hq, Arrival.event] using ih
    · simpa [hq, Arrival.event] using ih

theorem together_settled {b : Boot} (c : Crew b) (ts : Schedule) :
    Together b (c.handled ts) (c.after ts).settled := by
  rw [Crew.after, settled_after]
  exact together_serial c _

theorem together_free {b : Boot} (c : Crew b) (ts : Schedule) (hfree : (c.after ts).mutex = none) :
    Together b (c.handled ts) ((c.after ts).shared, (c.after ts).own) := by
  have h := together_settled c ts
  rwa [settled_free hfree] at h

theorem commands_atomic {b : Boot} (c : Crew b) (ts : Schedule) : c.Atomic ts := by
  refine ⟨?_, ?_, together_settled c ts, together_free c ts⟩
  · intro j k rest rest' hj hk
    exact (guarded_after Threads.mask_server b.globals c.frame ts).alone hj hk
  · intro k
    have htaken := taken_after Threads.mask_server b.globals c.frame ts k
    rw [Crew.received, Crew.handled, htaken, filter_handled, List.map_append]
    exact List.prefix_append _ _

end EmbeddedOS.Hw3
