import EmbeddedOS.Hw3.Refinement

namespace EmbeddedOS.Hw3

open CText Runs Shop

abbrev Handled := Moment Server Event Outcome

abbrev Boot.after (b : Boot) (es : List Event) : Server := server.run b.start es

abbrev Boot.history (b : Boot) (es : List Event) : List Handled := server.trace b.start es

def isSale (q : Handled) : Bool := decide q.out.Sold

def rollover (q : Handled) : Bool := decide (q.out.Sold ∧ q.pre.globals.day = 7)

def recordedID (q : Handled) : Option ID :=
  if q.out.Sold ∨ q.out.LoggedOut then some (q.pre.conns q.event.conn).ID else none

/-- The IDs recorded since the last accepted buy made on day 7, in order. -/
def weekIDs (h : List Handled) : List ID := (sinceLast rollover h).filterMap recordedID

theorem weekIDs_snoc (h : List Handled) (q : Handled) :
    weekIDs (h ++ [q]) = if rollover q then [] else weekIDs h ++ (recordedID q).toList := by
  unfold weekIDs
  rw [sinceLast_snoc]
  split_ifs
  · rfl
  · cases hq : recordedID q <;> simp [hq]

theorem mem_history_iff {b : Boot} {es : List Event} {q : Handled} : q ∈ b.history es ↔
    ∃ fs e gs, es = fs ++ e :: gs ∧ q = server.moment (b.after fs) e := server.mem_trace_iff

section Moments

variable {b : Boot} {es : List Event} {q : Handled}

theorem handled_pre (hq : q ∈ b.history es) : ∃ fs, fs <+: es ∧ q.pre = b.after fs := by
  obtain ⟨fs, e, gs, rfl, rfl⟩ := mem_history_iff.mp hq
  exact ⟨fs, List.prefix_append fs (e :: gs), rfl⟩

theorem handled_did (hq : q ∈ b.history es) : Did q.event.locals q.event.beyond q.pre.globals
    (q.pre.conns q.event.conn) q.event.text q.out := by
  obtain ⟨fs, e, gs, rfl, rfl⟩ := mem_history_iff.mp hq
  exact mask_server_did ..

theorem handled_post (hq : q ∈ b.history es) :
    q.post = ⟨q.out.globals, Function.update q.pre.conns q.event.conn q.out.conn⟩ := by
  obtain ⟨fs, e, gs, rfl, rfl⟩ := mem_history_iff.mp hq
  rfl

end Moments

def Inv.label (r : Inv) : ℤ × ℤ × ℤ × Text × Text := (r.line, r.type_num, r.sum, r.type, r.city)

structure Same (s s' : Server) : Prop where
  num : s'.globals.num = s.globals.num
  capacity : s'.globals.alcohol_capacity = s.globals.alcohol_capacity
  label : ∀ a, (s'.globals.data a).label = (s.globals.data a).label
  fd : ∀ k, (s'.conns k).fd = (s.conns k).fd

theorem Same.refl (s : Server) : Same s s := ⟨rfl, rfl, fun _ => rfl, fun _ => rfl⟩

theorem Same.trans {s s' s'' : Server} (h : Same s s') (h' : Same s' s'') : Same s s'' :=
  ⟨h'.num.trans h.num, h'.capacity.trans h.capacity, fun a => (h'.label a).trans (h.label a),
    fun k => (h'.fd k).trans (h.fd k)⟩

theorem purchase_label (g : Globals) (i : ℕ) (r : Request) (x : ID) (a : ℤ) :
    ((purchase g i r x).data a).label = (g.data a).label := by
  rw [purchase_data]
  by_cases h : a = r.article i
  · subst h
    simp [Inv.label]
  · simp [Function.update_of_ne h]

theorem same_step (s : Server) (e : Event) : Same s (server.step s e).1 := by
  have hdid := mask_server_did e.locals e.beyond s.globals (s.conns e.conn) e.text
  rw [server_step]
  generalize mask_server e.locals e.beyond s.globals (s.conns e.conn) e.text = o at hdid ⊢
  have hfd : o.conn.fd = (s.conns e.conn).fd →
      ∀ k, (Function.update s.conns e.conn o.conn k).fd = (s.conns k).fd := by
    intro h k
    by_cases hk : k = e.conn
    · subst hk
      simpa using h
    · simp [hk]
  cases hdid with
  | nothing t rejects globals conn quiet =>
    exact ⟨by simp [globals], by simp [globals], by simp [globals], hfd (by simp [conn])⟩
  | login t command out valid globals conn answer =>
    exact ⟨by simp [globals], by simp [globals], by simp [globals], hfd (by simp [conn])⟩
  | logout t command login globals conn answer =>
    exact ⟨by simp [globals], by simp [globals], by simp [globals], hfd (by simp [conn])⟩
  | buy i t command login day sells globals conn answer =>
    exact ⟨by simp [globals, purchase_num], by simp [globals, purchase_capacity],
      by simp [globals, purchase_label], hfd (by simp [conn])⟩

theorem same_after (b : Boot) (es : List Event) : Same b.start (b.after es) :=
  server.run_invariant (fun s e h => h.trans (same_step s e)) (Same.refl b.start) es

theorem day_isInt32 (b : Boot) (es : List Event) : IsInt32 (b.after es).globals.day := by
  refine server.run_invariant (P := fun s => IsInt32 s.globals.day) ?_ b.day_int es
  intro s e h
  have hdid := mask_server_did e.locals e.beyond s.globals (s.conns e.conn) e.text
  rw [server_step]
  generalize mask_server e.locals e.beyond s.globals (s.conns e.conn) e.text = o at hdid ⊢
  cases hdid with
  | nothing t rejects globals conn quiet => simpa [globals] using h
  | login t command out valid globals conn answer => simpa [globals] using h
  | logout t command login globals conn answer => simpa [globals] using h
  | buy i t command login day sells globals conn answer =>
    simp only [globals, record_day, purchase_day]
    split_ifs
    · decide
    · exact int32_isInt32 _

theorem login_checked (b : Boot) (es : List Event) (k : ℕ)
    (hk : ((b.after es).conns k).iflogin = true) : ∃ y, check_ID y ((b.after es).conns k).ID = true := by
  have hinv : ∀ k, ((b.after es).conns k).iflogin = true →
      ∃ y, check_ID y ((b.after es).conns k).ID = true := by
    refine server.run_invariant (P := fun s => ∀ k, (s.conns k).iflogin = true →
      ∃ y, check_ID y (s.conns k).ID = true) ?_ ?_ es
    · intro s e h k
      have hdid := mask_server_did e.locals e.beyond s.globals (s.conns e.conn) e.text
      rw [server_step]
      generalize mask_server e.locals e.beyond s.globals (s.conns e.conn) e.text = o at hdid ⊢
      by_cases hk : k = e.conn
      · subst hk
        cases hdid with
        | nothing t rejects globals conn quiet => simpa [conn] using h e.conn
        | login t command out valid globals conn answer => simpa [conn] using ⟨_, valid⟩
        | logout t command login globals conn answer => simp [conn]
        | buy i t command login day sells globals conn answer => simp [conn]
      · simpa [hk] using h k
    · intro k hk
      simp [Boot.start] at hk
  exact hinv k hk

theorem day_ends_iff {d : ℤ} (h : IsInt32 d) : int32 (d + 1) = 8 ↔ d = 7 := by
  simp only [IsInt32] at h
  constructor
  · intro hd
    by_cases hm : d + 1 < 2 ^ 31
    · rw [int32_of_isInt32 ⟨by omega, hm⟩] at hd
      omega
    · obtain rfl : d = 2 ^ 31 - 1 := by omega
      exact absurd hd (by decide)
  · rintro rfl
    decide

theorem buied_num_eq (b : Boot) (es : List Event) :
    (b.after es).globals.buied_num = (weekIDs (b.history es)).length := by
  induction es using List.reverseRecOn with
  | nil => rfl
  | append_singleton es e ih =>
    have hday := day_isInt32 b es
    have hdid := mask_server_did e.locals e.beyond (b.after es).globals ((b.after es).conns e.conn) e.text
    rw [Boot.after, Machine.run_snoc, Boot.history, Machine.trace_snoc, weekIDs_snoc, Machine.moment,
      server_step]
    simp only [rollover, recordedID]
    rw [Boot.after] at ih hday hdid
    generalize server.run b.start es = s at hday hdid ih ⊢
    generalize mask_server e.locals e.beyond s.globals (s.conns e.conn) e.text = o at hdid ⊢
    cases hdid with
    | nothing t rejects globals conn quiet => simp [globals, quiet.2.1, quiet.2.2, ih]
    | login t command out valid globals conn answer =>
      simp [globals, answer.not_sold, answer.not_loggedOut, ih]
    | logout t command login globals conn answer =>
      simp [globals, answer.not_sold, answer, ih]
    | buy i t command login day sells globals conn answer =>
      have he := day_ends_iff hday
      by_cases hd : s.globals.day = 7
      · rw [globals, record_buied_num, purchase_buied_num, if_pos (he.mpr hd)]
        simp [answer, hd]
      · simp [globals, answer, purchase_buied_num, mt he.mp hd, hd, ih]

theorem fits_of_room {s : Server} {e : Event} (h : s.globals.buied_num < BUY_ID_NUM) : Fits s e :=
  fun _ => h

def shopStart (b : Boot) : Shop.State ℕ ID ℤ ℤ ℤ where
  session _ := none
  day := b.day
  supplies := b.capacity
  bought := []
  stock a := (b.data a).count

def shopCommands (b : Boot) (es : List Event) : List (ℕ × Command ID ℤ) :=
  (b.history es).map fun q => (q.event.conn, shopCommand q.pre q.event)

theorem refines_start (b : Boot) : Refines b.start (shopStart b) :=
  ⟨fun _ => rfl, rfl, rfl, fun _ => rfl, fun _ => rfl, Nat.zero_le _⟩

/-- No command of the run stores past the end of `buied_ID`. -/
def Boot.RunFits (b : Boot) (es : List Event) : Prop := ∀ q ∈ b.history es, Fits q.pre q.event

theorem refines_run (b : Boot) (es : List Event) (h : b.RunFits es) :
    Refines (b.after es) ((shop (rules b.capacity)).run (shopStart b) (shopCommands b es)) ∧
      marks (rules b.capacity) (shopStart b) (shopCommands b es) = (b.history es).map momentMark := by
  have hsim := server.simulation (N := shop (rules b.capacity))
    (R := fun s t => Refines s t ∧ s.globals.alcohol_capacity = b.capacity)
    (f := fun s e => (e.conn, shopCommand s e)) (A := Fits)
    (Q := fun q q' => momentMark q = q'.out)
    (fun s t e hR hok =>
      have hs := refines_step b.capacity s t e hR.1 hR.2 hok
      ⟨⟨hs.1, (same_step s e).capacity.trans hR.2⟩, hs.2⟩)
    ⟨refines_start b, rfl⟩ h
  refine ⟨hsim.1.1, ?_⟩
  have hout := hsim.2
  rw [← List.forall₂_eq_eq_eq, marks, List.forall₂_map_left_iff, List.forall₂_map_right_iff]
  exact hout.flip.imp fun _ _ => Eq.symm

/-- Fewer than `BUY_ID_NUM` IDs are recorded in every week the run has begun. -/
def Boot.WithinRecord (b : Boot) (es : List Event) : Prop :=
  ∀ fs, fs <+: es → (weekIDs (b.history fs)).length < BUY_ID_NUM

theorem Boot.WithinRecord.fits {b : Boot} {es : List Event} (h : b.WithinRecord es) :
    b.RunFits es := by
  intro q hq
  obtain ⟨fs, e, gs, rfl, rfl⟩ := mem_history_iff.mp hq
  apply fits_of_room
  change (b.after fs).globals.buied_num < BUY_ID_NUM
  rw [buied_num_eq]
  exact h fs (List.prefix_append fs (e :: gs))

theorem day_of_mem {b : Boot} {es : List Event} {q : Handled} (hq : q ∈ b.history es) :
    IsInt32 q.pre.globals.day := by
  obtain ⟨fs, -, hpre⟩ := handled_pre hq
  rw [hpre]
  exact day_isInt32 b fs

theorem momentMark_isSale (q : Handled) : (momentMark q).isSale = isSale q := by
  unfold momentMark isSale
  by_cases hs : q.out.Sold
  · simp [mark_sold hs, hs, Mark.isSale]
  · unfold mark
    split_ifs <;> simp [hs, Mark.isSale]

theorem momentMark_identity (q : Handled) : (momentMark q).identity = recordedID q := by
  unfold momentMark recordedID
  by_cases hs : q.out.Sold
  · simp [mark_sold hs, hs, Mark.identity]
  · by_cases ho : q.out.LoggedOut
    · simp [mark_loggedOut ho, ho, Mark.identity]
    · by_cases hi : q.out.LoggedIn <;> simp [mark, hs, ho, hi, Mark.identity]

theorem momentMark_ends {q : Handled} (hday : IsInt32 q.pre.globals.day) (capacity : ℤ) :
    (momentMark q).ends (rules capacity) = rollover q := by
  unfold momentMark rollover
  by_cases hs : q.out.Sold
  · simp [mark_sold hs, hs, Mark.ends, rules, day_ends_iff hday]
  · unfold mark
    split_ifs <;> simp [hs, Mark.ends]

theorem periodList_eq (b : Boot) (es : List Event) (capacity : ℤ) :
    periodList (rules capacity) ((b.history es).map momentMark) = weekIDs (b.history es) := by
  have hreset : sinceLast (fun q => (momentMark q).ends (rules capacity)) (b.history es) =
      sinceLast rollover (b.history es) :=
    sinceLast_congr fun q hq => momentMark_ends (day_of_mem hq) capacity
  simp only [periodList, sinceLast_map, hreset, List.filterMap_map, weekIDs, Function.comp_def,
    momentMark_identity]

theorem sales_eq (h : List Handled) : sales (h.map momentMark) = h.countP isSale := by
  simp only [sales, List.countP_map, Function.comp_def, momentMark_isSale]

theorem weekIDs_length_le (h : List Handled) : (weekIDs h).length ≤ h.length := by
  induction h using List.reverseRecOn with
  | nil => simp [weekIDs]
  | append_singleton h q ih =>
    rw [weekIDs_snoc]
    split_ifs
    · simp
    · cases recordedID q <;> simp <;> omega

theorem withinRecord_of_length {b : Boot} {es : List Event} (h : es.length < BUY_ID_NUM) :
    b.WithinRecord es := by
  intro fs hfs
  have hw := weekIDs_length_le (b.history fs)
  rw [Machine.trace_length] at hw
  have hl := hfs.length_le
  omega

def sampleData (a : ℤ) : Inv :=
  if a = 0 then ⟨1, 9, 9, 9, 2, 27, lit "S1", lit "C1"⟩
  else if a = 1 then ⟨2, 9, 9, 9, 0, 27, [], lit "C2"⟩
  else ⟨0, 0, 0, 0, 0, 0, [], []⟩

def sampleShop : Boot where
  num := 1
  data := sampleData
  num_le := by decide
  type_num_le := by decide
  type_name := by decide +kernel
  city_name := by
    intro i hi j hj
    obtain rfl : i = 0 := by omega
    have hj2 : j < 2 := by
      have h2 : (sampleData (100 * (0 : ℕ))).type_num = 2 := by decide
      omega
    interval_cases j <;> decide +kernel
  day := 1
  capacity := 50
  fd k := k % 26 + 4
  ID _ _ := 0
  day_int := by decide
  capacity_int := by decide
  fd_int := by
    intro k
    simp only [IsInt32]
    omega

def ask (k : ℕ) (t : Text) : Event := ⟨k, t, ⟨fun _ => 0, 0, [], 0, fun _ => 0⟩, fun _ _ => 0⟩

def visit : List Event := [ask 0 (lit "login A123456789"), ask 0 (lit "buy S1 1 1 1 1")]

end EmbeddedOS.Hw3
