import EmbeddedOS.Hw3.History

namespace EmbeddedOS.Hw3

open CText Runs Shop

theorem emod_succ (a : ℤ) {m : ℤ} (hm : 0 < m) :
    (a + 1) % m = if a % m = m - 1 then 0 else a % m + 1 := by
  have hl := Int.emod_nonneg a hm.ne'
  have hu := Int.emod_lt_of_pos a hm
  rw [← Int.emod_add_emod]
  split_ifs with h
  · simp [h]
  · exact Int.emod_eq_of_lt (by omega) (by omega)

theorem next_iterate (capacity : ℤ) {d : ℤ} (hd : 1 ≤ d ∧ d ≤ 7) (n : ℕ) :
    (rules capacity).next^[n] d = (d - 1 + n) % 7 + 1 := by
  induction n with
  | zero => simp only [Function.iterate_zero, id_eq, Nat.cast_zero]; omega
  | succ n ih =>
    have hi : IsInt32 ((d - 1 + n) % 7 + 1) := by simp only [IsInt32]; omega
    have hi' : IsInt32 ((d - 1 + n) % 7 + 1 + 1) := by simp only [IsInt32]; omega
    rw [Function.iterate_succ_apply', ih]
    simp only [rules, int32_of_isInt32 hi']
    split_ifs <;> push_cast <;> omega

theorem use_iterate_large {capacity : ℤ} (hi : IsInt32 capacity) (hc : 5 ≤ capacity) (n : ℕ) :
    (rules capacity).use^[n] capacity = capacity - n % (capacity - 4) := by
  induction n with
  | zero => simp
  | succ n ih =>
    have hl := Int.emod_nonneg (n : ℤ) (show capacity - 4 ≠ 0 by omega)
    have hu := Int.emod_lt_of_pos (n : ℤ) (show 0 < capacity - 4 by omega)
    have hi' : IsInt32 (capacity - n % (capacity - 4) - 1) := by
      simp only [IsInt32] at hi ⊢
      omega
    rw [Function.iterate_succ_apply', ih, Nat.cast_succ, emod_succ _ (by omega)]
    simp only [rules, int32_of_isInt32 hi']
    split_ifs <;> omega

theorem use_iterate_small {capacity : ℤ} (hi : IsInt32 capacity) (hmin : -2 ^ 31 < capacity)
    (hc : capacity < 5) (n : ℕ) : (rules capacity).use^[n] capacity = capacity := by
  apply Function.iterate_fixed
  have hi' : IsInt32 (capacity - 1) := by
    simp only [IsInt32] at hi ⊢
    omega
  simp only [rules, int32_of_isInt32 hi']
  split_ifs <;> omega

theorem mask_server_index (l : Locals) (beyond : ℕ → ID) (g : Globals) (c : Conn) (buf : Text) :
    (mask_server l beyond g c buf).globals.result_index = int32 (g.result_index + 1) := by
  cases mask_server_did l beyond g c buf with
  | nothing t rejects globals conn quiet => simp [globals]
  | login t command out valid globals conn answer => simp [globals]
  | logout t command login globals conn answer => simp [globals]
  | buy i t command login day sells globals conn answer => simp [globals, purchase_index]

theorem result_index_eq (b : Boot) (es : List Event) :
    (b.after es).globals.result_index = int32 es.length := by
  induction es using List.reverseRecOn with
  | nil => rfl
  | append_singleton es e ih =>
    rw [Boot.after, Machine.run_snoc, server_step, mask_server_index]
    rw [Boot.after] at ih
    rw [ih, int32_succ]
    simp

theorem day_after {b : Boot} {es : List Event} (hday : 1 ≤ b.day ∧ b.day ≤ 7) (h : b.RunFits es) :
    (b.after es).globals.day = (b.day - 1 + (b.history es).countP isSale) % 7 + 1 := by
  obtain ⟨hR, hmarks⟩ := refines_run b es h
  rw [← hR.day, (day_eq _ _ _).1, hmarks, sales_eq]
  exact next_iterate _ hday _

theorem alcohol_after {b : Boot} {es : List Event} (h : b.RunFits es) :
    (b.after es).globals.alcohol = (rules b.capacity).use^[(b.history es).countP isSale] b.capacity := by
  obtain ⟨hR, hmarks⟩ := refines_run b es h
  rw [← hR.supplies, (day_eq _ _ _).2, hmarks, sales_eq]
  rfl

theorem recorded_eq {b : Boot} {es : List Event} (h : b.RunFits es) (beyond : ℕ → ID) :
    (b.after es).globals.recorded beyond = weekIDs (b.history es) := by
  obtain ⟨hR, hmarks⟩ := refines_run b es h
  rw [← hR.bought beyond, bought_eq _ _ rfl, hmarks, periodList_eq]

theorem weekIDs_length (h : List Handled) : (weekIDs h).length =
    (sinceLast rollover h).countP (fun q => decide (q.out.Sold ∨ q.out.LoggedOut)) := by
  rw [weekIDs, List.length_filterMap_eq_countP]
  apply List.countP_congr
  intro q _
  by_cases hq : q.out.Sold ∨ q.out.LoggedOut <;> simp [recordedID, hq]

theorem weekIDs_rollover {h : List Handled} (hr : ∃ q ∈ h.getLast?, rollover q = true) :
    weekIDs h = [] := by
  obtain ⟨q, hq, hr⟩ := hr
  obtain ⟨h', rfl⟩ := List.getLast?_eq_some_iff.mp hq
  rw [weekIDs_snoc, if_pos hr]

theorem counters_closed_form (b : Boot) (es : List Event) (hday : 1 ≤ b.day ∧ b.day ≤ 7)
    (hmin : -2 ^ 31 < b.capacity) (hm : es.length < 2 ^ 31) (hweek : b.WithinRecord es) :
    let g := (b.after es).globals
    let h := b.history es
    let n : ℤ := h.countP isSale
    g.day = (b.day - 1 + n) % 7 + 1 ∧
      (5 ≤ b.capacity → g.alcohol = b.capacity - n % (b.capacity - 4) ∧
        5 ≤ g.alcohol ∧ g.alcohol ≤ b.capacity) ∧
      (b.capacity < 5 → g.alcohol = b.capacity) ∧
      g.result_index = es.length ∧
      g.buied_num =
        (sinceLast rollover h).countP (fun q => decide (q.out.Sold ∨ q.out.LoggedOut)) ∧
      (∀ beyond, g.recorded beyond = weekIDs h) ∧
      ((∃ q ∈ h.getLast?, rollover q = true) → g.buied_num = 0) := by
  intro g h n
  have ha := alcohol_after hweek.fits
  have hnum : g.buied_num = (weekIDs h).length := buied_num_eq b es
  refine ⟨day_after hday hweek.fits, ?_, ?_, ?_, ?_, ?_, ?_⟩
  · intro hc
    have hl := Int.emod_nonneg n (show b.capacity - 4 ≠ 0 by omega)
    have hu := Int.emod_lt_of_pos n (show 0 < b.capacity - 4 by omega)
    have he : g.alcohol = b.capacity - n % (b.capacity - 4) := by
      exact ha.trans (use_iterate_large b.capacity_int hc _)
    exact ⟨he, by omega, by omega⟩
  · intro hc
    exact ha.trans (use_iterate_small b.capacity_int hmin hc _)
  · rw [result_index_eq, int32_of_isInt32]
    simp only [IsInt32]
    omega
  · rw [hnum, weekIDs_length]
  · exact recorded_eq hweek.fits
  · intro hr
    rw [hnum, weekIDs_rollover hr, List.length_nil]

theorem counters_closed_form_visit : (sampleShop.after visit).globals.day = 2 ∧
    (sampleShop.after visit).globals.alcohol = 49 := by
  have h := counters_closed_form sampleShop visit (by decide) (by decide) (by decide)
    (withinRecord_of_length (by decide))
  have hn : (sampleShop.history visit).countP isSale = 1 := by decide
  simp only [hn] at h
  exact ⟨h.1, (h.2.1 (by decide)).1⟩

/-- Every store into `buied_ID` and every load of the scan falls inside of the array. -/
def Boot.RecordSafe (b : Boot) (es : List Event) : Prop :=
  b.RunFits es ∧ ∀ fs, fs <+: es → (b.after fs).globals.buied_num ≤ BUY_ID_NUM ∧
    ∀ i ∈ List.range (b.after fs).globals.buied_num, i < BUY_ID_NUM

def Boot.RecordsInRoom (b : Boot) (es : List Event) : Prop :=
  ∀ fs e, fs ++ [e] <+: es →
    Records e.locals e.beyond (b.after fs).globals ((b.after fs).conns e.conn) e.text →
    (weekIDs (b.history fs)).length < BUY_ID_NUM

theorem fits_iff (s : Server) (e : Event) : Fits s e ↔
    (Records e.locals e.beyond s.globals (s.conns e.conn) e.text →
      s.globals.buied_num < BUY_ID_NUM) := by
  rw [Fits, server_step, records_iff]

theorem runFits_iff (b : Boot) (es : List Event) : b.RunFits es ↔ b.RecordsInRoom es := by
  constructor
  · intro h fs e hfs hrec
    obtain ⟨gs, rfl⟩ := hfs
    have hq := (fits_iff _ _).mp (h (server.moment (b.after fs) e)
      (mem_history_iff.mpr ⟨fs, e, gs, by simp, rfl⟩)) hrec
    rw [← buied_num_eq]
    exact hq
  · intro h q hq
    obtain ⟨fs, e, gs, rfl, rfl⟩ := mem_history_iff.mp hq
    apply (fits_iff _ _).mpr
    intro hrec
    change (b.after fs).globals.buied_num < BUY_ID_NUM
    rw [buied_num_eq]
    exact h fs e ⟨gs, by simp⟩ hrec

theorem Boot.RunFits.initial {b : Boot} {es fs : List Event} (h : b.RunFits es) (hfs : fs <+: es) :
    b.RunFits fs := by
  obtain ⟨gs, rfl⟩ := hfs
  intro q hq
  apply h q
  rw [Boot.history, Machine.trace_append]
  exact List.mem_append_left _ hq

theorem recordSafe_iff (b : Boot) (es : List Event) : b.RecordSafe es ↔ b.RecordsInRoom es := by
  rw [← runFits_iff]
  refine ⟨fun h => h.1, fun h => ⟨h, fun fs hfs => ?_⟩⟩
  have hroom := (refines_run b fs (h.initial hfs)).1.room
  exact ⟨hroom, fun i hi => lt_of_lt_of_le (List.mem_range.mp hi) hroom⟩

def loginEvent : Event := ask 0 (lit "login A123456789")
def logoutEvent : Event := ask 0 (lit "logout")
def loginLogout : List Event := [loginEvent, logoutEvent]

theorem loginEvent_step (s : Server) (h : (s.conns 0).iflogin = false) :
    ((server.step s loginEvent).1.conns 0).iflogin = true ∧
      (server.step s loginEvent).1.globals.buied_num = s.globals.buied_num := by
  have hkind : kind (lit "login A123456789") = .login := by decide
  have hid : check_ID 0 (scanID (ask 0 []).locals (lit "login A123456789")) = true := by decide
  simp only [loginEvent, ask] at hid ⊢
  simp [server_step, mask_server_eq, hkind, server_login, h, hid]

theorem logoutEvent_step (s : Server) (h : (s.conns 0).iflogin = true) :
    ((server.step s logoutEvent).1.conns 0).iflogin = false ∧
      (server.step s logoutEvent).1.globals.buied_num = s.globals.buied_num + 1 := by
  have hkind : kind (lit "logout") = .logout := by decide
  simp [logoutEvent, ask, server_step, mask_server_eq, hkind, server_logout, h]

theorem loginLogout_step (s : Server) (h : (s.conns 0).iflogin = false) :
    ((server.run s loginLogout).conns 0).iflogin = false ∧
      (server.run s loginLogout).globals.buied_num = s.globals.buied_num + 1 := by
  have hin := loginEvent_step s h
  have hout := logoutEvent_step _ hin.1
  rw [hin.2] at hout
  exact hout

theorem loginLogout_run (b : Boot) (n : ℕ) :
    ((b.after (List.replicate n loginLogout).flatten).conns 0).iflogin = false ∧
      (b.after (List.replicate n loginLogout).flatten).globals.buied_num = n := by
  induction n with
  | zero => exact ⟨rfl, rfl⟩
  | succ n ih =>
    have hstep := loginLogout_step _ ih.1
    rw [List.replicate_succ', List.flatten_append, Boot.after, Machine.run_append]
    simp only [List.flatten_cons, List.flatten_nil, List.append_nil]
    exact ⟨hstep.1, by rw [hstep.2, ih.2]⟩

theorem recordSafe_fails :
    ¬ sampleShop.RecordSafe (List.replicate (BUY_ID_NUM + 1) loginLogout).flatten := by
  intro h
  have hroom := (h.2 _ (List.prefix_refl _)).1
  rw [(loginLogout_run sampleShop (BUY_ID_NUM + 1)).2] at hroom
  omega

end EmbeddedOS.Hw3
