import EmbeddedOS.Hw3.Replay

/-!
The two passes that `main` of `checker.cpp` makes over one log: `check_1`, `clear` and `check_2`.
-/

namespace EmbeddedOS.Hw3

open CText Runs

def check_entry_1 (u : Scratch) (t : Checker) (e : Log_file) : Checker × Option Report :=
  if startsWith (lit "login ") e.command then check_login u t e
  else if e.command = lit "logout" then check_logout t e
  else if startsWith (lit "buy ") e.command then check_buy u t e
  else if e.command = lit "show" then (t, none)
  else if e.command = lit "statics" then (t, none)
  else (t, compare_results e (lit "Input format not valid."))

def check_1 (us : ℕ → Scratch) : Machine Checker Log_file (Option Report) where
  step t e :=
    let c := check_entry_1 (us t.log_files.length) t e
    ({ c.1 with log_files := t.log_files ++ [e] }, c.2)

def Checker.initial (mydata : DB) : Checker := ⟨fun _ => false, fun _ => [], mydata, [], [], []⟩

/-- `log_id` is left out: `check_history`, which reads it, is never called. -/
def clear (t : Checker) : Checker :=
  { t with
    log_static := fun i => if 0 ≤ i ∧ i < 100 then false else t.log_static i
    my_id := fun i => if 0 ≤ i ∧ i < 100 then [] else t.my_id i }

def Checker.again (t : Checker) (temp : DB) : Checker := { clear t with mydata := temp, log_files := [] }

def firstPass (us : ℕ → Scratch) (temp : DB) (log : List Log_file) : Checker :=
  (check_1 us).run (.initial temp) log

def BuyFields (command : Text) : Prop :=
  (skipInt (skipInt (skipInt (skipInt (getWord (some (command.drop 4)) []).2)))).isSome = true

instance (command : Text) : Decidable (BuyFields command) := inferInstanceAs (Decidable (_ = true))

structure Log_file.Legible (e : Log_file) : Prop where
  connfd : 0 ≤ e.connfd ∧ e.connfd < 100
  login : startsWith (lit "login ") e.command = true → 10 ≤ (e.command.drop 6).length
  buy : startsWith (lit "buy ") e.command = true → BuyFields e.command

def Identified (t : Checker) : Prop := ∀ fd, t.log_static fd = true → (t.my_id fd).length = 10

theorem judge_length {u : Scratch} {msg : Text} (h : judge_correction u msg = true) : msg.length ≤ 10 := by
  by_contra hlen
  rw [judge_correction, if_pos (by omega)] at h
  cases h

theorem idNum_eq {msg : Text} {i : ℕ} (h : i < msg.length) (u u' : Scratch) : idNum u msg i = idNum u' msg i := by
  simp only [idNum, List.getElem?_eq_getElem h]

theorem judge_correction_scratch {msg : Text} (h : 10 ≤ msg.length) (u u' : Scratch) :
    judge_correction u msg = judge_correction u' msg := by
  have hsum (Y : ℤ) : (List.range' 1 8).foldl (fun sum i => sum + idNum u msg i * (9 - i)) Y =
      (List.range' 1 8).foldl (fun sum i => sum + idNum u' msg i * (9 - i)) Y := by
    apply List.foldl_ext
    intro sum i hi
    have hi9 : i < 9 := by
      rw [List.mem_range'_1] at hi
      omega
    rw [idNum_eq (by omega) u u']
  simp only [judge_correction, hsum, idNum_eq (by omega : 9 < msg.length) u u']

theorem lastDigit_scratch {id : Text} (h : id.length = 10) (u u' : Scratch) : lastDigit u id = lastDigit u' id := by
  have hlt : 9 < (id ++ [0]).length := by
    rw [List.length_append]
    omega
  simp only [lastDigit, List.getD_eq_getElem _ _ hlt]

theorem scanBuy_scratch {command : Text} (h : BuyFields command) (u u' : Scratch) :
    scanBuy u command = scanBuy u' command := by
  unfold BuyFields at h
  have h2 := isSome_of_skipInt h
  have h1 := isSome_of_skipInt h2
  have h0 := isSome_of_skipInt h1
  simp only [scanBuy, getInt_skipInt, getInt_eq h0 (u.city_idx) (u'.city_idx), getInt_eq h1 (u.mask 0) (u'.mask 0),
    getInt_eq h2 (u.mask 1) (u'.mask 1), getInt_eq h (u.mask 2) (u'.mask 2)]

theorem check_login_scratch {e : Log_file} (h : 10 ≤ (e.command.drop 6).length) (u u' : Scratch) (t : Checker) :
    check_login u t e = check_login u' t e := by
  simp only [check_login, judge_correction_scratch h u u']

theorem admits_scratch {t : Checker} (ht : Identified t) (u u' : Scratch) (connfd : ℤ) :
    t.Admits u connfd ↔ t.Admits u' connfd := by
  unfold Checker.Admits
  apply and_congr_right
  intro hlogin
  rw [lastDigit_scratch (ht connfd hlogin) u u']

theorem check_buy_scratch {t : Checker} {e : Log_file} (ht : Identified t) (h : BuyFields e.command)
    (u u' : Scratch) : check_buy u t e = check_buy u' t e := by
  have hadmits := admits_scratch ht u u' e.connfd
  unfold Checker.Admits at hadmits
  simp only [check_buy, scanBuy_scratch h u u', hadmits]

theorem check_entry_1_scratch {t : Checker} {e : Log_file} (ht : Identified t) (h : e.Legible) (u u' : Scratch) :
    check_entry_1 u t e = check_entry_1 u' t e := by
  unfold check_entry_1
  split_ifs with hlogin hlogout hbuy
  · exact check_login_scratch (h.login hlogin) u u' t
  · rfl
  · exact check_buy_scratch ht (h.buy hbuy) u u'
  · rfl
  · rfl
  · rfl

def Checker.Accepts (u : Scratch) (t : Checker) (e : Log_file) : Prop :=
  startsWith (lit "buy ") e.command = true ∧ t.Admits u e.connfd ∧ (scanBuy u e.command).Valid ∧
    ∃ q, t.mydata.mask (scanBuy u e.command).store (scanBuy u e.command).city_idx = some q ∧
      ∀ j, (scanBuy u e.command).mask j ≤ q j

inductive Moves (u : Scratch) (t : Checker) (e : Log_file) : Checker → Prop
  | login (rejected : ¬ t.Accepts u e) (word : startsWith (lit "login ") e.command = true)
      (correct : judge_correction u (e.command.drop 6) = true) :
      Moves u t e { t with
        my_id := Function.update t.my_id e.connfd (e.command.drop 6)
        log_static := Function.update t.log_static e.connfd true }
  | logout (rejected : ¬ t.Accepts u e) : Moves u t e { t with
        log_static := Function.update t.log_static e.connfd false
        mydata := { t.mydata with buy_list := t.mydata.buy_list.insert (t.my_id e.connfd) true }
        my_id := Function.update t.my_id e.connfd [] }
  | sale (accepted : t.Accepts u e) (st : Store) (ptr : City)
      (store : t.mydata.stores_map[(scanBuy u e.command).store]? = some st)
      (city : st.cities_map[(scanBuy u e.command).city_idx]? = some ptr) :
      Moves u t e (t.sold e.connfd (scanBuy u e.command) st ptr)
  | still (rejected : ¬ t.Accepts u e) : Moves u t e t

theorem check_entry_1_moves (u : Scratch) (t : Checker) (e : Log_file) : Moves u t e (check_entry_1 u t e).1 := by
  unfold check_entry_1
  split_ifs with hlogin hlogout hbuy
  · have hno : ¬ t.Accepts u e := by
      rintro ⟨hbuy, -⟩
      obtain ⟨r, hr⟩ := (startsWith_iff _ _).mp hlogin
      rw [hr] at hbuy
      cases hbuy
    simp only [check_login]
    split_ifs with hc
    · exact .login hno hlogin hc.1
    · exact .still hno
  · have hno : ¬ t.Accepts u e := by
      rintro ⟨hbuy, -⟩
      rw [hlogout] at hbuy
      cases hbuy
    simp only [check_logout]
    split_ifs
    · exact .still hno
    · exact .logout hno
  · by_cases ha : t.Accepts u e
    · obtain ⟨-, hadmits, hvalid, q, hq, hle⟩ := ha
      obtain ⟨st, ptr, hst, hptr, -, hsold⟩ := check_buy_sells hadmits hvalid hq hle
      rw [hsold]
      exact .sale ⟨hbuy, hadmits, hvalid, q, hq, hle⟩ st ptr hst hptr
    · rw [check_buy_fails fun hadmits hvalid q hq hle => ha ⟨hbuy, hadmits, hvalid, q, hq, hle⟩]
      exact .still ha
  all_goals exact .still fun ha => hbuy ha.1

theorem Identified.entry {u : Scratch} {t : Checker} {e : Log_file} (ht : Identified t) (h : e.Legible) :
    Identified (check_entry_1 u t e).1 := by
  have hmoves := check_entry_1_moves u t e
  generalize (check_entry_1 u t e).1 = t' at hmoves
  intro fd hfd
  by_cases hc : fd = e.connfd
  · subst hc
    cases hmoves with
    | login _ word correct =>
      have hlen := judge_length correct
      have hlong := h.login word
      simp only [Function.update_self]
      omega
    | logout _ => simp at hfd
    | sale _ st ptr _ _ => simp [Checker.sold] at hfd
    | still _ => exact ht _ hfd
  · cases hmoves with
    | login _ _ _ =>
      simp only [Function.update_of_ne hc] at hfd ⊢
      exact ht fd hfd
    | logout _ =>
      simp only [Function.update_of_ne hc] at hfd ⊢
      exact ht fd hfd
    | sale _ st ptr _ _ =>
      simp only [Checker.sold, Function.update_of_ne hc] at hfd
      exact ht fd hfd
    | still _ => exact ht fd hfd

structure Alike (s t : Checker) : Prop where
  log_static : s.log_static = t.log_static
  my_id : s.my_id = t.my_id
  mydata : s.mydata = t.mydata
  log_files : s.log_files = t.log_files

def Log_file.Query (e : Log_file) : Prop := e.command = lit "show" ∨ e.command = lit "statics"

instance (e : Log_file) : Decidable e.Query := inferInstanceAs (Decidable (_ ∨ _))

section Pair

variable {s t : Checker}

theorem Alike.login (h : Alike s t) (u : Scratch) (e : Log_file) :
    Alike (check_login u s e).1 (check_login u t e).1 ∧ (check_login u s e).2 = (check_login u t e).2 := by
  simp only [check_login, h.log_static, h.my_id]
  split_ifs
  · exact ⟨⟨rfl, rfl, h.mydata, h.log_files⟩, rfl⟩
  · exact ⟨h, rfl⟩

theorem Alike.logout (h : Alike s t) (e : Log_file) :
    Alike (check_logout s e).1 (check_logout t e).1 ∧ (check_logout s e).2 = (check_logout t e).2 := by
  simp only [check_logout, h.log_static, h.my_id, h.mydata]
  split_ifs
  · exact ⟨h, rfl⟩
  · exact ⟨⟨rfl, rfl, rfl, h.log_files⟩, rfl⟩

theorem Alike.buy (h : Alike s t) (u : Scratch) (e : Log_file) :
    Alike (check_buy u s e).1 (check_buy u t e).1 ∧ (check_buy u s e).2 = (check_buy u t e).2 := by
  simp only [check_buy, h.log_static, h.my_id, h.mydata]
  split_ifs
  · cases t.mydata.stores_map[(scanBuy u e.command).store]? with
    | none => exact ⟨h, rfl⟩
    | some st =>
      cases hptr : st.cities_map[(scanBuy u e.command).city_idx]? with
      | none =>
        simp only [hptr]
        exact ⟨h, trivial⟩
      | some ptr =>
        simp only [hptr]
        split_ifs
        · exact ⟨⟨rfl, rfl, rfl, h.log_files⟩, rfl⟩
        · exact ⟨h, rfl⟩
  · exact ⟨h, rfl⟩
  · exact ⟨h, rfl⟩

theorem Alike.entry (h : Alike s t) (u : Scratch) (e : Log_file) :
    Alike (check_entry_1 u s e).1 (check_entry u t e).1 ∧
      (¬ e.Query → (check_entry_1 u s e).2 = (check_entry u t e).2) ∧ (e.Query → (check_entry_1 u s e).2 = none) := by
  have hquery (w : Text) (hw : startsWith w (lit "show") = false ∧ startsWith w (lit "statics") = false)
      (he : startsWith w e.command = true) : ¬ e.Query := by
    rintro (hc | hc)
    · rw [hc, hw.1] at he
      cases he
    · rw [hc, hw.2] at he
      cases he
  unfold check_entry_1 check_entry
  split_ifs with hlogin hlogout hbuy hshow hstatics
  · obtain ⟨hstate, hout⟩ := h.login u e
    exact ⟨hstate, fun _ => hout, fun hq => absurd hq (hquery _ (by decide) hlogin)⟩
  · obtain ⟨hstate, hout⟩ := h.logout e
    refine ⟨hstate, fun _ => hout, fun hq => ?_⟩
    rw [Log_file.Query, hlogout] at hq
    exact absurd hq (by decide)
  · obtain ⟨hstate, hout⟩ := h.buy u e
    exact ⟨hstate, fun _ => hout, fun hq => absurd hq (hquery _ (by decide) hbuy)⟩
  · exact ⟨h, fun hq => absurd (Or.inl hshow) hq, fun _ => rfl⟩
  · exact ⟨h, fun hq => absurd (Or.inr hstatics) hq, fun _ => rfl⟩
  · exact ⟨h, fun _ => rfl, fun hq => absurd hq (not_or.mpr ⟨hshow, hstatics⟩)⟩

end Pair

theorem Alike.step {s t : Checker} (h : Alike s t) (hs : Identified s) (us us' : ℕ → Scratch) {e : Log_file}
    (he : e.Legible) :
    let p := (check_1 us).step s e
    let q := (check_2 us').step t e
    (Alike p.1 q.1 ∧ Identified p.1) ∧ (¬ e.Query → p.2 = q.2) ∧ (e.Query → p.2 = none) := by
  obtain ⟨hstate, hout, hnone⟩ := h.entry (us' t.log_files.length) e
  have hscratch := check_entry_1_scratch hs he (us s.log_files.length) (us' t.log_files.length)
  have hid := hs.entry (u := us' t.log_files.length) he
  simp only [check_1, check_2, hscratch]
  refine ⟨⟨⟨hstate.log_static, hstate.my_id, hstate.mydata, ?_⟩, hid⟩, hout, hnone⟩
  rw [h.log_files]

theorem Alike.run {s t : Checker} (h : Alike s t) (hs : Identified s) (us us' : ℕ → Scratch) {log : List Log_file}
    (hlog : ∀ e ∈ log, e.Legible) :
    Alike ((check_1 us).run s log) ((check_2 us').run t log) ∧ Identified ((check_1 us).run s log) := by
  refine ((check_1 us).lockstep_on (R := fun s t => Alike s t ∧ Identified s) (Q := fun _ _ => True)
    (fun s t e hR he => ?_) ⟨h, hs⟩ hlog).1
  exact ⟨(hR.1.step hR.2 us us' he).1, trivial⟩

def Bounded (t : Checker) : Prop := ∀ fd, ¬ (0 ≤ fd ∧ fd < 100) → t.log_static fd = false ∧ t.my_id fd = []

theorem bounded_run (us : ℕ → Scratch) {t : Checker} (ht : Bounded t) {log : List Log_file}
    (hlog : ∀ e ∈ log, e.Legible) : Bounded ((check_1 us).run t log) := by
  apply (check_1 us).run_invariant_of_trace ht
  intro q hq hpre fd hfd
  obtain ⟨fs, e, gs, rfl, rfl⟩ := (check_1 us).mem_trace_iff.mp hq
  have hne : fd ≠ e.connfd := by
    rintro rfl
    exact hfd (hlog e (by simp)).connfd
  have hmoves := check_entry_1_moves (us ((check_1 us).run t fs).log_files.length) ((check_1 us).run t fs) e
  obtain ⟨hoff, hnone⟩ := hpre fd hfd
  change (check_entry_1 _ ((check_1 us).run t fs) e).1.log_static fd = false ∧
    (check_entry_1 _ ((check_1 us).run t fs) e).1.my_id fd = []
  change ((check_1 us).run t fs).log_static fd = false at hoff
  change ((check_1 us).run t fs).my_id fd = [] at hnone
  generalize (check_entry_1 _ ((check_1 us).run t fs) e).1 = t' at hmoves
  cases hmoves with
  | login _ _ _ => simp only [Function.update_of_ne hne, hoff, hnone, and_self]
  | logout _ => simp only [Function.update_of_ne hne, hoff, hnone, and_self]
  | sale _ st ptr _ _ => simp only [Checker.sold, Function.update_of_ne hne, hoff, hnone, and_self]
  | still _ => exact ⟨hoff, hnone⟩

theorem identified_initial (temp : DB) : Identified (.initial temp) := by
  intro fd hfd
  cases hfd

theorem bounded_initial (temp : DB) : Bounded (.initial temp) := fun _ _ => ⟨rfl, rfl⟩

theorem again_alike (us : ℕ → Scratch) (temp : DB) {log : List Log_file} (hlog : ∀ e ∈ log, e.Legible) :
    Alike (.initial temp) ((firstPass us temp log).again temp) := by
  have hbounded := bounded_run us (bounded_initial temp) hlog
  refine ⟨?_, ?_, rfl, rfl⟩
  · funext fd
    by_cases hfd : 0 ≤ fd ∧ fd < 100
    · simp only [Checker.initial, Checker.again, clear, hfd, and_self, ↓reduceIte]
    · simp only [Checker.again, clear, hfd, ↓reduceIte]
      exact (hbounded fd hfd).1.symm
  · funext fd
    by_cases hfd : 0 ≤ fd ∧ fd < 100
    · simp only [Checker.initial, Checker.again, clear, hfd, and_self, ↓reduceIte]
    · simp only [Checker.again, clear, hfd, ↓reduceIte]
      exact (hbounded fd hfd).2.symm

theorem again_eq_checker (b : Boot) (us : ℕ → Scratch) {log : List Log_file} (hlog : ∀ e ∈ log, e.Legible) :
    let t := firstPass us (b.checker [] []).mydata log
    t.again (b.checker [] []).mydata = b.checker t.area_start t.area_end := by
  intro t
  have h := again_alike us (b.checker [] []).mydata hlog
  have hstatic : (t.again (b.checker [] []).mydata).log_static = fun _ => false := h.log_static.symm
  have hid : (t.again (b.checker [] []).mydata).my_id = fun _ => [] := h.my_id.symm
  change Checker.mk (t.again (b.checker [] []).mydata).log_static (t.again (b.checker [] []).mydata).my_id
    (b.checker [] []).mydata t.area_start t.area_end [] = _
  rw [hstatic, hid]
  rfl

def reports (M : Machine Checker Log_file (Option Report)) (t : Checker) (log : List Log_file) :
    List (Option Report) :=
  (M.trace t log).map Moment.out

def errors (M : Machine Checker Log_file (Option Report)) (t : Checker) (log : List Log_file) : ℕ :=
  (reports M t log).countP Option.isSome

def Flagged (M : Machine Checker Log_file (Option Report)) (t : Checker) (log : List Log_file) (k : ℕ) : Prop :=
  ∃ r, (reports M t log)[k]? = some (some r)

theorem reports_getElem? (M : Machine Checker Log_file (Option Report)) (t : Checker) (log : List Log_file) (k : ℕ) :
    (reports M t log)[k]? = log[k]?.map fun e => (M.step (M.run t (log.take k)) e).2 := by
  rw [reports, List.getElem?_map, M.trace_getElem?, Option.map_map]
  rfl

structure PassesAgree (us us' : ℕ → Scratch) (temp : DB) (log : List Log_file) : Prop where
  flags : ∀ k e, log[k]? = some e → ¬ e.Query →
    (Flagged (check_2 us') ((firstPass us temp log).again temp) log k ↔ Flagged (check_1 us) (.initial temp) log k)
  values : ∀ n,
    let s := (check_1 us).run (.initial temp) (log.take n)
    let t := (check_2 us').run ((firstPass us temp log).again temp) (log.take n)
    t.mydata.day = s.mydata.day ∧ t.mydata.alcohol = s.mydata.alcohol ∧
      t.mydata.stores_map = s.mydata.stores_map ∧ t.mydata.buy_list = s.mydata.buy_list ∧
        t.log_static = s.log_static
  errors : (∀ k e, log[k]? = some e → e.Query →
      ¬ Flagged (check_2 us') ((firstPass us temp log).again temp) log k) →
    errors (check_2 us') ((firstPass us temp log).again temp) log = errors (check_1 us) (.initial temp) log

section Passes

variable (us us' : ℕ → Scratch) (temp : DB) {log : List Log_file}

theorem passes_alike (hlog : ∀ e ∈ log, e.Legible) (n : ℕ) :
    Alike ((check_1 us).run (.initial temp) (log.take n))
        ((check_2 us').run ((firstPass us temp log).again temp) (log.take n)) ∧
      Identified ((check_1 us).run (.initial temp) (log.take n)) :=
  (again_alike us temp hlog).run (identified_initial temp) us us' fun e he => hlog e (List.mem_of_mem_take he)

theorem reports_agree (hlog : ∀ e ∈ log, e.Legible) {k : ℕ} {e : Log_file} (he : log[k]? = some e) :
    ∃ o o', (reports (check_1 us) (.initial temp) log)[k]? = some o ∧
      (reports (check_2 us') ((firstPass us temp log).again temp) log)[k]? = some o' ∧
      (¬ e.Query → o = o') ∧ (e.Query → o = none) := by
  obtain ⟨halike, hid⟩ := passes_alike us us' temp hlog k
  obtain ⟨-, hout⟩ := halike.step hid us us' (hlog e (List.mem_of_getElem? he))
  refine ⟨_, _, ?_, ?_, hout⟩
  · rw [reports_getElem?, he, Option.map_some]
  · rw [reports_getElem?, he, Option.map_some]

theorem errors_eq {M N : Machine Checker Log_file (Option Report)} {s t : Checker}
    (h : ∀ k : ℕ, (reports M s log)[k]?.map Option.isSome = (reports N t log)[k]?.map Option.isSome) :
    errors M s log = errors N t log := by
  have hmap : (reports M s log).map Option.isSome = (reports N t log).map Option.isSome := by
    apply List.ext_getElem?
    intro k
    rw [List.getElem?_map, List.getElem?_map, h]
  have hcount (l : List (Option Report)) : l.countP Option.isSome = (l.map Option.isSome).countP (· = true) := by
    rw [List.countP_map]
    congr 1
    funext o
    simp
  rw [errors, errors, hcount, hcount, hmap]

end Passes

theorem passes_agree (us us' : ℕ → Scratch) (temp : DB) (log : List Log_file) (hlog : ∀ e ∈ log, e.Legible) :
    PassesAgree us us' temp log := by
  constructor
  · intro k e he hquery
    obtain ⟨o, o', h1, h2, hout, -⟩ := reports_agree us us' temp hlog he
    rw [Flagged, Flagged, h1, h2, hout hquery]
  · intro n
    obtain ⟨halike, -⟩ := passes_alike us us' temp hlog n
    intro s t
    rw [← halike.mydata, ← halike.log_static]
    exact ⟨rfl, rfl, rfl, rfl, rfl⟩
  · intro hquiet
    apply errors_eq
    intro k
    cases he : log[k]? with
    | none =>
      rw [reports_getElem?, reports_getElem?, he]
      rfl
    | some e =>
      obtain ⟨o, o', h1, h2, hout, hnone⟩ := reports_agree us us' temp hlog he
      by_cases hquery : e.Query
      · have hno : o' = none := by
          cases o' with
          | none => rfl
          | some r => exact absurd ⟨r, h2⟩ (hquiet k e he hquery)
        rw [h1, h2, hno, hnone hquery]
      · rw [h1, h2, hout hquery]

def visitLog : List Log_file :=
  [⟨0, 1, 4, lit "login A123456789", lit "Login successful."⟩, ⟨1, 1, 5, lit "show", lit "S1"⟩,
    ⟨2, 1, 4, lit "buy S1 1 1 1 1", bought⟩, ⟨3, 2, 4, lit "logout", lit "Logout successful."⟩]

theorem visitLog_legible : ∀ e ∈ visitLog, e.Legible := by
  have hfields : ∀ e ∈ visitLog, (0 ≤ e.connfd ∧ e.connfd < 100) ∧
      (startsWith (lit "login ") e.command = true → 10 ≤ (e.command.drop 6).length) ∧
      (startsWith (lit "buy ") e.command = true → BuyFields e.command) := by decide
  intro e he
  obtain ⟨hconnfd, hlogin, hbuy⟩ := hfields e he
  exact ⟨hconnfd, hlogin, hbuy⟩

theorem passes_agree_visit :
    PassesAgree blankScratch blankScratch (sampleShop.checker [] []).mydata visitLog :=
  passes_agree blankScratch blankScratch _ visitLog visitLog_legible

end EmbeddedOS.Hw3
