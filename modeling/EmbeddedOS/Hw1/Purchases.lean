import EmbeddedOS.Hw1.Sessions

namespace EmbeddedOS.Hw1

open CText Runs

def acceptedID (q : Handled) : Option ID := if q.out = .loggedIn then some q.pre.ID_number else none

def soldID (q : Handled) : Option ID :=
  match q.out with
  | .purchased _ => some q.pre.ID_number
  | _ => none

def isLogout (q : Handled) : Bool := decide (q.out = .menu)

def acceptedIDs (h : List Handled) : List ID := h.filterMap acceptedID

def soldIDs (h : List Handled) : List ID := h.filterMap soldID

def sessionIDs (h : List Handled) : List ID := (sinceLast isLogout h).filterMap soldID

theorem acceptedIDs_snoc (h : List Handled) (q : Handled) :
    acceptedIDs (h ++ [q]) = acceptedIDs h ++ (acceptedID q).toList := by
  cases hq : acceptedID q <;> simp [acceptedIDs, hq]

theorem soldIDs_snoc (h : List Handled) (q : Handled) :
    soldIDs (h ++ [q]) = soldIDs h ++ (soldID q).toList := by
  cases hq : soldID q <;> simp [soldIDs, hq]

theorem sessionIDs_snoc (h : List Handled) (q : Handled) : sessionIDs (h ++ [q]) =
    if isLogout q then [] else sessionIDs h ++ (soldID q).toList := by
  unfold sessionIDs
  rw [sinceLast_snoc]
  split_ifs
  · rfl
  · cases hq : soldID q <;> simp [hq]

/-- No purchase is made for an ID that has bought before, and no ID is refused that has not. -/
structure Honest (b : Boot) (es : List Press) : Prop where
  once : ∀ fs e, fs ++ [e] <+: es → Purchased (machine.moment (b.after fs) e) →
    (b.after fs).ID_number ∉ soldIDs (b.history fs)
  refused : ∀ fs e, fs ++ [e] <+: es → (machine.step (b.after fs) e).2 = .alreadyBought →
    (b.after fs).ID_number ∈ soldIDs (b.history fs)

/-- Every purchase is the first of its session; where the test against earlier logins is blind (the
ID was let in by no login, or `bought_n` has overflowed) its ID has not bought; and who comes back
after an accepted login and presses 3 has bought. -/
structure Orderly (b : Boot) (es : List Press) : Prop where
  first : ∀ fs e, fs ++ [e] <+: es → Purchased (machine.moment (b.after fs) e) →
    sessionIDs (b.history fs) = []
  unseen : ∀ fs e, fs ++ [e] <+: es → Purchased (machine.moment (b.after fs) e) →
    (checkIDnumber b.day_of_week (b.after fs).ID_number = false ∨ (b.after fs).bought_n < 1) →
    (b.after fs).ID_number ∉ soldIDs (b.history fs)
  returning : ∀ fs e, fs ++ [e] <+: es → (b.after fs).mode = .main → (b.after fs).inOut = true →
    e.key = ch '3' → (b.after fs).bought_n ≥ 1 →
    (b.after fs).ID_number ∈ (acceptedIDs (b.history fs)).dropLast →
    (b.after fs).ID_number ∈ soldIDs (b.history fs)

def Inside (g : Globals) : Prop := g.inOut = true ∧ ∀ i, g.mode ≠ .login i

structure Recorded (day : ℤ) (h : List Handled) (g : Globals) : Prop where
  day_of_week : g.day_of_week = day
  count : g.login_n = (acceptedIDs h).length
  next : g.i_ID = (acceptedIDs h).length % 10
  check : ∀ i (hi : i < 10) x, (acceptedIDs h)[i]? = some x → g.check ⟨i, hi⟩ = x
  valid : ∀ x ∈ acceptedIDs h, checkIDnumber day x = true
  last : Inside g → checkIDnumber day g.ID_number = true → (acceptedIDs h).getLast? = some g.ID_number
  sold : ∀ x ∈ soldIDs h, checkIDnumber day x = true → x ∈ acceptedIDs h
  before : Inside g → checkIDnumber day g.ID_number = true → sessionIDs h = [] →
    ∀ x ∈ soldIDs h, checkIDnumber day x = true → x ∈ (acceptedIDs h).dropLast
  session : Inside g → ∀ x ∈ sessionIDs h, x = g.ID_number
  outside : ¬ Inside g → sessionIDs h = []
  clear : ∀ i, g.mode = .buy i → g.bought_n ≥ 1 → g.ID_number ∉ (acceptedIDs h).dropLast

theorem checkAt_eq {day : ℤ} {h : List Handled} {g : Globals} (hr : Recorded day h g)
    (hten : (acceptedIDs h).length ≤ 10) (beyond : ℕ → ID) {i : ℕ} {x : ID}
    (hx : (acceptedIDs h)[i]? = some x) : g.checkAt beyond i = x := by
  have hi : i < 10 := by
    obtain ⟨hlt, -⟩ := List.getElem?_eq_some_iff.mp hx
    omega
  rw [Globals.checkAt, dif_pos hi]
  exact hr.check i hi x hx

theorem ifboughtfn_iff {day : ℤ} {h : List Handled} {g : Globals} (hr : Recorded day h g)
    (hten : (acceptedIDs h).length ≤ 10) (beyond : ℕ → ID) :
    ifboughtfn g beyond = true ↔ g.ID_number ∈ (acceptedIDs h).dropLast := by
  have hn : (g.login_n - 1).toNat = (acceptedIDs h).length - 1 := by
    rw [hr.count]
    omega
  simp only [ifboughtfn, List.any_eq_true, List.mem_range, decide_eq_true_eq, hn]
  rw [List.mem_iff_getElem?]
  simp only [List.getElem?_dropLast]
  constructor
  · rintro ⟨i, hi, he⟩
    obtain ⟨x, hx⟩ : ∃ x, (acceptedIDs h)[i]? = some x := ⟨_, List.getElem?_eq_getElem (by omega)⟩
    refine ⟨i, ?_⟩
    rw [if_pos hi, hx, ← he, checkAt_eq hr hten beyond hx]
  · rintro ⟨i, hi⟩
    split_ifs at hi with hlt
    exact ⟨i, hlt, checkAt_eq hr hten beyond hi⟩

def Display.Neutral (d : Display) : Prop :=
  d ≠ .loggedIn ∧ d ≠ .menu ∧ ∀ supplement, d ≠ .purchased supplement

theorem neutral_ids {q : Handled} (hq : q.out.Neutral) (h : List Handled) :
    acceptedIDs (h ++ [q]) = acceptedIDs h ∧ soldIDs (h ++ [q]) = soldIDs h ∧
      sessionIDs (h ++ [q]) = sessionIDs h := by
  obtain ⟨hin, hmenu, hsale⟩ := hq
  have ha : acceptedID q = none := by simp [acceptedID, hin]
  have hl : isLogout q = false := by simp [isLogout, hmenu]
  have hs : soldID q = none := by
    unfold soldID
    split
    · exact absurd ‹_› (hsale _)
    · rfl
  rw [acceptedIDs_snoc, soldIDs_snoc, sessionIDs_snoc, ha, hs, hl]
  simp

theorem Recorded.unaccepted {day : ℤ} {h h' : List Handled} {g k : Globals} (hr : Recorded day h g)
    (ha : acceptedIDs h' = acceptedIDs h)
    (hk : k.day_of_week = g.day_of_week ∧ k.login_n = g.login_n ∧ k.i_ID = g.i_ID ∧ k.check = g.check)
    (last : Inside k → checkIDnumber day k.ID_number = true → (acceptedIDs h').getLast? = some k.ID_number)
    (sold : ∀ x ∈ soldIDs h', checkIDnumber day x = true → x ∈ acceptedIDs h')
    (before : Inside k → checkIDnumber day k.ID_number = true → sessionIDs h' = [] →
      ∀ x ∈ soldIDs h', checkIDnumber day x = true → x ∈ (acceptedIDs h').dropLast)
    (session : Inside k → ∀ x ∈ sessionIDs h', x = k.ID_number) (outside : ¬ Inside k → sessionIDs h' = [])
    (clear : ∀ i, k.mode = .buy i → k.bought_n ≥ 1 → k.ID_number ∉ (acceptedIDs h').dropLast) :
    Recorded day h' k := by
  obtain ⟨hday, hlogin, hi, hcheck⟩ := hk
  constructor
  case day_of_week => rw [hday, hr.day_of_week]
  case count => rw [hlogin, ha, hr.count]
  case next => rw [hi, ha, hr.next]
  case check =>
    rw [hcheck, ha]
    exact hr.check
  case valid =>
    rw [ha]
    exact hr.valid
  case last => exact last
  case sold => exact sold
  case before => exact before
  case session => exact session
  case outside => exact outside
  case clear => exact clear

theorem Recorded.keep {day : ℤ} {h : List Handled} {g : Globals} (hr : Recorded day h g) {q : Handled}
    (hq : q.out.Neutral) {k : Globals} (hday : k.day_of_week = g.day_of_week)
    (hlogin : k.login_n = g.login_n) (hi : k.i_ID = g.i_ID) (hcheck : k.check = g.check)
    (hin : Inside k ↔ Inside g) (hid : Inside g → k.ID_number = g.ID_number)
    (hclear : ∀ i, k.mode = .buy i → k.bought_n ≥ 1 → k.ID_number ∉ (acceptedIDs h).dropLast) :
    Recorded day (h ++ [q]) k := by
  obtain ⟨ha, hs, hsess⟩ := neutral_ids hq h
  refine hr.unaccepted ha ⟨hday, hlogin, hi, hcheck⟩ ?last ?sold ?before ?session ?outside ?clear
  case last =>
    intro hins
    rw [ha, hid (hin.mp hins)]
    exact hr.last (hin.mp hins)
  case sold =>
    rw [ha, hs]
    exact hr.sold
  case before =>
    intro hins
    rw [ha, hs, hsess, hid (hin.mp hins)]
    exact hr.before (hin.mp hins)
  case session =>
    intro hins
    rw [hsess, hid (hin.mp hins)]
    exact hr.session (hin.mp hins)
  case outside =>
    intro hout
    rw [hsess]
    exact hr.outside (fun hins => hout (hin.mpr hins))
  case clear =>
    rw [ha]
    exact hclear

theorem not_inside_login {g : Globals} {i : ℕ} (h : g.mode = .login i) : ¬ Inside g := fun hin => hin.2 i h

theorem inside_iff {g g' : Globals} (hio : g'.inOut = g.inOut) (h : ∀ i, g.mode ≠ .login i)
    (h' : ∀ i, g'.mode ≠ .login i) : Inside g' ↔ Inside g := by
  unfold Inside
  rw [hio]
  exact ⟨fun hin => ⟨hin.1, h⟩, fun hin => ⟨hin.1, h'⟩⟩

theorem recorded_leaves {day : ℤ} {h : List Handled} {g : Globals} (hr : Recorded day h g) {q : Handled}
    (hout : q.out = .menu) (hm : g.mode = .main) :
    Recorded day (h ++ [q]) { g with buy_n := 0, inOut := false } := by
  have ha : acceptedIDs (h ++ [q]) = acceptedIDs h := by simp [acceptedIDs_snoc, acceptedID, hout]
  have hs : soldIDs (h ++ [q]) = soldIDs h := by simp [soldIDs_snoc, soldID, hout]
  have hsess : sessionIDs (h ++ [q]) = [] := by simp [sessionIDs_snoc, isLogout, hout]
  have hno : ¬ Inside { g with buy_n := 0, inOut := false } := fun hin => by cases hin.1
  refine hr.unaccepted ha ⟨rfl, rfl, rfl, rfl⟩ ?last ?sold ?before ?session ?outside ?clear
  case last => exact fun hin => absurd hin hno
  case sold =>
    rw [ha, hs]
    exact hr.sold
  case before => exact fun hin => absurd hin hno
  case session => exact fun hin => absurd hin hno
  case outside => exact fun _ => hsess
  case clear =>
    intro i hi
    cases hm.symm.trans hi

theorem recorded_accepts {day : ℤ} {h : List Handled} {g : Globals} (hr : Recorded day h g) {q : Handled}
    (hpre : q.pre = g) (hout : q.out = .loggedIn) {i : ℕ} (hm : g.mode = .login i)
    (hvalid : checkIDnumber g.day_of_week g.ID_number = true)
    (hten : (acceptedIDs (h ++ [q])).length ≤ 10) :
    Recorded day (h ++ [q]) (recordLogin { g with allowlog := true, mode := .main }) := by
  have ha : acceptedIDs (h ++ [q]) = acceptedIDs h ++ [g.ID_number] := by
    simp [acceptedIDs_snoc, acceptedID, hout, hpre]
  have hs : soldIDs (h ++ [q]) = soldIDs h := by simp [soldIDs_snoc, soldID, hout]
  have hsess : sessionIDs (h ++ [q]) = [] := by
    have hnil := hr.outside (not_inside_login hm)
    simp [sessionIDs_snoc, isLogout, hout, soldID, hnil]
  have hlt : (acceptedIDs h).length < 10 := by
    rw [ha, List.length_append, List.length_singleton] at hten
    omega
  have hnext : g.i_ID = (acceptedIDs h).length := by
    rw [hr.next]
    omega
  rw [hr.day_of_week] at hvalid
  constructor
  case day_of_week => exact hr.day_of_week
  case count =>
    rw [ha, recordLogin, List.length_append, List.length_singleton]
    change int32 (g.login_n + 1) = _
    rw [hr.count, int32_of_isInt32]
    · push_cast
      rfl
    · simp only [IsInt32]
      omega
  case next =>
    rw [ha, recordLogin, List.length_append, List.length_singleton]
    change (if g.i_ID + 1 ≥ 10 then 0 else g.i_ID + 1) = _
    rw [hnext]
    split_ifs <;> omega
  case check =>
    intro j hj x hx
    rw [ha] at hx
    change (if j = g.i_ID then g.ID_number else g.check ⟨j, hj⟩) = x
    by_cases hje : j = g.i_ID
    · rw [if_pos hje]
      rw [hje, hnext] at hx
      simpa using hx
    · have hjl : j < (acceptedIDs h).length := by
        obtain ⟨hl, -⟩ := List.getElem?_eq_some_iff.mp hx
        rw [List.length_append, List.length_singleton] at hl
        omega
      rw [if_neg hje]
      rw [List.getElem?_append_left hjl] at hx
      exact hr.check j hj x hx
  case valid =>
    intro x hx
    rw [ha, List.mem_append, List.mem_singleton] at hx
    rcases hx with hx | rfl
    · exact hr.valid x hx
    · exact hvalid
  case last =>
    intro _ _
    rw [ha]
    simp [recordLogin]
  case sold =>
    intro x hx hv
    rw [hs] at hx
    rw [ha]
    exact List.mem_append_left _ (hr.sold x hx hv)
  case before =>
    intro _ _ _ x hx hv
    rw [hs] at hx
    rw [ha, List.dropLast_concat]
    exact hr.sold x hx hv
  case session =>
    intro _ x hx
    rw [hsess] at hx
    cases hx
  case outside => exact fun _ => hsess
  case clear =>
    intro j hj
    cases hj

theorem recorded_rejects {day : ℤ} {h : List Handled} {g : Globals} (hr : Recorded day h g) {q : Handled}
    (hout : q.out = .notAllowed) {i : ℕ} (hm : g.mode = .login i)
    (hinvalid : checkIDnumber g.day_of_week g.ID_number = false) :
    Recorded day (h ++ [q]) { g with allowlog := false, mode := .main } := by
  have hneutral : q.out.Neutral := by simp [Display.Neutral, hout]
  obtain ⟨ha, hs, hsess⟩ := neutral_ids hneutral h
  have hnil := hr.outside (not_inside_login hm)
  have hno : ¬ checkIDnumber day g.ID_number = true := by
    rw [← hr.day_of_week, hinvalid]
    simp
  refine hr.unaccepted ha ⟨rfl, rfl, rfl, rfl⟩ ?last ?sold ?before ?session ?outside ?clear
  case last => exact fun _ hv => absurd hv hno
  case sold =>
    rw [ha, hs]
    exact hr.sold
  case before => exact fun _ hv => absurd hv hno
  case session =>
    intro _
    rw [hsess, hnil]
    simp
  case outside =>
    intro _
    rw [hsess, hnil]
  case clear =>
    intro j hj
    cases hj

theorem recorded_sells {day : ℤ} {h : List Handled} {g : Globals} (hr : Recorded day h g) {q : Handled}
    (hpre : q.pre = g) {supplement : Bool} (hout : q.out = .purchased supplement)
    (hin : Inside g) : Recorded day (h ++ [q]) (purchase g) := by
  have ha : acceptedIDs (h ++ [q]) = acceptedIDs h := by simp [acceptedIDs_snoc, acceptedID, hout]
  have hs : soldIDs (h ++ [q]) = soldIDs h ++ [g.ID_number] := by
    simp [soldIDs_snoc, soldID, hout, hpre]
  have hsess : sessionIDs (h ++ [q]) = sessionIDs h ++ [g.ID_number] := by
    simp [sessionIDs_snoc, isLogout, soldID, hout, hpre]
  have hin' : Inside (purchase g) := ⟨hin.1, fun i hi => by cases hi⟩
  refine hr.unaccepted ha ⟨rfl, rfl, rfl, rfl⟩ ?last ?sold ?before ?session ?outside ?clear
  case last =>
    intro _
    rw [ha]
    exact hr.last hin
  case sold =>
    intro x hx hv
    rw [hs, List.mem_append, List.mem_singleton] at hx
    rw [ha]
    rcases hx with hx | rfl
    · exact hr.sold x hx hv
    · exact List.mem_of_getLast? (hr.last hin hv)
  case before =>
    intro _ _ hnil
    rw [hsess] at hnil
    simp at hnil
  case session =>
    intro _ x hx
    rw [hsess, List.mem_append, List.mem_singleton] at hx
    rcases hx with hx | rfl
    · exact hr.session hin x hx
    · rfl
  case outside => exact fun hout => absurd hin' hout
  case clear =>
    intro j hj
    cases hj

theorem Display.Quiet.neutral {d : Display} (h : d.Quiet) : d.Neutral := by
  cases d <;> simp [Display.Quiet, Display.Neutral] at h ⊢

theorem recorded_step {day : ℤ} {h : List Handled} {g : Globals} {e : Press} (hc : spills g e = false)
    (hr : Recorded day h g) (hs : Session h g) (hten : (acceptedIDs (h ++ [machine.moment g e])).length ≤ 10) :
    Recorded day (h ++ [machine.moment g e]) (machine.step g e).1 := by
  have hd : (machine.moment g e).out = (machine.step g e).2 := rfl
  have hpre : (machine.moment g e).pre = g := rfl
  have hstep := stepped hc
  have hten' : (acceptedIDs h).length ≤ 10 := by
    rw [acceptedIDs_snoc, List.length_append] at hten
    omega
  have hkeep {k : Globals} := hr.keep (q := machine.moment g e) (k := k)
  generalize machine.moment g e = q at hd hpre hten hkeep ⊢
  cases hstep with
  | idles post shown =>
    rw [post]
    exact hkeep (by rw [hd]; exact shown.neutral) rfl rfl rfl rfl Iff.rfl (fun _ => rfl) hr.clear
  | shows mode post shown =>
    obtain ⟨data, in_num, s, num, hl⟩ := readInventory_loads g
    rw [post, hl]
    exact hkeep (by simp [hd, shown, Display.Neutral]) rfl rfl rfl rfl
      (inside_iff rfl (by simp [mode]) (by simp [mode])) (fun _ => rfl) (by simp [mode])
  | begins mode out post shown =>
    have hno : ¬ Inside g := fun hin => by
      have hio := hin.1
      rw [out] at hio
      cases hio
    rw [post]
    exact hkeep (by simp [hd, shown, Display.Neutral]) rfl rfl rfl rfl
      (iff_of_false (fun hin => hin.2 0 rfl) hno) (fun _ => rfl) (by simp)
  | leaves mode inside post shown =>
    rw [post]
    exact recorded_leaves hr (hd.trans shown) mode
  | refuses mode inside sold recorded post shown =>
    rw [post]
    exact hkeep (by simp [hd, shown, Display.Neutral]) rfl rfl rfl rfl Iff.rfl (fun _ => rfl) hr.clear
  | orders mode inside clear post shown =>
    rw [post]
    refine hkeep (by simp [hd, shown, Display.Neutral]) rfl rfl rfl rfl
      (inside_iff rfl (by simp [mode]) (by simp)) (fun _ => rfl) fun _ _ hn hmem => ?_
    have hf := clear hn
    rw [(ifboughtfn_iff hr hten' e.beyond).mpr hmem] at hf
    cases hf
  | stops mode post shown =>
    rw [post]
    exact hkeep (by simp [hd, shown, Display.Neutral]) rfl rfl rfl rfl
      (inside_iff rfl (by simp [mode]) (by simp)) (fun _ => rfl) (by simp)
  | types i mode post shown =>
    have hno := not_inside_login mode
    rw [post]
    exact hkeep (by simp [hd, shown, Display.Neutral]) rfl rfl rfl rfl
      (iff_of_false (fun hin => hin.2 (i + 1) rfl) hno) (fun hin => absurd hin hno) (by simp)
  | accepts i mode valid post shown =>
    rw [post]
    exact recorded_accepts hr hpre (hd.trans shown) mode valid hten
  | rejects i mode invalid post shown =>
    rw [post]
    exact recorded_rejects hr (hd.trans shown) mode invalid
  | keys i mode post shown =>
    rw [post]
    exact hkeep (by simp [hd, shown, Display.Neutral]) rfl rfl rfl rfl
      (inside_iff rfl (by simp [mode]) (by simp)) (fun _ => rfl) (fun _ _ => hr.clear i mode)
  | spoils i mode post shown =>
    rw [post]
    exact hkeep (by simp [hd, shown, Display.Neutral]) rfl rfl rfl rfl
      (inside_iff rfl (by simp [mode]) (by simp)) (fun _ => rfl) (by simp)
  | again mode bought post shown =>
    rw [post]
    exact hkeep (by simp [hd, shown, Display.Neutral]) rfl rfl rfl rfl
      (inside_iff rfl (by simp [mode]) (by simp)) (fun _ => rfl) (by simp)
  | sells sale post supplement shown =>
    rw [post]
    exact recorded_sells hr hpre (hd.trans shown) ⟨hs.buy 9 sale.1, by simp [sale.1]⟩

theorem recorded_start (b : Boot) : Recorded b.day_of_week [] b.start := by
  have hno : ¬ Inside b.start := fun hin => by cases hin.1
  constructor
  case day_of_week => rfl
  case count => rfl
  case next => rfl
  case check =>
    intro i hi x hx
    cases hx
  case valid =>
    intro x hx
    cases hx
  case last => exact fun hin => absurd hin hno
  case sold =>
    intro x hx
    cases hx
  case before => exact fun hin => absurd hin hno
  case session => exact fun hin => absurd hin hno
  case outside => exact fun _ => rfl
  case clear =>
    intro i hi
    cases hi

theorem recorded_after {b : Boot} {es : List Press} (hc : b.Confined es)
    (hten : (acceptedIDs (b.history es)).length ≤ 10) : Recorded b.day_of_week (b.history es) (b.after es) := by
  induction es using List.reverseRecOn with
  | nil => exact recorded_start b
  | append_singleton es e ih =>
    rw [history_snoc] at hten
    have hten' : (acceptedIDs (b.history es)).length ≤ 10 := by
      rw [acceptedIDs_snoc, List.length_append] at hten
      omega
    rw [after_snoc, history_snoc]
    have hleft := hc.left (List.prefix_append ..)
    exact recorded_step (hc.step (List.prefix_refl _)) (ih hleft hten') (session_after hleft) hten

theorem recorded_prefix {b : Boot} {es fs : List Press} (hc : b.Confined es) (hten : (acceptedIDs (b.history es)).length ≤ 10)
    (hfs : fs <+: es) : (acceptedIDs (b.history fs)).length ≤ 10 ∧
      Recorded b.day_of_week (b.history fs) (b.after fs) := by
  have hleft := hc.left hfs
  obtain ⟨gs, rfl⟩ := hfs
  have hle : (acceptedIDs (b.history fs)).length ≤ 10 := by
    rw [Boot.history, Machine.trace_append, acceptedIDs, List.filterMap_append, List.length_append] at hten
    exact le_trans (Nat.le_add_right _ _) hten
  exact ⟨hle, recorded_after hleft hle⟩

theorem refused_iff {day : ℤ} {h : List Handled} {g : Globals} {e : Press} (hc : spills g e = false)
    (hr : Recorded day h g) (hten : (acceptedIDs h).length ≤ 10) : (machine.step g e).2 = .alreadyBought ↔
      g.mode = .main ∧ g.inOut = true ∧ e.key = ch '3' ∧ g.bought_n ≥ 1 ∧
        g.ID_number ∈ (acceptedIDs h).dropLast := by
  rw [← ifboughtfn_iff hr hten e.beyond]
  cases hm : g.mode with
  | main =>
    have hs : machine.step g e = mainKey g e := by simp [machine, hc, hm]
    rw [hs]
    unfold mainKey
    by_cases h3 : e.key = ch '3'
    · simp only [h3, ↓reduceIte, true_and]
      rw [if_neg (by decide), if_neg (by decide)]
      cases hio : g.inOut with
      | false => simp
      | true =>
        by_cases hb : g.bought_n ≥ 1 ∧ ifboughtfn g e.beyond = true
        · simp [hb]
        · simp only [hb, ↓reduceIte, Bool.true_eq_false, reduceCtorEq, and_false]
    · simp only [h3, ↓reduceIte, false_and, and_false, iff_false]
      split_ifs <;> simp
  | login i =>
    have hs : machine.step g e = loginKey g i e := by simp [machine, hc, hm]
    rw [hs]
    simp only [loginKey, reduceCtorEq, false_and, iff_false]
    split_ifs <;> simp
  | buy i =>
    have hs : machine.step g e = buyKey g i e := by simp [machine, hc, hm]
    rw [hs]
    simp only [buyKey, reduceCtorEq, false_and, iff_false]
    split_ifs <;> simp
  | ended => simp [machine, hc, hm]

theorem sessionIDs_subset {h : List Handled} {x : ID} (hx : x ∈ sessionIDs h) : x ∈ soldIDs h := by
  obtain ⟨q, hq, hs⟩ := List.mem_filterMap.mp hx
  refine List.mem_filterMap.mpr ⟨q, ?_, hs⟩
  have hm := List.mem_reverse.mp hq
  exact List.mem_reverse.mp (List.takeWhile_subset _ hm)

theorem honest_iff (b : Boot) (es : List Press) (hc : b.Confined es)
    (hten : (acceptedIDs (b.history es)).length ≤ 10) : Honest b es ↔ Orderly b es := by
  have hpre {fs : List Press} {e : Press} (h : fs ++ [e] <+: es) :=
    recorded_prefix hc hten ((List.prefix_append fs [e]).trans h)
  have hinside {fs : List Press} {e : Press} (h : fs ++ [e] <+: es) (hmode : (b.after fs).mode = .buy 9) :
      Inside (b.after fs) :=
    ⟨(session_after (hc.left ((List.prefix_append fs [e]).trans h))).buy 9 hmode, by simp [hmode]⟩
  constructor
  · intro h
    refine ⟨fun fs e hfs hp => ?_, fun fs e hfs hp _ => h.once fs e hfs hp, fun fs e hfs hm hio hk hn hmem => ?_⟩
    · obtain ⟨-, hr⟩ := hpre hfs
      have hmode := (purchased_completes (hc.step hfs) hp).1
      have hin := hinside hfs hmode
      rw [List.eq_nil_iff_forall_not_mem]
      intro x hx
      have hid := hr.session hin x hx
      subst hid
      exact h.once fs e hfs hp (sessionIDs_subset hx)
    · obtain ⟨hle, hr⟩ := hpre hfs
      exact h.refused fs e hfs ((refused_iff (hc.step hfs) hr hle).mpr ⟨hm, hio, hk, hn, hmem⟩)
  · intro h
    refine ⟨fun fs e hfs hp hsold => ?_, fun fs e hfs hout => ?_⟩
    · obtain ⟨-, hr⟩ := hpre hfs
      have hmode := (purchased_completes (hc.step hfs) hp).1
      have hin := hinside hfs hmode
      by_cases hblind : checkIDnumber b.day_of_week (b.after fs).ID_number = false ∨ (b.after fs).bought_n < 1
      · exact h.unseen fs e hfs hp hblind hsold
      · obtain ⟨hv, hn⟩ := not_or.mp hblind
        rw [Bool.not_eq_false] at hv
        -- the ID was recorded by its earlier login, and key 3 has compared it with that
        have hbefore := hr.before hin hv (h.first fs e hfs hp) _ hsold hv
        exact hr.clear 9 hmode (not_lt.mp hn) hbefore
    · obtain ⟨hle, hr⟩ := hpre hfs
      obtain ⟨hm, hio, hk, hn, hmem⟩ := (refused_iff (hc.step hfs) hr hle).mp hout
      exact h.returning fs e hfs hm hio hk hn hmem

theorem honest_iff_oneOrder : Honest sampleBoot (typed oneOrder) ↔ Orderly sampleBoot (typed oneOrder) :=
  honest_iff sampleBoot (typed oneOrder) (by decide) (by decide)

def threeOrders : String := "2A123456789#3A*1*1*0*0#3A*1*1*0*0#3A*1*1*0*0"

theorem honest_fails :
    sampleBoot.Confined (typed threeOrders ++ [press '#']) ∧
    (acceptedIDs (sampleBoot.history (typed threeOrders ++ [press '#']))).length = 1 ∧
    ¬ Honest sampleBoot (typed threeOrders ++ [press '#']) := by
  refine ⟨by decide, by decide, fun h => ?_⟩
  refine h.once (typed threeOrders) (press '#') (List.prefix_refl _) ⟨false, by decide +kernel⟩ ?_
  decide +kernel

end EmbeddedOS.Hw1
