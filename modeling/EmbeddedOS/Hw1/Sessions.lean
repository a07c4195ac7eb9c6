import EmbeddedOS.Hw1.State

namespace EmbeddedOS.Hw1

open CText Runs

def Display.Quiet : Display → Prop
  | .blank => True
  | .pressLogin => True
  | .alcohol _ => True
  | _ => False

/-- What a key does that stores inside the arrays; `stepped` is the only place that looks inside the loops. -/
inductive Stepped (g : Globals) (e : Press) (g' : Globals) (d : Display) : Prop
  | idles (post : g' = g) (shown : d.Quiet)
  | shows (mode : g.mode = .main) (post : g' = readInventory g) (shown : d = .inventory)
  | begins (mode : g.mode = .main) (out : g.inOut = false)
      (post : g' = { g with inOut := true, mode := .login 0 }) (shown : d = .askID)
  | leaves (mode : g.mode = .main) (inside : g.inOut = true)
      (post : g' = { g with buy_n := 0, inOut := false }) (shown : d = .menu)
  | refuses (mode : g.mode = .main) (inside : g.inOut = true) (sold : g.bought_n ≥ 1)
      (recorded : ifboughtfn g e.beyond = true) (post : g' = g) (shown : d = .alreadyBought)
  | orders (mode : g.mode = .main) (inside : g.inOut = true)
      (clear : g.bought_n ≥ 1 → ifboughtfn g e.beyond = false)
      (post : g' = { g with mode := .buy 0 }) (shown : d = .askOrder)
  | stops (mode : g.mode = .main) (post : g' = { g with mode := .ended }) (shown : d = .blank)
  | types (i : ℕ) (mode : g.mode = .login i)
      (post : g' = { g with
        ID_number := fun j => if j.val = i then e.key else g.ID_number j
        mode := .login (i + 1) }) (shown : d = .echo e.key)
  | accepts (i : ℕ) (mode : g.mode = .login i) (valid : checkIDnumber g.day_of_week g.ID_number = true)
      (post : g' = recordLogin { g with allowlog := true, mode := .main }) (shown : d = .loggedIn)
  | rejects (i : ℕ) (mode : g.mode = .login i) (invalid : checkIDnumber g.day_of_week g.ID_number = false)
      (post : g' = { g with allowlog := false, mode := .main }) (shown : d = .notAllowed)
  | keys (i : ℕ) (mode : g.mode = .buy i)
      (post : g' = { g with
        buyinfo := fun j => if j.val = i then e.key else g.buyinfo j
        mode := .buy (i + 1) }) (shown : d = .echo e.key)
  | spoils (i : ℕ) (mode : g.mode = .buy i) (post : g' = { g with mode := .main }) (shown : d = .tooMany)
  | again (mode : g.mode = .buy 9) (bought : g.buy_n ≥ 1)
      (post : g' = { g with buy_n := 0, mode := .main }) (shown : d = .haveBought)
  | sells (sale : Completes g e) (post : g' = purchase g) (supplement : Bool) (shown : d = .purchased supplement)

theorem main_stepped {g : Globals} (h : g.mode = .main) (e : Press) :
    Stepped g e (mainKey g e).1 (mainKey g e).2 := by
  unfold mainKey
  split_ifs with h1 h2 hin h3 hin hb h4 hstop
  · exact .shows h rfl rfl
  · exact .begins h hin rfl rfl
  · exact .leaves h (by simpa using hin) rfl rfl
  · exact .idles rfl trivial
  · exact .refuses h (by simpa using hin) hb.1 hb.2 rfl rfl
  · refine .orders h (by simpa using hin) ?_ rfl rfl
    intro hn
    rw [Bool.eq_false_iff]
    exact fun hf => hb ⟨hn, hf⟩
  · exact .idles rfl trivial
  · exact .stops h rfl rfl
  · exact .idles rfl trivial

theorem stepped {g : Globals} {e : Press} (h : spills g e = false) :
    Stepped g e (machine.step g e).1 (machine.step g e).2 := by
  cases hm : g.mode with
  | main =>
    have hs : machine.step g e = mainKey g e := by simp [machine, h, hm]
    rw [hs]
    exact main_stepped hm e
  | login i =>
    have hs : machine.step g e = loginKey g i e := by simp [machine, h, hm]
    rw [hs]
    by_cases hk : e.key = ch '#'
    · by_cases hid : checkIDnumber g.day_of_week g.ID_number = true
      · exact .accepts i hm hid (by simp [loginKey, hk, hid]) (by simp [loginKey, hk, hid])
      · rw [Bool.not_eq_true] at hid
        exact .rejects i hm hid (by simp [loginKey, hk, hid]) (by simp [loginKey, hk, hid])
    · exact .types i hm (by simp [loginKey, hk]) (by simp [loginKey, hk])
  | buy i =>
    have hs : machine.step g e = buyKey g i e := by simp [machine, h, hm]
    rw [hs]
    simp only [buyKey]
    split_ifs with hk hbad hn
    · exact .spoils i hm rfl rfl
    · obtain ⟨h9, hsum⟩ := not_or.mp hbad
      obtain rfl := not_not.mp h9
      exact .again hm hn rfl rfl
    · obtain ⟨h9, hsum⟩ := not_or.mp hbad
      obtain rfl := not_not.mp h9
      exact .sells ⟨hm, hk, not_lt.mp hsum, not_le.mp hn⟩ rfl _ rfl
    · exact .keys i hm rfl rfl
  | ended => exact .idles (by simp [machine, h, hm]) (by simp [machine, h, hm, Display.Quiet])

def Loads (g g' : Globals) : Prop :=
  ∃ data in_num s num, g' = { g with data := data, in_num := in_num, s := s, num := num }

theorem Loads.refl (g : Globals) : Loads g g := ⟨g.data, g.in_num, g.s, g.num, rfl⟩

theorem Loads.trans {g g' g'' : Globals} (h : Loads g g') (h' : Loads g' g'') : Loads g g'' := by
  obtain ⟨data, in_num, s, num, rfl⟩ := h
  obtain ⟨data', in_num', s', num', rfl⟩ := h'
  exact ⟨data', in_num', s', num', rfl⟩

theorem line_loads (r : Reader) : Loads r.globals r.line.globals := by
  unfold Reader.line
  split
  · exact Loads.refl _
  · exact ⟨_, _, _, _, rfl⟩

theorem readCity_loads (i j : ℕ) (r : Reader) : Loads r.globals (readCity i j r).globals :=
  (line_loads r).trans ⟨_, _, _, _, rfl⟩

theorem readCities_loads (i j n : ℕ) (r : Reader) : Loads r.globals (readCities i j n r).globals := by
  induction n generalizing j r with
  | zero => exact Loads.refl _
  | succ n ih => exact (readCity_loads i j r).trans (ih (j + 1) (readCity i j r))

theorem readType_loads (i : ℕ) (r : Reader) : Loads r.globals (readType i r).globals := by
  have hcount (g : Globals) (x : ℕ → ℤ) : Loads g { g with in_num := x } := ⟨_, _, _, _, rfl⟩
  exact (line_loads r).trans ((line_loads r.line).trans ((hcount _ _).trans (readCities_loads i 0 _ _)))

theorem readTypes_loads (i n : ℕ) (r : Reader) : Loads r.globals (readTypes i n r).globals := by
  induction n generalizing i r with
  | zero => exact Loads.refl _
  | succ n ih => exact (readType_loads i r).trans (ih (i + 1) (readType i r))

theorem readInventory_loads (g : Globals) : Loads g (readInventory g) := by
  have hnum (g : Globals) (x : ℤ) : Loads g { g with num := x } := ⟨_, _, _, _, rfl⟩
  exact (line_loads ⟨g, g.file, true⟩).trans ((hnum _ _).trans (readTypes_loads 0 _ _))

def LoginEnds (q : Handled) : Prop := q.out = .loggedIn ∨ q.out = .notAllowed

def LoggedOut (q : Handled) : Prop := q.out = .menu

def Purchased (q : Handled) : Prop := ∃ supplement, q.out = .purchased supplement

def EndsSession (q : Handled) : Prop := LoginEnds q ∨ LoggedOut q

/-- The last `login` of the session let in the ID that is now in `ID_number`, and no logout has
happened since. -/
def Covered (h : List Handled) (g : Globals) : Prop :=
  Since (fun q => ¬ EndsSession q) (fun q => q.out = .loggedIn ∧ q.post.ID_number = g.ID_number) h

structure Session (h : List Handled) (g : Globals) : Prop where
  login : ∀ i, g.mode = .login i → g.inOut = true
  buy : ∀ i, g.mode = .buy i → g.inOut = true
  ended : g.inOut = true → (∀ i, g.mode ≠ .login i) →
    Since (fun q => ¬ EndsSession q) (fun q => LoginEnds q ∧ q.post.ID_number = g.ID_number ∧
      (q.out = .loggedIn ↔ checkIDnumber g.day_of_week g.ID_number = true)) h
  flag : g.inOut = true → (∀ i, g.mode ≠ .login i) →
    g.allowlog = checkIDnumber g.day_of_week g.ID_number

theorem Session.keep {h : List Handled} {g : Globals} (hs : Session h g) {q : Handled}
    (hq : ¬ EndsSession q) {k : Globals} (hin : k.inOut = g.inOut) (hid : k.ID_number = g.ID_number)
    (hday : k.day_of_week = g.day_of_week) (hflag : k.allowlog = g.allowlog)
    (hlogin : ∀ i, k.mode ≠ .login i) (hwas : ∀ i, g.mode ≠ .login i)
    (hbuy : ∀ i, k.mode = .buy i → g.inOut = true) : Session (h ++ [q]) k := by
  constructor
  case login => exact fun i hi => absurd hi (hlogin i)
  case buy =>
    intro i hi
    rw [hin]
    exact hbuy i hi
  case ended =>
    intro hio _
    rw [hin] at hio
    rw [since_snoc, hid, hday]
    exact Or.inr ⟨hq, hs.ended hio hwas⟩
  case flag =>
    intro hio _
    rw [hin] at hio
    rw [hid, hday, hflag]
    exact hs.flag hio hwas

theorem session_ended {h : List Handled} {q : Handled} {k : Globals} (hmode : k.mode = .main) (hq : LoginEnds q)
    (hid : q.post.ID_number = k.ID_number)
    (hiff : q.out = .loggedIn ↔ checkIDnumber k.day_of_week k.ID_number = true)
    (hflag : k.allowlog = checkIDnumber k.day_of_week k.ID_number) : Session (h ++ [q]) k := by
  constructor
  case login =>
    intro i hi
    cases hmode.symm.trans hi
  case buy =>
    intro i hi
    cases hmode.symm.trans hi
  case ended =>
    intro _ _
    rw [since_snoc]
    exact Or.inl ⟨hq, hid, hiff⟩
  case flag => exact fun _ _ => hflag

theorem not_endsSession {q : Handled} (h : q.out ≠ .loggedIn ∧ q.out ≠ .notAllowed ∧ q.out ≠ .menu) :
    ¬ EndsSession q := by
  rintro ((ho | ho) | ho)
  · exact h.1 ho
  · exact h.2.1 ho
  · exact h.2.2 ho

theorem Display.Quiet.not_ends {d : Display} (h : d.Quiet) : d ≠ .loggedIn ∧ d ≠ .notAllowed ∧ d ≠ .menu := by
  cases d <;> simp [Display.Quiet] at h ⊢

theorem session_step {h : List Handled} {g : Globals} {e : Press} (hc : spills g e = false) (hs : Session h g) :
    Session (h ++ [machine.moment g e]) (machine.step g e).1 := by
  have hd : (machine.moment g e).out = (machine.step g e).2 := rfl
  have hstep := stepped hc
  have hkeep {k : Globals} := hs.keep (q := machine.moment g e) (k := k)
  have hpost : (machine.moment g e).post = (machine.step g e).1 := rfl
  generalize machine.moment g e = q at hd hkeep hpost ⊢
  cases hstep with
  | idles post shown =>
    have hq : ¬ EndsSession q := not_endsSession (by rw [hd]; exact shown.not_ends)
    rw [post]
    constructor
    case login => exact hs.login
    case buy => exact hs.buy
    case ended =>
      intro hio hm
      rw [since_snoc]
      exact Or.inr ⟨hq, hs.ended hio hm⟩
    case flag => exact hs.flag
  | shows mode post shown =>
    obtain ⟨data, in_num, s, num, hl⟩ := readInventory_loads g
    rw [post, hl]
    exact hkeep (not_endsSession (by simp [hd, shown])) rfl rfl rfl rfl (by simp [mode]) (by simp [mode])
      (by simp [mode])
  | begins mode out post shown =>
    rw [post]
    exact ⟨fun _ _ => rfl, fun i hi => (by cases hi), fun _ hm => absurd rfl (hm 0), fun _ hm => absurd rfl (hm 0)⟩
  | leaves mode inside post shown =>
    rw [post]
    constructor
    case login =>
      intro i hi
      cases mode.symm.trans hi
    case buy =>
      intro i hi
      cases mode.symm.trans hi
    case ended =>
      intro hio
      cases hio
    case flag =>
      intro hio
      cases hio
  | refuses mode inside sold recorded post shown =>
    rw [post]
    exact hkeep (not_endsSession (by simp [hd, shown])) rfl rfl rfl rfl (by simp [mode]) (by simp [mode])
      (by simp [mode])
  | orders mode inside clear post shown =>
    rw [post]
    exact hkeep (not_endsSession (by simp [hd, shown])) rfl rfl rfl rfl (by simp) (by simp [mode])
      (fun _ _ => inside)
  | stops mode post shown =>
    rw [post]
    exact hkeep (not_endsSession (by simp [hd, shown])) rfl rfl rfl rfl (by simp) (by simp [mode]) (by simp)
  | types i mode post shown =>
    rw [post]
    exact ⟨fun _ _ => hs.login i mode, fun j hj => (by cases hj), fun _ hm => absurd rfl (hm (i + 1)),
      fun _ hm => absurd rfl (hm (i + 1))⟩
  | accepts i mode valid post shown =>
    rw [post]
    have hid : q.post.ID_number = g.ID_number := by
      rw [hpost, post]
      rfl
    exact session_ended rfl (Or.inl (hd.trans shown)) hid (iff_of_true (hd.trans shown) valid) valid.symm
  | rejects i mode invalid post shown =>
    rw [post]
    have hid : q.post.ID_number = g.ID_number := by rw [hpost, post]
    have hiff : q.out = .loggedIn ↔ checkIDnumber g.day_of_week g.ID_number = true := by
      apply iff_of_false
      · simp [hd, shown]
      · rw [Bool.not_eq_true]
        exact invalid
    exact session_ended rfl (Or.inr (hd.trans shown)) hid hiff invalid.symm
  | keys i mode post shown =>
    rw [post]
    exact hkeep (not_endsSession (by simp [hd, shown])) rfl rfl rfl rfl (by simp) (by simp [mode])
      (fun _ _ => hs.buy i mode)
  | spoils i mode post shown =>
    rw [post]
    exact hkeep (not_endsSession (by simp [hd, shown])) rfl rfl rfl rfl (by simp) (by simp [mode]) (by simp)
  | again mode bought post shown =>
    rw [post]
    exact hkeep (not_endsSession (by simp [hd, shown])) rfl rfl rfl rfl (by simp) (by simp [mode]) (by simp)
  | sells sale post supplement shown =>
    rw [post]
    exact hkeep (not_endsSession (by simp [hd, shown])) rfl rfl rfl rfl (by simp [purchase, rewriteInv])
      (by simp [sale.1]) (by simp [purchase, rewriteInv])

theorem session_after {b : Boot} {es : List Press} (hc : b.Confined es) :
    Session (b.history es) (b.after es) := by
  induction es using List.reverseRecOn with
  | nil =>
    constructor
    case login =>
      intro i hi
      cases hi
    case buy =>
      intro i hi
      cases hi
    case ended =>
      intro hio
      cases hio
    case flag =>
      intro hio
      cases hio
  | append_singleton es e ih =>
    rw [after_snoc, history_snoc]
    exact session_step (hc.step (List.prefix_refl _)) (ih (hc.left (List.prefix_append ..)))

theorem purchased_completes {g : Globals} {e : Press} (hc : spills g e = false)
    (h : Purchased (machine.moment g e)) : Completes g e := by
  obtain ⟨supplement, hout⟩ := h
  change (machine.step g e).2 = _ at hout
  cases stepped hc with
  | sells sale post supplement' shown => exact sale
  | idles post shown =>
    rw [hout] at shown
    exact shown.elim
  | shows mode post shown => cases hout.symm.trans shown
  | begins mode out post shown => cases hout.symm.trans shown
  | leaves mode inside post shown => cases hout.symm.trans shown
  | refuses mode inside sold recorded post shown => cases hout.symm.trans shown
  | orders mode inside clear post shown => cases hout.symm.trans shown
  | stops mode post shown => cases hout.symm.trans shown
  | types i mode post shown => cases hout.symm.trans shown
  | accepts i mode valid post shown => cases hout.symm.trans shown
  | rejects i mode invalid post shown => cases hout.symm.trans shown
  | keys i mode post shown => cases hout.symm.trans shown
  | spoils i mode post shown => cases hout.symm.trans shown
  | again mode bought post shown => cases hout.symm.trans shown

theorem Completes.step {g : Globals} {e : Press} (hc : spills g e = false) (h : Completes g e) :
    machine.step g e = (purchase g, .purchased (decide (g.alcohol ≤ 0))) := by
  obtain ⟨hm, hk, hfew, hfirst⟩ := h
  have hs : machine.step g e = buyKey g 9 e := by simp [machine, hc, hm]
  rw [hs, buyKey]
  dsimp only
  rw [if_pos hk, if_neg (by omega), if_neg (by omega)]

theorem Completes.purchased {g : Globals} {e : Press} (hc : spills g e = false) (h : Completes g e) :
    Purchased (machine.moment g e) := ⟨_, congrArg Prod.snd (h.step hc)⟩

theorem covered_of_session {h : List Handled} {g : Globals} (hs : Session h g) {i : ℕ}
    (hm : g.mode = .buy i) : Covered h g ↔ checkIDnumber g.day_of_week g.ID_number = true := by
  have hin := hs.buy i hm
  have hlast := hs.ended hin (by simp [hm])
  constructor
  · intro hc
    obtain ⟨q, -, hlet, hend⟩ := since_unique hlast hc (fun q hq hne => hne (Or.inl hq.1))
      (fun q hq hne => hne (Or.inl (Or.inl hq.1)))
    exact hend.2.2.mp hlet.1
  · intro hv
    obtain ⟨before, q, after, hl, ⟨hend, hid, hiff⟩, hafter⟩ := hlast
    exact ⟨before, q, after, hl, ⟨hiff.mpr hv, hid⟩, hafter⟩

theorem covered_iff (b : Boot) (es : List Press) (hc : b.Confined es) :
    (∀ fs e, fs ++ [e] <+: es → Purchased (machine.moment (b.after fs) e) →
        Covered (b.history fs) (b.after fs)) ↔
      ∀ q ∈ b.history es, Purchased q → checkIDnumber q.pre.day_of_week q.pre.ID_number = true := by
  have hiff (fs : List Press) (e : Press) (hfs : fs ++ [e] <+: es) (hp : Purchased (machine.moment (b.after fs) e)) :
      Covered (b.history fs) (b.after fs) ↔
        checkIDnumber (b.after fs).day_of_week (b.after fs).ID_number = true :=
    covered_of_session (session_after (hc.left ((List.prefix_append fs [e]).trans hfs)))
      (purchased_completes (hc.step hfs) hp).1
  constructor
  · intro h q hq hp
    obtain ⟨fs, e, gs, rfl, rfl⟩ := machine.mem_trace_iff.mp hq
    have hfs : fs ++ [e] <+: fs ++ e :: gs := ⟨gs, by simp⟩
    exact (hiff fs e hfs hp).mp (h fs e hfs hp)
  · intro h fs e hfs hp
    have hv := h _ (moment_mem b hfs) hp
    rw [Machine.moment_pre] at hv
    exact (hiff fs e hfs hp).mpr hv

def press (c : Char) : Press := ⟨ch c, fun _ _ => 0, fun g => (g, .blank)⟩

def typed (keys : String) : List Press := keys.toList.map press

def sampleBoot : Boot where
  day_of_week := 1
  file := lit "1\nA\n2\n1 C1 5 5 5\n2 C2 5 5 5\n"
  around _ := ⟨0, 0, 0, 0, []⟩
  in_num_around _ := 0
  day_range := by decide

def oneOrder : String := "2A123456789#3A*1*1*0*0#"

theorem covered_iff_oneOrder :
    (∀ fs e, fs ++ [e] <+: typed oneOrder → Purchased (machine.moment (sampleBoot.after fs) e) →
        Covered (sampleBoot.history fs) (sampleBoot.after fs)) ↔
      ∀ q ∈ sampleBoot.history (typed oneOrder), Purchased q →
        checkIDnumber q.pre.day_of_week q.pre.ID_number = true :=
  covered_iff sampleBoot (typed oneOrder) (by decide)

theorem covered_fails :
    sampleBoot.Confined (typed "2#3A*1*1*0*0#") ∧
    Purchased (machine.moment (sampleBoot.after (typed "2#3A*1*1*0*0")) (press '#')) ∧
      ¬ Covered (sampleBoot.history (typed "2#3A*1*1*0*0")) (sampleBoot.after (typed "2#3A*1*1*0*0")) := by
  have hconf : sampleBoot.Confined (typed "2#3A*1*1*0*0") := by decide
  have hmode : (sampleBoot.after (typed "2#3A*1*1*0*0")).mode = .buy 9 := by decide
  refine ⟨by decide, ⟨false, by decide⟩, fun hc => ?_⟩
  have hv := (covered_of_session (session_after hconf) hmode).mp hc
  exact absurd hv (by decide)

end EmbeddedOS.Hw1
