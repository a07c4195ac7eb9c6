import EmbeddedOS.Hw3.Handlers

namespace EmbeddedOS.Hw3

open CText Runs

def Request.Valid (r : Request) : Prop := (∀ j, 0 ≤ r.mask_num j) ∧ ∑ j, r.mask_num j ≤ 3

def Request.Stocked (g : Globals) (i : ℕ) (r : Request) : Prop :=
  ∀ j, r.mask_num j ≤ (g.row i (r.city_num - 1)).count j

instance (r : Request) : Decidable r.Valid := inferInstanceAs (Decidable (_ ∧ _))

instance (g : Globals) (i : ℕ) (r : Request) : Decidable (r.Stocked g i) :=
  inferInstanceAs (Decidable (∀ _, _))

inductive Verdict where
  | refuse
  | unknown
  | sell (i : ℕ)
  deriving DecidableEq

def verdict (g : Globals) (r : Request) : Verdict :=
  if startsWith (lit "XXX") r.type = true ∨ ¬ r.Valid then .refuse
  else
    match findType g r.type with
    | none => .unknown
    | some i => if r.city_num ≤ (g.row i 0).type_num ∧ r.Stocked g i then .sell i else .refuse

def refused (g : Globals) (c : Conn) (info : Text) : Outcome :=
  ⟨g.record (recordHead 50 g c.fd info ++ buy_fail), c, [buy_fail], info, buy_fail⟩

def unanswered (g : Globals) (c : Conn) (info : Text) : Outcome :=
  ⟨g.record (recordHead 50 g c.fd info), c, [], info, []⟩

def saleWrites : List Text := [disinfect, putting_mask, thankyou]

def sold (g : Globals) (c : Conn) (info : Text) (i : ℕ) (r : Request) : Outcome :=
  ⟨(purchase g i r c.ID).record (recordHead 50 g c.fd info ++ purchaseInfo),
    { c with iflogin := false }, saleWrites, info, purchaseInfo⟩

theorem valid_iff (r : Request) : r.Valid ↔
    ¬ (r.mask_num 0 > 3 ∨ r.mask_num 1 > 3 ∨ r.mask_num 2 > 3) ∧
    ¬ (r.mask_num 0 < 0 ∨ r.mask_num 1 < 0 ∨ r.mask_num 2 < 0) ∧
    ¬ r.mask_num 0 + r.mask_num 1 + r.mask_num 2 > 3 := by
  simp only [Request.Valid, Fin.forall_fin_succ, Fin.sum_univ_three, IsEmpty.forall_iff, and_true,
    Fin.succ_zero_eq_one, Fin.succ_one_eq_two]
  omega

theorem stocked_iff (g : Globals) (i : ℕ) (r : Request) : r.Stocked g i ↔
    ¬ ((g.row i (r.city_num - 1)).a < r.mask_num 0 ∨ (g.row i (r.city_num - 1)).b < r.mask_num 1 ∨
      (g.row i (r.city_num - 1)).c < r.mask_num 2) := by
  simp only [Request.Stocked, Inv.count, Fin.forall_fin_succ, IsEmpty.forall_iff, and_true,
    Fin.succ_zero_eq_one, Fin.succ_one_eq_two, Matrix.cons_val_zero, Matrix.cons_val_one,
    Matrix.cons_val]
  omega

theorem server_buy_eq (l : Locals) (beyond : ℕ → ID) (g : Globals) (c : Conn) (info : Text) :
    server_buy l beyond g c info =
      if c.iflogin = true ∧ check_day_of_week g beyond c.ID = true then
        match verdict g (scanRequest l info) with
        | .refuse => refused g c info
        | .unknown => unanswered g c info
        | .sell i => sold g c info i (scanRequest l info)
      else refused g c info := by
  unfold server_buy verdict
  by_cases hl : c.iflogin = true
  · by_cases hd : check_day_of_week g beyond c.ID = true
    · simp only [hl, hd, Bool.true_eq_false, ↓reduceIte, and_self]
      by_cases hx : startsWith (lit "XXX") (scanRequest l info).type = true
      · simp [hx, refused]
      · by_cases hv : (scanRequest l info).Valid
        · obtain ⟨h1, h2, h3⟩ := (valid_iff _).mp hv
          simp only [hx, hv, h1, h2, h3, Bool.false_eq_true, ↓reduceIte, not_true_eq_false, or_self]
          cases findType g (scanRequest l info).type with
          | none => rfl
          | some i =>
            by_cases hc : (g.row i 0).type_num < (scanRequest l info).city_num
            · simp [hc, not_le.mpr hc, refused]
            · by_cases hs : (scanRequest l info).Stocked g i
              · simp [hc, not_lt.mp hc, hs, (stocked_iff _ _ _).mp hs, sold, saleWrites]
              · have hn := not_not.mp (mt (stocked_iff g i (scanRequest l info)).mpr hs)
                simp only [hc, hs, hn, ↓reduceIte, and_false, refused]
        · simp only [hx, hv, Bool.false_eq_true, ↓reduceIte, not_false_eq_true, or_true, refused]
          split_ifs with h1 h2 h3
          · rfl
          · rfl
          · rfl
          · exact absurd ((valid_iff _).mpr ⟨h1, h2, h3⟩) hv
    · simp [hl, hd, refused]
  · simp [hl, refused]

theorem findType_eq_some {g : Globals} {type : Text} {i : ℕ} (h : findType g type = some i) :
    i < g.num ∧ type = (g.row i 0).type := by
  have hm := List.mem_of_find?_eq_some h
  have hp := List.find?_some h
  exact ⟨List.mem_range.mp hm, by simpa using hp⟩

theorem findType_eq_none {g : Globals} {type : Text} :
    findType g type = none ↔ ∀ i < g.num, type ≠ (g.row i 0).type := by
  simp [findType, List.find?_eq_none]

theorem verdict_refuse {g : Globals} {r : Request} (h : ¬ (startsWith (lit "XXX") r.type = false ∧ r.Valid)) :
    verdict g r = .refuse := by
  rw [verdict, if_pos]
  by_contra hno
  push Not at hno
  exact h ⟨by simpa using hno.1, hno.2⟩

theorem verdict_named {g : Globals} {r : Request} (hx : startsWith (lit "XXX") r.type = false) (hv : r.Valid) :
    verdict g r = match findType g r.type with
      | none => .unknown
      | some i => if r.city_num ≤ (g.row i 0).type_num ∧ r.Stocked g i then .sell i else .refuse := by
  rw [verdict, if_neg]
  simp [hx, hv]

theorem verdict_eq_sell {g : Globals} {r : Request} {i : ℕ} : verdict g r = .sell i ↔
    startsWith (lit "XXX") r.type = false ∧ r.Valid ∧ findType g r.type = some i ∧
      r.city_num ≤ (g.row i 0).type_num ∧ r.Stocked g i := by
  by_cases h : startsWith (lit "XXX") r.type = false ∧ r.Valid
  · obtain ⟨hx, hv⟩ := h
    simp only [verdict_named hx hv, hx, hv, true_and]
    cases findType g r.type with
    | none => simp
    | some j =>
      by_cases hj : r.city_num ≤ (g.row j 0).type_num ∧ r.Stocked g j
      · simp only [hj, and_self, ↓reduceIte, Verdict.sell.injEq, Option.some.injEq]
        constructor
        · rintro rfl
          exact ⟨rfl, hj⟩
        · exact fun h => h.1
      · simp only [hj, ↓reduceIte, reduceCtorEq, Option.some.injEq, false_iff]
        rintro ⟨rfl, h⟩
        exact hj h
  · rw [verdict_refuse h]
    simp only [reduceCtorEq, false_iff]
    exact fun hsell => h ⟨hsell.1, hsell.2.1⟩

theorem verdict_eq_unknown {g : Globals} {r : Request} : verdict g r = .unknown ↔
    startsWith (lit "XXX") r.type = false ∧ r.Valid ∧ findType g r.type = none := by
  by_cases h : startsWith (lit "XXX") r.type = false ∧ r.Valid
  · obtain ⟨hx, hv⟩ := h
    simp only [verdict_named hx hv, hx, hv, true_and]
    cases findType g r.type with
    | none => simp
    | some j =>
      simp only [reduceCtorEq, iff_false]
      split_ifs <;> simp
  · rw [verdict_refuse h]
    simp only [reduceCtorEq, false_iff]
    exact fun hunknown => h ⟨hunknown.1, hunknown.2.1⟩

def Outcome.LoggedIn (o : Outcome) : Prop := o.writes = [login_succ]

def Outcome.LoggedOut (o : Outcome) : Prop := o.writes = [logout_succ]

def Outcome.Sold (o : Outcome) : Prop := o.writes = saleWrites

instance (o : Outcome) : Decidable o.LoggedIn := inferInstanceAs (Decidable (_ = _))
instance (o : Outcome) : Decidable o.LoggedOut := inferInstanceAs (Decidable (_ = _))
instance (o : Outcome) : Decidable o.Sold := inferInstanceAs (Decidable (_ = _))

def Outcome.Quiet (o : Outcome) : Prop := ¬ o.LoggedIn ∧ ¬ o.LoggedOut ∧ ¬ o.Sold

theorem quiet_of {o : Outcome} (w : List Text) (ho : o.writes = w)
    (hw : w ≠ [login_succ] ∧ w ≠ [logout_succ] ∧ w ≠ saleWrites) : o.Quiet := by
  subst ho
  exact hw

theorem Outcome.LoggedIn.not_loggedOut {o : Outcome} (h : o.LoggedIn) : ¬ o.LoggedOut := by
  intro ho
  have he : [login_succ] = [logout_succ] := h.symm.trans ho
  exact absurd he (by decide)

theorem Outcome.LoggedIn.not_sold {o : Outcome} (h : o.LoggedIn) : ¬ o.Sold := by
  intro hs
  have he : [login_succ] = saleWrites := h.symm.trans hs
  exact absurd he (by decide)

theorem Outcome.LoggedOut.not_sold {o : Outcome} (h : o.LoggedOut) : ¬ o.Sold := by
  intro hs
  have he : [logout_succ] = saleWrites := h.symm.trans hs
  exact absurd he (by decide)

inductive Kind where
  | display
  | login
  | logout
  | buy
  | statics
  | invalid
  deriving DecidableEq

def kind (buf : Text) : Kind :=
  if startsWith (lit "show") buf then .display
  else if startsWith (lit "login") buf then .login
  else if startsWith (lit "logout") buf then .logout
  else if startsWith (lit "buy") buf then .buy
  else if startsWith (lit "statics") buf then .statics
  else .invalid

theorem mask_server_eq (l : Locals) (beyond : ℕ → ID) (g : Globals) (c : Conn) (buf : Text) :
    mask_server l beyond g c buf =
      match kind buf with
      | .display => server_show g c
      | .login => server_login l g c buf
      | .logout => server_logout g c
      | .buy => server_buy l beyond g c buf
      | .statics => server_statics g c
      | .invalid => server_invalid g c := by
  unfold mask_server kind
  split_ifs <;> rfl

/-- The command passes every test of its handler that stands before a change. -/
def Acts (l : Locals) (beyond : ℕ → ID) (g : Globals) (c : Conn) (buf : Text) : Prop :=
  match kind buf with
  | .login => c.iflogin = false ∧ check_ID l.y (scanID l buf) = true
  | .logout => c.iflogin = true
  | .buy => c.iflogin = true ∧ check_day_of_week g beyond c.ID = true ∧
      ∃ i, verdict g (scanRequest l buf) = .sell i
  | _ => False

def Verdict.decidableSell (v : Verdict) : Decidable (∃ i, v = .sell i) :=
  match v with
  | .refuse => isFalse (by simp)
  | .unknown => isFalse (by simp)
  | .sell i => isTrue ⟨i, rfl⟩

instance (l : Locals) (beyond : ℕ → ID) (g : Globals) (c : Conn) (buf : Text) :
    Decidable (Acts l beyond g c buf) :=
  match hk : kind buf with
  | .login => decidable_of_iff (c.iflogin = false ∧ check_ID l.y (scanID l buf) = true) (by simp [Acts, hk])
  | .logout => decidable_of_iff (c.iflogin = true) (by simp [Acts, hk])
  | .buy =>
    have := (verdict g (scanRequest l buf)).decidableSell
    decidable_of_iff (c.iflogin = true ∧ check_day_of_week g beyond c.ID = true ∧
      ∃ i, verdict g (scanRequest l buf) = .sell i) (by simp [Acts, hk])
  | .display => isFalse (by simp [Acts, hk])
  | .statics => isFalse (by simp [Acts, hk])
  | .invalid => isFalse (by simp [Acts, hk])

/-- The four effects. `nothing` covers every refusal, `show`, `statics` and an unknown type. -/
inductive Did (l : Locals) (beyond : ℕ → ID) (g : Globals) (c : Conn) (buf : Text) (o : Outcome) : Prop
  | nothing (t : Text) (rejects : ¬ Acts l beyond g c buf) (globals : o.globals = g.record t)
      (conn : o.conn = c) (quiet : o.Quiet)
  | login (t : Text) (command : kind buf = .login) (out : c.iflogin = false)
      (valid : check_ID l.y (scanID l buf) = true) (globals : o.globals = g.record t)
      (conn : o.conn = { c with iflogin := true, ID := scanID l buf }) (answer : o.LoggedIn)
  | logout (t : Text) (command : kind buf = .logout) (login : c.iflogin = true)
      (globals : o.globals = (g.addBuied c.ID).record t) (conn : o.conn = { c with iflogin := false })
      (answer : o.LoggedOut)
  | buy (i : ℕ) (t : Text) (command : kind buf = .buy) (login : c.iflogin = true)
      (day : check_day_of_week g beyond c.ID = true) (sells : verdict g (scanRequest l buf) = .sell i)
      (globals : o.globals = (purchase g i (scanRequest l buf) c.ID).record t)
      (conn : o.conn = { c with iflogin := false }) (answer : o.Sold)

theorem show_quiet (g : Globals) (c : Conn) : (server_show g c).Quiet := by
  obtain ⟨t, ht⟩ : ∃ t, (server_show g c).writes = [115 :: t] := ⟨_, rfl⟩
  refine quiet_of _ ht ⟨fun h => ?_, fun h => ?_, fun h => ?_⟩
  · have hh : some 115 = login_succ.head? := congrArg List.head? (List.singleton_inj.mp h)
    exact absurd hh (by decide)
  · have hh : some 115 = logout_succ.head? := congrArg List.head? (List.singleton_inj.mp h)
    exact absurd hh (by decide)
  · exact absurd (congrArg List.length h) (by simp [saleWrites])

theorem statics_quiet (g : Globals) (c : Conn) : (server_statics g c).Quiet := by
  obtain ⟨b, t, ht⟩ := List.exists_cons_of_ne_nil (decimal_ne_nil g.alcohol)
  have hb : b = 45 ∨ isdigit b = true := mem_decimal (n := g.alcohol) (by simp [ht])
  have hw : (server_statics g c).writes = [b :: snprintf 9 (t ++ [newline])] := by
    simp [server_statics, ht, snprintf]
  have hne : ∀ w : Text, w.head? = some 76 → [b :: snprintf 9 (t ++ [newline])] ≠ [w] := by
    intro w hw h
    have hh : some b = w.head? := congrArg List.head? (List.singleton_inj.mp h)
    obtain rfl : b = 76 := by simpa using hh.trans hw
    exact absurd hb (by decide)
  refine quiet_of _ hw ⟨hne _ (by decide), hne _ (by decide), fun h => ?_⟩
  exact absurd (congrArg List.length h) (by simp [saleWrites])

theorem mask_server_did (l : Locals) (beyond : ℕ → ID) (g : Globals) (c : Conn) (buf : Text) :
    Did l beyond g c buf (mask_server l beyond g c buf) := by
  rw [mask_server_eq]
  cases hk : kind buf with
  | display => exact .nothing _ (by simp [Acts, hk]) rfl rfl (show_quiet g c)
  | statics => exact .nothing _ (by simp [Acts, hk]) rfl rfl (statics_quiet g c)
  | invalid => exact .nothing _ (by simp [Acts, hk]) rfl rfl (quiet_of [invalid] rfl (by decide))
  | login =>
    simp only [server_login]
    split_ifs with hl hid
    · exact .login _ hk hl hid rfl rfl rfl
    · exact .nothing _ (by simp [Acts, hk, hid]) rfl rfl (quiet_of [login_fail] rfl (by decide))
    · exact .nothing _ (by simp [Acts, hk, hl]) rfl rfl (quiet_of [login_fail] rfl (by decide))
  | logout =>
    simp only [server_logout]
    split_ifs with hl
    · exact .nothing _ (by simp [Acts, hk, hl]) rfl rfl (quiet_of [logout_fail] rfl (by decide))
    · exact .logout _ hk (by simpa using hl) rfl rfl rfl
  | buy =>
    simp only [server_buy_eq]
    split_ifs with hd
    · cases hv : verdict g (scanRequest l buf) with
      | refuse => exact .nothing _ (by simp [Acts, hk, hv]) rfl rfl (quiet_of [buy_fail] rfl (by decide))
      | unknown => exact .nothing _ (by simp [Acts, hk, hv]) rfl rfl (quiet_of [] rfl (by decide))
      | sell i => exact .buy i _ hk hd.1 hd.2 hv rfl rfl rfl
    · refine .nothing _ ?_ rfl rfl (quiet_of [buy_fail] rfl (by decide))
      rintro h
      simp only [Acts, hk] at h
      exact hd ⟨h.1, h.2.1⟩

theorem sold_iff (l : Locals) (beyond : ℕ → ID) (g : Globals) (c : Conn) (buf : Text)
    (hk : kind buf = .buy) : (mask_server l beyond g c buf).Sold ↔ c.iflogin = true ∧
      check_day_of_week g beyond c.ID = true ∧ ∃ i, verdict g (scanRequest l buf) = .sell i := by
  cases mask_server_did l beyond g c buf with
  | nothing t rejects globals conn quiet =>
    simp only [Acts, hk] at rejects
    exact iff_of_false quiet.2.2 rejects
  | login t command => rw [hk] at command; cases command
  | logout t command => rw [hk] at command; cases command
  | buy i t command login day sells globals conn answer =>
    exact iff_of_true answer ⟨login, day, i, sells⟩

def Records (l : Locals) (beyond : ℕ → ID) (g : Globals) (c : Conn) (buf : Text) : Prop :=
  kind buf ≠ .login ∧ Acts l beyond g c buf

instance (l : Locals) (beyond : ℕ → ID) (g : Globals) (c : Conn) (buf : Text) :
    Decidable (Records l beyond g c buf) := inferInstanceAs (Decidable (_ ∧ _))

theorem records_iff (l : Locals) (beyond : ℕ → ID) (g : Globals) (c : Conn) (buf : Text) :
    (mask_server l beyond g c buf).LoggedOut ∨ (mask_server l beyond g c buf).Sold ↔
      Records l beyond g c buf := by
  cases mask_server_did l beyond g c buf with
  | nothing t rejects globals conn quiet =>
    refine iff_of_false ?_ (fun h => rejects h.2)
    rintro (ho | hs)
    · exact quiet.2.1 ho
    · exact quiet.2.2 hs
  | login t command out valid globals conn answer =>
    refine iff_of_false ?_ (fun h => h.1 command)
    rintro (ho | hs)
    · exact answer.not_loggedOut ho
    · exact answer.not_sold hs
  | logout t command login globals conn answer =>
    exact iff_of_true (Or.inl answer) ⟨by simp [command], by simpa [Acts, command] using login⟩
  | buy i t command login day sells globals conn answer =>
    refine iff_of_true (Or.inr answer) ⟨by simp [command], ?_⟩
    simp only [Acts, command]
    exact ⟨login, day, i, sells⟩

end EmbeddedOS.Hw3
