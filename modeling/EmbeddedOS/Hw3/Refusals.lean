import EmbeddedOS.Hw3.Sales

namespace EmbeddedOS.Hw3

open CText Runs

structure Untouched (g g' : Globals) : Prop where
  num : g'.num = g.num
  data : g'.data = g.data
  day : g'.day = g.day
  alcohol : g'.alcohol = g.alcohol
  capacity : g'.alcohol_capacity = g.alcohol_capacity
  buied_num : g'.buied_num = g.buied_num
  buied_ID : g'.buied_ID = g.buied_ID

theorem untouched_record (g : Globals) (t : Text) : Untouched g (g.record t) :=
  ⟨rfl, rfl, rfl, rfl, rfl, rfl, rfl⟩

def NamesCity (n : ℤ) (city : Text) (k : ℕ) : Prop := (1 ≤ k ∧ (k : ℤ) ≤ n) ∧ city = decimal k

/-- A sale is one of the city that the text names, and changes the counts of no other row. Any
other text is refused. -/
def CityExact (g : Globals) (c : Conn) (i : ℕ) (city : Text) (o : Outcome) : Prop :=
  (o.Sold → ∃ k, NamesCity (g.row i 0).type_num city k ∧
    ∀ a, (o.globals.data a).count ≠ (g.data a).count → a = 100 * i + (k - 1)) ∧
  ((¬ ∃ k, NamesCity (g.row i 0).type_num city k) →
    o.writes = [buy_fail] ∧ o.conn = c ∧ Untouched g o.globals)

def TurnsAway (g : Globals) (r : Request) : Prop :=
  startsWith (lit "XXX") r.type = true ∨
    ∃ i, findType g r.type = some i ∧ ¬ (r.city_num ≤ (g.row i 0).type_num ∧ r.Stocked g i)

theorem verdict_eq_refuse {g : Globals} {r : Request} (hv : r.Valid) :
    verdict g r = .refuse ↔ TurnsAway g r := by
  by_cases hx : startsWith (lit "XXX") r.type = true
  · exact iff_of_true (verdict_refuse (by simp [hx])) (Or.inl hx)
  · rw [verdict_named (by simpa using hx) hv]
    simp only [TurnsAway, hx, Bool.false_eq_true, false_or]
    cases findType g r.type with
    | none => simp
    | some i => simp

theorem purchase_changes (g : Globals) (i : ℕ) (r : Request) (d : ID) (a : ℤ) :
    ((purchase g i r d).data a).count ≠ (g.data a).count ↔ a = r.article i ∧ r.mask_num ≠ 0 := by
  rw [purchase_count]
  by_cases ha : a = r.article i
  · subst ha
    simp
  · simp [ha]

theorem leading_digit (k : ℕ) : chr ((decimal k).head (decimal_ne_nil k)) - 48 ≤ 9 ∧
    (k ≤ 9 → chr ((decimal k).head (decimal_ne_nil k)) - 48 = k) := by
  constructor
  · have hb := isdigit_of_mem_digits (n := (k : ℤ).natAbs) (b := (decimal k).head (decimal_ne_nil k)) (by
      have hm := List.head_mem (decimal_ne_nil k)
      simp only [decimal, show ¬ (k : ℤ) < 0 by omega, ↓reduceIte] at hm ⊢
      exact hm)
    rw [chr_isdigit hb]
    have hle := ((isdigit_iff _).mp hb).2
    omega
  · intro hk
    interval_cases k <;> decide

theorem addressed_iff {g : Globals} {c : Conn} {info city : Text} {i : ℕ} {r : Request}
    (hw : IsWord city) (hr : r.city = city.head hw.1) :
    CityExact g c i city (sold g c info i r) ↔
      ∃ k, NamesCity (g.row i 0).type_num city k ∧ (k ≤ 9 ∨ r.mask_num = 0) := by
  have hs : (sold g c info i r).Sold := rfl
  have hf : ¬ (sold g c info i r).writes = [buy_fail] := by
    intro h
    have hlen : saleWrites.length = [buy_fail].length := congrArg List.length h
    exact absurd hlen (by decide)
  have hchange (a : ℤ) : ((sold g c info i r).globals.data a).count ≠ (g.data a).count ↔
      a = r.article i ∧ r.mask_num ≠ 0 := purchase_changes g i r c.ID a
  have hnum (k : ℕ) (hk : city = decimal k) : r.city_num ≤ 9 ∧ (k ≤ 9 → r.city_num = k) := by
    subst hk
    rw [Request.city_num, hr]
    exact leading_digit k
  simp only [CityExact, hs, hf, false_and, imp_false, not_not, forall_const, hchange]
  constructor
  · rintro ⟨⟨k, hk, ha⟩, -⟩
    refine ⟨k, hk, ?_⟩
    by_cases hm : r.mask_num = 0
    · exact Or.inr hm
    · have h := ha _ ⟨rfl, hm⟩
      have hn := (hnum k hk.2).1
      simp only [Request.article] at h
      omega
  · rintro ⟨k, hk, hle⟩
    refine ⟨⟨k, hk, ?_⟩, ⟨k, hk⟩⟩
    rintro a ⟨rfl, hm⟩
    have hn := (hnum k hk.2).2 (hle.resolve_right hm)
    rw [Request.article, hn]

theorem exact_of_refused (g : Globals) (c : Conn) (info city : Text) (i : ℕ) :
    CityExact g c i city (refused g c info) := by
  refine ⟨fun hs => ?_, fun _ => ⟨rfl, rfl, untouched_record _ _⟩⟩
  have he : [buy_fail] = saleWrites := hs
  exact absurd he (by decide)

theorem not_exact_of_unnamed {g : Globals} {c : Conn} {city : Text} {i : ℕ} {o : Outcome}
    (hw : o.writes = [] ∨ o.Sold) (hn : ¬ ∃ k, NamesCity (g.row i 0).type_num city k) :
    ¬ CityExact g c i city o := by
  rintro ⟨-, h⟩
  obtain ⟨hfail, -⟩ := h hn
  rcases hw with hw | hw
  · exact absurd (hw.symm.trans hfail) (by decide)
  · exact absurd (hw.symm.trans hfail) (by decide)

theorem exact_iff_of_unnamed {g : Globals} {c : Conn} {city : Text} {i : ℕ} {o : Outcome} {n : ℤ} {away : Prop}
    {single : ℕ → Prop} (hrow : (g.row i 0).type_num = n) (hw : o.writes = [] ∨ o.Sold)
    (hn : ¬ ∃ k, NamesCity n city k) (haway : ¬ away) :
    CityExact g c i city o ↔ away ∨ ∃ k, NamesCity n city k ∧ single k := by
  subst hrow
  apply iff_of_false (not_exact_of_unnamed hw hn)
  rintro (h | ⟨k, hk, -⟩)
  · exact haway h
  · exact hn ⟨k, hk⟩

theorem namesCity_short {n : ℤ} (hn : n ≤ 100) {city : Text} {k : ℕ} (h : NamesCity n city k) :
    city.length < 17 := by
  obtain ⟨⟨h1, hk⟩, rfl⟩ := h
  have h100 : k ≤ 100 := by omega
  interval_cases k <;> decide

theorem city_exact_iff (b : Boot) (es : List Event) (e : Event) {i : ℕ} (hi : i < b.num)
    (hfirst : ∀ k < i, (b.data (100 * i)).type ≠ (b.data (100 * k)).type)
    {city tail : Text} {X : Fin 3 → Text} {m : Fin 3 → ℤ} (hw : IsWord city)
    (hX : ∀ j, Numeral (m j) (X j)) (hm : (∀ j, 0 ≤ m j) ∧ m 0 + m 1 + m 2 ≤ 3)
    (htail : ∀ x ∈ tail, isspace x = true)
    (htext : e.text = buyText (b.data (100 * i)).type city X ++ tail)
    (hl : ((b.after es).conns e.conn).iflogin = true)
    (hd : check_day_of_week (b.after es).globals e.beyond ((b.after es).conns e.conn).ID = true) :
    CityExact (b.after es).globals ((b.after es).conns e.conn) i city (server.step (b.after es) e).2 ↔
      TurnsAway (b.after es).globals ⟨spillString 17 city (b.data (100 * i)).type, city.head hw.1, m⟩ ∨
      ∃ k, NamesCity (b.data (100 * i)).type_num city k ∧ (k ≤ 9 ∨ m = 0) := by
  have hint : ∀ j, IsInt32 (m j) := by
    have h0 := hm.1 0
    have h1 := hm.1 1
    have h2 := hm.1 2
    simp only [IsInt32]
    intro j
    fin_cases j <;> simp <;> omega
  have hscan := scanRequest_buyText e.locals (b.type_name i hi).1 hw hX hint htail
  have hkind : kind e.text = .buy := by
    rw [htext, buyText, List.append_assoc]
    exact kind_buy _
  have hv : Request.Valid ⟨spillString 17 city (b.data (100 * i)).type, city.head hw.1, m⟩ :=
    ⟨hm.1, by rw [Fin.sum_univ_three]; exact hm.2⟩
  have hnamed (hlen : city.length < 17) :
      findType (b.after es).globals (spillString 17 city (b.data (100 * i)).type) = some i := by
    rw [spillString_of_lt hlen]
    exact findType_first es hi hfirst
  have hshort : (∃ k, NamesCity (b.data (100 * i)).type_num city k) → city.length < 17 := by
    rintro ⟨k, hk⟩
    exact namesCity_short (b.type_num_le i hi) hk
  have hstep : (server.step (b.after es) e).2 =
      server_buy e.locals e.beyond (b.after es).globals ((b.after es).conns e.conn) e.text := by
    rw [server_step, mask_server_eq, hkind]
  rw [hstep, server_buy_eq, if_pos ⟨hl, hd⟩, htext, hscan, ← verdict_eq_refuse hv]
  cases hverdict : verdict (b.after es).globals
      ⟨spillString 17 city (b.data (100 * i)).type, city.head hw.1, m⟩ with
  | refuse => exact iff_of_true (exact_of_refused _ _ _ _ _) (Or.inl rfl)
  | unknown =>
    -- only the tail of a long city field is a type that is not found
    have hlong : ¬ ∃ k, NamesCity (b.data (100 * i)).type_num city k := by
      intro hk
      have hnone := (verdict_eq_unknown.mp hverdict).2.2
      rw [hnamed (hshort hk)] at hnone
      cases hnone
    exact exact_iff_of_unnamed (row_after_type_num ..) (Or.inl rfl) hlong (by simp)
  | sell i' =>
    by_cases hlen : city.length < 17
    · obtain rfl : i' = i :=
        Option.some.inj ((verdict_eq_sell.mp hverdict).2.2.1.symm.trans (hnamed hlen))
      have hiff : CityExact (b.after es).globals ((b.after es).conns e.conn) i' city
            (sold (b.after es).globals ((b.after es).conns e.conn)
              (buyText (b.data (100 * i')).type city X ++ tail) i'
              ⟨spillString 17 city (b.data (100 * i')).type, city.head hw.1, m⟩) ↔
          ∃ k, NamesCity ((b.after es).globals.row i' 0).type_num city k ∧ (k ≤ 9 ∨ m = 0) :=
        addressed_iff hw rfl
      rw [row_after_type_num] at hiff
      simpa using hiff
    · exact exact_iff_of_unnamed (row_after_type_num ..) (Or.inr rfl) (mt hshort hlen) (by simp)

theorem city_exact_iff_visit : CityExact (sampleShop.after [loginEvent]).globals
    ((sampleShop.after [loginEvent]).conns 0) 0 (lit "1")
    (server.step (sampleShop.after [loginEvent]) (ask 0 (lit "buy S1 1 1 1 1"))).2 :=
  (city_exact_iff sampleShop [loginEvent] (ask 0 (lit "buy S1 1 1 1 1")) (i := 0) (by decide)
    (by simp) (X := fun _ => decimal 1) (m := fun _ => 1) (by simp [IsWord, lit, isspace] : IsWord (lit "1"))
    (fun _ => decimal_numeral 1) (by decide) (List.forall_mem_nil _) (by decide)
    (by decide) (by decide)).mpr
    (Or.inr ⟨1, ⟨by decide, by decide⟩, Or.inl (by decide)⟩)

theorem city_exact_fails : ¬ CityExact (sampleShop.after [loginEvent]).globals
    ((sampleShop.after [loginEvent]).conns 0) 0 (lit "10")
    (server.step (sampleShop.after [loginEvent]) (ask 0 (lit "buy S1 10 1 1 1"))).2 := by
  rintro ⟨hsold, -⟩
  obtain ⟨k, ⟨⟨hk, hle⟩, htext⟩, -⟩ := hsold (by decide)
  have hn : ((sampleShop.after [loginEvent]).globals.row 0 0).type_num = 2 := by decide
  have hk2 : k ≤ 2 := by omega
  interval_cases k
  · exact absurd htext (by decide)
  · exact absurd htext (by decide)

def refusals : List (List Text) := [[login_fail], [logout_fail], [buy_fail], [invalid]]

structure Isolated (s : Server) (e : Event) : Prop where
  refusal : (server.step s e).2.writes ∈ refusals ∨ kind e.text = .display ∨ kind e.text = .statics →
    Untouched s.globals (server.step s e).1.globals ∧ (server.step s e).1.conns = s.conns
  login : (server.step s e).2.LoggedIn → Untouched s.globals (server.step s e).1.globals
  logout : (server.step s e).2.LoggedOut →
    (server.step s e).1.globals.num = s.globals.num ∧
    (server.step s e).1.globals.data = s.globals.data ∧
    (server.step s e).1.globals.day = s.globals.day ∧
    (server.step s e).1.globals.alcohol = s.globals.alcohol ∧
    (∀ beyond, (server.step s e).1.globals.recorded beyond =
      s.globals.recorded beyond ++ [(s.conns e.conn).ID]) ∧
    (server.step s e).1.conns e.conn = { s.conns e.conn with iflogin := false }
  others : ∀ k ≠ e.conn, (server.step s e).1.conns k = s.conns k

theorem quiet_of_refusal {o : Outcome} (h : o.writes ∈ refusals) : o.Quiet := by
  simp only [refusals, List.mem_cons, List.not_mem_nil, or_false] at h
  rcases h with h | h | h | h
  · exact quiet_of _ h (by decide)
  · exact quiet_of _ h (by decide)
  · exact quiet_of _ h (by decide)
  · exact quiet_of _ h (by decide)

theorem not_isolated {s : Server} {e : Event} (hk : kind e.text = .logout)
    (hl : (s.conns e.conn).iflogin = true) (hfull : BUY_ID_NUM ≤ s.globals.buied_num) :
    ¬ Isolated s e := by
  intro h
  have hstep : (server.step s e).2 = server_logout s.globals (s.conns e.conn) := by
    rw [server_step, mask_server_eq, hk]
  have hout : (server.step s e).2.LoggedOut := by
    rw [hstep]
    simp [server_logout, hl, Outcome.LoggedOut]
  have hrec := (h.logout hout).2.2.2.2.1 fun _ j => (s.conns e.conn).ID j + 1
  have hglobals : (server.step s e).1.globals = (server_logout s.globals (s.conns e.conn)).globals := by
    rw [← hstep]
    rfl
  rw [hglobals] at hrec
  simp only [server_logout, hl, Bool.true_eq_false, ↓reduceIte, record_recorded, addBuied_recorded,
    if_neg (not_lt.mpr hfull), List.append_cancel_left_eq, List.cons.injEq, and_true] at hrec
  have h0 := congrFun hrec 0
  simp at h0

theorem isolated_iff (s : Server) (e : Event) : Isolated s e ↔
    (kind e.text = .logout → (s.conns e.conn).iflogin = true → s.globals.buied_num < BUY_ID_NUM) := by
  constructor
  · intro h hk hl
    by_contra hfull
    exact not_isolated hk hl (not_lt.mp hfull) h
  · intro hroom
    have hothers : ∀ k ≠ e.conn, (server.step s e).1.conns k = s.conns k :=
      fun k hk => Function.update_of_ne hk _ _
    have hdid := mask_server_did e.locals e.beyond s.globals (s.conns e.conn) e.text
    have hstep := server_step s e
    generalize mask_server e.locals e.beyond s.globals (s.conns e.conn) e.text = o at hdid hstep
    have hpost : (server.step s e).1 = ⟨o.globals, Function.update s.conns e.conn o.conn⟩ := by rw [hstep]
    have hout : (server.step s e).2 = o := by rw [hstep]
    cases hdid with
    | nothing t rejects globals conn quiet =>
      refine ⟨fun _ => ?_, fun h => ?_, fun h => ?_, hothers⟩
      · rw [hpost, globals, conn]
        exact ⟨untouched_record _ _, Function.update_eq_self _ _⟩
      · exact absurd (hout ▸ h) quiet.1
      · exact absurd (hout ▸ h) quiet.2.1
    | login t command out valid globals conn answer =>
      refine ⟨fun h => ?_, fun _ => ?_, fun h => ?_, hothers⟩
      · rcases h with h | h | h
        · exact absurd answer (quiet_of_refusal (hout ▸ h)).1
        · rw [command] at h; cases h
        · rw [command] at h; cases h
      · rw [hpost, globals]
        exact untouched_record _ _
      · exact absurd (hout ▸ h) answer.not_loggedOut
    | logout t command login globals conn answer =>
      refine ⟨fun h => ?_, fun h => ?_, fun _ => ?_, hothers⟩
      · rcases h with h | h | h
        · exact absurd answer (quiet_of_refusal (hout ▸ h)).2.1
        · rw [command] at h; cases h
        · rw [command] at h; cases h
      · exact absurd answer (Outcome.LoggedIn.not_loggedOut (hout ▸ h))
      · have hlt := hroom command login
        rw [hpost, globals, conn]
        refine ⟨rfl, rfl, rfl, rfl, fun beyond => ?_, by simp⟩
        rw [record_recorded, addBuied_recorded, if_pos hlt]
    | buy i t command login day sells globals conn answer =>
      refine ⟨fun h => ?_, fun h => ?_, fun h => ?_, hothers⟩
      · rcases h with h | h | h
        · exact absurd answer (quiet_of_refusal (hout ▸ h)).2.2
        · rw [command] at h; cases h
        · rw [command] at h; cases h
      · exact absurd answer (Outcome.LoggedIn.not_sold (hout ▸ h))
      · exact absurd answer (Outcome.LoggedOut.not_sold (hout ▸ h))

theorem not_isolated_full {b : Boot} {es : List Event} (hl : ((b.after es).conns 0).iflogin = false)
    (hn : (b.after es).globals.buied_num = BUY_ID_NUM) :
    ¬ Isolated (b.after (es ++ [loginEvent])) logoutEvent := by
  obtain ⟨hin, hsame⟩ := loginEvent_step _ hl
  rw [Boot.after, Machine.run_snoc]
  apply not_isolated (by decide) hin
  rw [hsame, hn]

theorem isolated_fails : ¬ Isolated
    (sampleShop.after ((List.replicate BUY_ID_NUM loginLogout).flatten ++ [loginEvent])) logoutEvent :=
  not_isolated_full (loginLogout_run sampleShop BUY_ID_NUM).1 (loginLogout_run sampleShop BUY_ID_NUM).2

end EmbeddedOS.Hw3
