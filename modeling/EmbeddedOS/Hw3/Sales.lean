import EmbeddedOS.Hw3.Counters
import EmbeddedOS.Hw3.Requests

namespace EmbeddedOS.Hw3

open CText Runs Shop

def Closes (k : ℕ) (q : Handled) : Prop := q.event.conn = k ∧ (q.out.Sold ∨ q.out.LoggedOut)

def LogsIn (k : ℕ) (d : ID) (q : Handled) : Prop :=
  q.event.conn = k ∧ q.out.LoggedIn ∧ scanID q.event.locals q.event.text = d

def HoldsSession (k : ℕ) (d : ID) (h : List Handled) : Prop :=
  Since (fun q => ¬ Closes k q) (LogsIn k d) h

theorem momentMark_closes (k : ℕ) (q : Handled) : (momentMark q).Closes k ↔ Closes k q := by
  unfold momentMark Closes
  by_cases hs : q.out.Sold
  · simp [mark_sold hs, hs, Mark.Closes]
  · by_cases ho : q.out.LoggedOut
    · simp [mark_loggedOut ho, ho, Mark.Closes]
    · by_cases hi : q.out.LoggedIn <;> simp [mark, hs, ho, hi, Mark.Closes]

theorem login_conn {b : Boot} {es : List Event} {q : Handled} (hq : q ∈ b.history es)
    (h : q.out.LoggedIn) : q.out.conn.ID = scanID q.event.locals q.event.text := by
  cases handled_did hq with
  | nothing t rejects globals conn quiet => exact absurd h quiet.1
  | login t command out valid globals conn answer => simp [conn]
  | logout t command login globals conn answer => exact absurd answer h.not_loggedOut
  | buy i t command login day sells globals conn answer => exact absurd answer h.not_sold

theorem momentMark_logsIn {b : Boot} {es : List Event} {q : Handled} (hq : q ∈ b.history es) (k : ℕ)
    (d : ID) : momentMark q = .loggedIn k d ↔ LogsIn k d q := by
  unfold momentMark LogsIn
  by_cases hi : q.out.LoggedIn
  · simp [mark_loggedIn hi, hi, login_conn hq hi]
  · by_cases ho : q.out.LoggedOut
    · simp [mark_loggedOut ho, hi]
    · by_cases hs : q.out.Sold <;> simp [mark, hs, ho, hi]

theorem session_after {b : Boot} {es : List Event} (h : b.RunFits es) (k : ℕ) (d : ID) :
    ((b.after es).conns k).iflogin = true ∧ ((b.after es).conns k).ID = d ↔
      HoldsSession k d (b.history es) := by
  obtain ⟨hR, hmarks⟩ := refines_run b es h
  have hs := session_iff (rules b.capacity) (shopStart b) (fun _ => rfl) (shopCommands b es) k d
  rw [hmarks, OpenSession, since_map, hR.session k] at hs
  rw [HoldsSession, ← since_congr (fun q _ => not_congr (momentMark_closes k q))
    (fun q hq => momentMark_logsIn hq k d), ← hs]
  by_cases hl : ((b.after es).conns k).iflogin = true <;> simp [hl]

theorem day_of_week_iff {day : ℤ} {d : ID} (hday : 1 ≤ day ∧ day ≤ 7) (hd : 1 ≤ digitAt d 9) :
    day_of_week day d = true ↔ day = 7 ∨ day % 2 = digitAt d 9 % 2 := by
  rw [day_of_week, Int.tmod_eq_emod_of_nonneg (by omega), Int.tmod_eq_emod_of_nonneg (by omega)]
  split_ifs with h7 hp
  · simp [h7]
  · simp only [false_iff, not_or]
    exact ⟨h7, hp⟩
  · simp only [true_iff]
    exact Or.inr (not_not.mp hp)

theorem check_day_after {b : Boot} {es : List Event} (hday : 1 ≤ b.day ∧ b.day ≤ 7)
    (h : b.RunFits es) {k : ℕ} (hk : ((b.after es).conns k).iflogin = true) (beyond : ℕ → ID) :
    check_day_of_week (b.after es).globals beyond ((b.after es).conns k).ID = true ↔
      ((b.after es).globals.day = 7 ∨
        (b.after es).globals.day % 2 = digitAt ((b.after es).conns k).ID 9 % 2) ∧
      ((b.after es).conns k).ID ∉ weekIDs (b.history es) := by
  obtain ⟨y, hy⟩ := login_checked b es k hk
  have hd := day_after hday h
  rw [check_day_of_week_iff, recorded_eq h, day_of_week_iff (by omega) (check_ID_digit hy).1]

theorem verdict_after {b : Boot} (hdistinct : b.DistinctTypes) (es : List Event) {i c : ℕ}
    (hi : i < b.num) (hname : startsWith (lit "XXX") (b.data (100 * i)).type = false)
    (hc : 1 ≤ c ∧ c ≤ 9) (m : Fin 3 → ℤ) :
    (∃ k, verdict (b.after es).globals
        ⟨(b.data (100 * i)).type, (decimal c).head (decimal_ne_nil c), m⟩ = .sell k) ↔
      ((∀ j, 0 ≤ m j) ∧ m 0 + m 1 + m 2 ≤ 3) ∧ (c : ℤ) ≤ (b.data (100 * i)).type_num ∧
        ∀ j, m j ≤ ((b.after es).globals.data (100 * i + (c - 1))).count j := by
  have hf := findType_after hdistinct es hi
  have hn : Request.city_num ⟨(b.data (100 * i)).type, (decimal c).head (decimal_ne_nil c), m⟩ = c :=
    city_num_digit hc
  have hsum : ∑ j, m j = m 0 + m 1 + m 2 := Fin.sum_univ_three m
  simp only [verdict_eq_sell, Request.Valid, Request.Stocked, hname, hf, hn, true_and,
    Option.some.injEq, Globals.row, hsum]
  constructor
  · rintro ⟨k, hv, rfl, ht, hs⟩
    rw [add_zero, type_num_after] at ht
    exact ⟨hv, ht, hs⟩
  · rintro ⟨hv, ht, hs⟩
    refine ⟨i, hv, rfl, ?_, hs⟩
    rwa [add_zero, type_num_after]

theorem sold_iff_history (b : Boot) (es : List Event) (e : Event) (hdistinct : b.DistinctTypes)
    (hnames : ∀ i < b.num, startsWith (lit "XXX") (b.data (100 * i)).type = false)
    (hday : 1 ≤ b.day ∧ b.day ≤ 7) (hweek : b.WithinRecord es) {i c : ℕ} (hi : i < b.num)
    (hc : 1 ≤ c ∧ c ≤ 9) {X : Fin 3 → Text} {m : Fin 3 → ℤ} (hX : ∀ j, Numeral (m j) (X j))
    (hm : ∀ j, IsInt32 (m j)) {tail : Text} (htail : ∀ x ∈ tail, isspace x = true)
    (htext : e.text = buyText (b.data (100 * i)).type (decimal c) X ++ tail) :
    (server.step (b.after es) e).2.Sold ↔
      ∃ d, HoldsSession e.conn d (b.history es) ∧
        ((b.after es).globals.day = 7 ∨ (b.after es).globals.day % 2 = digitAt d 9 % 2) ∧
        d ∉ weekIDs (b.history es) ∧
        ((∀ j, 0 ≤ m j) ∧ m 0 + m 1 + m 2 ≤ 3) ∧
        (c : ℤ) ≤ (b.data (100 * i)).type_num ∧
        ∀ j, m j ≤ ((b.after es).globals.data (100 * i + (c - 1))).count j := by
  have hkind : kind e.text = .buy := by
    rw [htext, buyText, List.append_assoc]
    exact kind_buy _
  have hscan := scanRequest_buyText e.locals (b.type_name i hi).1 (decimal_isWord c) hX hm htail
  rw [spillString_of_lt (decimal_digit_length hc.2)] at hscan
  rw [server_step, sold_iff _ _ _ _ _ hkind, htext, hscan,
    verdict_after hdistinct es hi (hnames i hi) hc]
  constructor
  · rintro ⟨hl, hd, hr⟩
    have hses := (session_after hweek.fits e.conn _).mp ⟨hl, rfl⟩
    obtain ⟨hp, hw⟩ := (check_day_after hday hweek.fits hl e.beyond).mp hd
    exact ⟨_, hses, hp, hw, hr⟩
  · rintro ⟨d, hses, hp, hw, hr⟩
    obtain ⟨hl, rfl⟩ := (session_after hweek.fits e.conn d).mpr hses
    exact ⟨hl, (check_day_after hday hweek.fits hl e.beyond).mpr ⟨hp, hw⟩, hr⟩

theorem sampleShop_distinct : sampleShop.DistinctTypes := by
  intro i hi j hj _
  have hi' : i < 1 := hi
  have hj' : j < 1 := hj
  omega

theorem sold_iff_history_visit : ∃ d, HoldsSession 0 d (sampleShop.history (visit.take 1)) ∧
    d ∉ weekIDs (sampleShop.history (visit.take 1)) := by
  have h := (sold_iff_history sampleShop (visit.take 1) (ask 0 (lit "buy S1 1 1 1 1"))
    sampleShop_distinct (by decide) (by decide) (withinRecord_of_length (by decide))
    (i := 0) (c := 1) (by decide) (by decide) (X := fun _ => decimal 1) (m := fun _ => 1)
    (fun _ => decimal_numeral 1) (by decide) (List.forall_mem_nil _)
    (by decide)).mp
    (by decide)
  obtain ⟨d, hses, -, hw, -⟩ := h
  exact ⟨d, hses, hw⟩

def NamesDigit (t : Text) : Prop :=
  kind t = .buy → ∃ c : ℕ, (1 ≤ c ∧ c ≤ 9) ∧ wordAt (sscanf buyFormat t) 2 = some (decimal c)

def quantity (q : Handled) : Fin 3 → ℤ := (scanRequest q.event.locals q.event.text).mask_num

def Buys (type : Text) (k : ℕ) (q : Handled) : Prop :=
  q.out.Sold ∧ (scanRequest q.event.locals q.event.text).type = type ∧
    wordAt (sscanf buyFormat q.event.text) 2 = some (decimal k)

instance (type : Text) (k : ℕ) (q : Handled) : Decidable (Buys type k q) :=
  inferInstanceAs (Decidable (_ ∧ _ ∧ _))

theorem decimal_injective {m n : ℕ} (h : decimal m = decimal n) : m = n := by
  have hm : ∀ n : ℕ, digitsValue (decimal n) = n := by
    intro n
    have hn : ¬ (n : ℤ) < 0 := by omega
    rw [decimal, if_neg hn, Int.natAbs_natCast, digitsValue_digits]
  rw [← hm m, h, hm]

theorem city_num_of_word {l : Locals} {t : Text} {c : ℕ} (hc : 1 ≤ c ∧ c ≤ 9)
    (hw : wordAt (sscanf buyFormat t) 2 = some (decimal c)) : (scanRequest l t).city_num = c := by
  have hcity : (scanRequest l t).city = (decimal c).head (decimal_ne_nil c) := by
    simp [scanRequest, hw, List.head?_eq_some_head (decimal_ne_nil c)]
  rw [Request.city_num, hcity]
  exact city_num_digit hc

theorem article_eq_iff {b : Boot} (hdistinct : b.DistinctTypes) (es : List Event) {i i' k c : ℕ}
    {r : Request} (hi : i < b.num) (hk : 1 ≤ k ∧ (k : ℤ) ≤ (b.data (100 * i)).type_num)
    (hf : findType (b.after es).globals r.type = some i') (hc : 1 ≤ c ∧ c ≤ 9)
    (hr : r.city_num = c) :
    100 * (i : ℤ) + (k - 1) = r.article i' ↔ r.type = (b.data (100 * i)).type ∧ decimal c = decimal k := by
  obtain ⟨hi', ht⟩ := findType_eq_some hf
  rw [num_after] at hi'
  rw [row_after_type] at ht
  have hle := b.type_num_le i hi
  rw [Request.article, hr]
  constructor
  · intro h
    obtain rfl : i' = i := by omega
    obtain rfl : c = k := by omega
    exact ⟨ht, rfl⟩
  · rintro ⟨htype, hdec⟩
    obtain rfl := hdistinct i' hi' i hi (ht.symm.trans htype)
    rw [decimal_injective hdec]

theorem count_moment {b : Boot} (hdistinct : b.DistinctTypes) {es : List Event} {q : Handled}
    (hq : q ∈ b.history es) (hn : NamesDigit q.event.text) {i k : ℕ} (hi : i < b.num)
    (hk : 1 ≤ k ∧ (k : ℤ) ≤ (b.data (100 * i)).type_num) :
    (q.pre.globals.data (100 * i + (k - 1))).count =
        (q.post.globals.data (100 * i + (k - 1))).count +
          (if Buys (b.data (100 * i)).type k q then quantity q else 0) ∧
      (Buys (b.data (100 * i)).type k q → ∀ j, 0 ≤ quantity q j ∧
        quantity q j ≤ (q.pre.globals.data (100 * i + (k - 1))).count j) := by
  rw [handled_post hq]
  cases handled_did hq with
  | nothing t rejects globals conn quiet => simp [globals, Buys, quiet.2.2]
  | login t command out valid globals conn answer => simp [globals, Buys, answer.not_sold]
  | logout t command login globals conn answer => simp [globals, Buys, answer.not_sold]
  | buy i' t command login day sells globals conn answer =>
    obtain ⟨fs, -, hpre⟩ := handled_pre hq
    obtain ⟨c, hc, hw⟩ := hn command
    obtain ⟨-, hv, hf, -, hst⟩ := verdict_eq_sell.mp sells
    rw [hpre] at hf
    have hiff := article_eq_iff hdistinct fs hi hk hf hc (city_num_of_word hc hw)
    have hb : Buys (b.data (100 * i)).type k q ↔
        100 * (i : ℤ) + (k - 1) = (scanRequest q.event.locals q.event.text).article i' := by
      simp [Buys, answer, hw, hiff]
    simp only [globals, record_data, purchase_count, hb]
    by_cases ha : 100 * (i : ℤ) + (k - 1) = (scanRequest q.event.locals q.event.text).article i'
    · rw [ha]
      simp only [Function.update_self, ↓reduceIte, quantity, sub_add_cancel, true_and, forall_const]
      exact fun j => ⟨hv.1 j, hst j⟩
    · simp [ha]

theorem sum_filter_map {α : Type*} (p : α → Prop) [DecidablePred p] (g : α → Fin 3 → ℤ) (j : Fin 3)
    (l : List α) : (l.map (fun x => if p x then g x else 0)).sum j =
      ((l.filter (fun x => decide (p x))).map (fun x => g x j)).sum := by
  induction l with
  | nil => rfl
  | cons x l ih => by_cases hx : p x <;> simp [hx, ih]

theorem stock_conserved (b : Boot) (hdistinct : b.DistinctTypes)
    (hstock : ∀ i < b.num, ∀ k : ℕ, 1 ≤ k → (k : ℤ) ≤ (b.data (100 * i)).type_num →
      ∀ j, 0 ≤ (b.data (100 * i + (k - 1))).count j)
    (es : List Event) (hcity : ∀ e ∈ es, NamesDigit e.text) :
    (∀ i < b.num, ∀ k : ℕ, 1 ≤ k → (k : ℤ) ≤ (b.data (100 * i)).type_num → ∀ j,
      let now := ((b.after es).globals.data (100 * i + (k - 1))).count j
      let first := (b.data (100 * i + (k - 1))).count j
      0 ≤ now ∧ now ≤ first ∧ first - now =
        (((b.history es).filter (fun q => decide (Buys (b.data (100 * i)).type k q))).map
          (fun q => quantity q j)).sum) ∧
      ∀ a, ((b.after es).globals.data a).label = (b.data a).label := by
  refine ⟨?_, (same_after b es).label⟩
  intro i hi k hk hk' j now first
  have hmoment : ∀ q ∈ b.history es, _ := fun q hq =>
    count_moment hdistinct hq (hcity q.event (Machine.event_mem_of_mem_trace _ hq)) hi ⟨hk, hk'⟩
  have hsum := congrFun (server.run_account (f := fun s => (s.globals.data (100 * i + (k - 1))).count)
    fun q hq => (hmoment q hq).1) j
  have hbounds : ∀ j, 0 ≤ ((b.after es).globals.data (100 * i + (k - 1))).count j ∧
      ((b.after es).globals.data (100 * i + (k - 1))).count j ≤
        (b.data (100 * i + (k - 1))).count j := by
    refine server.run_invariant_of_trace
      (P := fun s => ∀ j, 0 ≤ (s.globals.data (100 * i + (k - 1))).count j ∧
        (s.globals.data (100 * i + (k - 1))).count j ≤ (b.data (100 * i + (k - 1))).count j)
      (fun j => ⟨hstock i hi k hk hk' j, le_refl _⟩) ?_
    intro q hq hpre j
    obtain ⟨heq, hle⟩ := hmoment q hq
    have hj := congrFun heq j
    have hp := hpre j
    by_cases hb : Buys (b.data (100 * i)).type k q
    · have hl := hle hb j
      simp only [hb, ↓reduceIte, Pi.add_apply] at hj
      omega
    · simp only [hb, ↓reduceIte, Pi.add_apply, Pi.zero_apply] at hj
      omega
  rw [Pi.add_apply, sum_filter_map] at hsum
  refine ⟨(hbounds j).1, (hbounds j).2, ?_⟩
  change first = now + _ at hsum
  rw [hsum]
  ring

theorem stock_conserved_visit : ((sampleShop.after visit).globals.data 0).count 2 = 8 := by
  have hcity : ∀ e ∈ visit, NamesDigit e.text := by
    intro e he hk
    rcases List.mem_cons.mp he with rfl | he
    · exact absurd hk (by decide)
    · obtain rfl := List.mem_singleton.mp he
      exact ⟨1, by decide, by decide⟩
  have hstock : ∀ a j, 0 ≤ (sampleShop.data a).count j := by
    intro a j
    change 0 ≤ (sampleData a).count j
    unfold sampleData
    split_ifs <;> fin_cases j <;> decide
  have h := (stock_conserved sampleShop sampleShop_distinct (fun i _ k _ _ => hstock _) visit hcity).1
    0 (by decide) 1 (by decide) (by decide) 2
  have hsum : (((sampleShop.history visit).filter (fun q => decide
      (Buys (sampleShop.data (100 * (0 : ℕ))).type 1 q))).map (fun q => quantity q 2)).sum = 1 := by
    decide
  have hnine : (sampleShop.data (100 * (0 : ℕ) + ((1 : ℕ) - 1))).count 2 = 9 := by decide
  have hd := h.2.2
  simp only [hsum, hnine] at hd
  have ha : (100 * ((0 : ℕ) : ℤ) + (((1 : ℕ) : ℤ) - 1)) = 0 := by norm_num
  rw [ha] at hd
  omega

end EmbeddedOS.Hw3
