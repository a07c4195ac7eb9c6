import EmbeddedOS.Hw3.Counters

namespace EmbeddedOS.Hw3

open CText Runs Shop

def soldTo (x : ID) (q : Handled) : Bool := decide (q.out.Sold ∧ (q.pre.conns q.event.conn).ID = x)

def masksTo (x : ID) (q : Handled) : ℤ :=
  if soldTo x q then ∑ j, (scanRequest q.event.locals q.event.text).mask_num j else 0

def Boot.stretch (b : Boot) (fs es : List Event) : List Handled := server.trace (b.after fs) es

section Stretch

variable {b : Boot} {fs es : List Event} {x : ID}

theorem history_append : b.history (fs ++ es) = b.history fs ++ b.stretch fs es := server.trace_append ..

theorem stretch_snoc (e : Event) :
    b.stretch fs (es ++ [e]) = b.stretch fs es ++ [server.moment (b.after (fs ++ es)) e] := by
  rw [Boot.stretch, server.trace_snoc, Boot.after, Boot.after, server.run_append]
  rfl

theorem withinRecord_front {es' : List Event} (h : b.WithinRecord (es ++ es')) : b.WithinRecord es :=
  fun gs hgs => h gs (hgs.trans (List.prefix_append es es'))

theorem sale_within {q : Handled} (hq : q ∈ b.stretch fs es) (hsold : q.out.Sold) :
    day_of_week q.pre.globals.day (q.pre.conns q.event.conn).ID = true ∧
      (q.pre.conns q.event.conn).ID ∉ q.pre.globals.recorded q.event.beyond ∧
      (scanRequest q.event.locals q.event.text).Valid := by
  have hmem : q ∈ b.history (fs ++ es) := by
    rw [history_append]
    exact List.mem_append_right _ hq
  cases handled_did hmem with
  | nothing t rejects globals conn quiet => exact absurd hsold quiet.2.2
  | login t command out valid globals conn answer => exact absurd hsold answer.not_sold
  | logout t command login globals conn answer => exact absurd hsold answer.not_sold
  | buy i t command login day sells globals conn answer =>
    obtain ⟨hday, hnew⟩ := (check_day_of_week_iff ..).mp day
    exact ⟨hday, hnew, (verdict_eq_sell.mp sells).2.1⟩

def due (x : ID) (h : List Handled) : ℕ := if x ∈ weekIDs h then 0 else 1

theorem due_le (x : ID) (h : List Handled) : due x h ≤ 1 := by
  unfold due
  split_ifs <;> simp

theorem due_other (x : ID) (h : List Handled) (q : Handled) :
    due x (h ++ [q]) ≤ due x h + if rollover q then 1 else 0 := by
  by_cases hr : rollover q
  · have hle := due_le x (h ++ [q])
    rw [if_pos hr]
    omega
  · have hmono : x ∈ weekIDs h → x ∈ weekIDs (h ++ [q]) := by
      intro hx
      rw [weekIDs_snoc, if_neg hr]
      exact List.mem_append_left _ hx
    unfold due
    split_ifs with h1 h2 <;> simp_all

theorem due_sale {h : List Handled} {q : Handled} (hq : soldTo x q) :
    due x (h ++ [q]) = if rollover q then 1 else 0 := by
  obtain ⟨hsold, hx⟩ := of_decide_eq_true hq
  unfold due
  rw [weekIDs_snoc]
  by_cases hr : rollover q
  · rw [if_pos hr, if_pos hr]
    rfl
  · have hrec : recordedID q = some x := by rw [recordedID, if_pos (Or.inl hsold), hx]
    rw [if_neg hr, if_neg hr, hrec]
    simp

theorem sales_due (x : ID) (h : b.WithinRecord (fs ++ es)) :
    (b.stretch fs es).countP (soldTo x) + due x (b.history (fs ++ es)) ≤
      due x (b.history fs) + (b.stretch fs es).countP rollover := by
  induction es using List.reverseRecOn with
  | nil =>
    rw [List.append_nil]
    simp [Boot.stretch]
  | append_singleton es e ih =>
    rw [← List.append_assoc] at h ⊢
    have hle := ih (withinRecord_front h)
    have hhistory : b.history (fs ++ es ++ [e]) =
        b.history (fs ++ es) ++ [server.moment (b.after (fs ++ es)) e] := server.trace_snoc ..
    have hmem : server.moment (b.after (fs ++ es)) e ∈ b.stretch fs (es ++ [e]) := by
      rw [stretch_snoc]
      exact List.mem_append_right _ (List.mem_singleton_self _)
    rw [stretch_snoc, List.countP_append, List.countP_append, List.countP_singleton, List.countP_singleton, hhistory]
    set q := server.moment (b.after (fs ++ es)) e
    by_cases hq : soldTo x q
    · obtain ⟨hsold, hx⟩ := of_decide_eq_true hq
      have hnew : x ∉ weekIDs (b.history (fs ++ es)) := by
        rw [← recorded_eq (withinRecord_front h).fits q.event.beyond, ← hx]
        exact (sale_within hmem hsold).2.1
      have hdue : due x (b.history (fs ++ es)) = 1 := if_neg hnew
      rw [due_sale hq, if_pos hq]
      omega
    · have hother := due_other x (b.history (fs ++ es)) q
      rw [if_neg hq]
      omega

theorem rollovers_eq (hday : 1 ≤ b.day ∧ b.day ≤ 7) (h : b.WithinRecord (fs ++ es)) :
    7 * ((b.stretch fs es).countP rollover : ℤ) + ((b.after (fs ++ es)).globals.day - 1) =
      (b.after fs).globals.day - 1 + (b.stretch fs es).countP isSale := by
  induction es using List.reverseRecOn with
  | nil => simp [Boot.stretch]
  | append_singleton es e ih =>
    rw [← List.append_assoc] at h ⊢
    have hprev := ih (withinRecord_front h)
    have hbefore := day_after hday (withinRecord_front h).fits
    have hafter := day_after hday h.fits
    have hhistory : b.history (fs ++ es ++ [e]) =
        b.history (fs ++ es) ++ [server.moment (b.after (fs ++ es)) e] := server.trace_snoc ..
    rw [hhistory, List.countP_append, List.countP_singleton] at hafter
    rw [stretch_snoc, List.countP_append, List.countP_append, List.countP_singleton, List.countP_singleton]
    set q := server.moment (b.after (fs ++ es)) e
    have hroll : rollover q = (isSale q && decide ((b.after (fs ++ es)).globals.day = 7)) := by
      exact Bool.decide_and ..
    rw [hroll]
    by_cases hq : isSale q
    · rw [if_pos hq] at hafter ⊢
      by_cases h7 : (b.after (fs ++ es)).globals.day = 7
      · simp only [hq, h7, decide_true, Bool.and_self, ↓reduceIte]
        push_cast at hafter ⊢
        omega
      · simp only [hq, h7, decide_false, Bool.and_false, Bool.false_eq_true, ↓reduceIte]
        push_cast at hafter ⊢
        omega
    · rw [if_neg hq] at hafter ⊢
      simp only [hq, Bool.false_and, Bool.false_eq_true, ↓reduceIte]
      push_cast at hafter ⊢
      omega

theorem masksTo_le {q : Handled} (hq : q ∈ b.stretch fs es) : masksTo x q ≤ if soldTo x q then 3 else 0 := by
  unfold masksTo
  by_cases hx : soldTo x q
  · rw [if_pos hx, if_pos hx]
    exact (sale_within hq (of_decide_eq_true hx).1).2.2.2
  · rw [if_neg hx, if_neg hx]

end Stretch

theorem sum_le_countP {α : Type*} {f : α → ℤ} {p : α → Bool} {c : ℤ} {l : List α}
    (h : ∀ q ∈ l, f q ≤ if p q then c else 0) : (l.map f).sum ≤ c * l.countP p := by
  induction l with
  | nil => simp
  | cons q l ih =>
    have hq := h q (List.mem_cons_self ..)
    have hl := ih fun r hr => h r (List.mem_cons_of_mem _ hr)
    rw [List.map_cons, List.sum_cons, List.countP_cons]
    by_cases hp : p q
    · rw [if_pos hp] at hq ⊢
      push_cast
      linarith
    · rw [if_neg hp] at hq ⊢
      push_cast
      linarith

theorem masks_rationed (b : Boot) (hday : 1 ≤ b.day ∧ b.day ≤ 7) (fs es : List Event)
    (h : b.WithinRecord (fs ++ es)) (x : ID) :
    let weeks := 1 + ((b.after fs).globals.day - 1 + (b.stretch fs es).countP isSale) / 7
    (b.stretch fs es).countP (soldTo x) ≤ weeks ∧ ((b.stretch fs es).map (masksTo x)).sum ≤ 3 * weeks ∧
      ∀ q ∈ b.stretch fs es, soldTo x q → day_of_week q.pre.globals.day x = true := by
  intro weeks
  have hdue := sales_due x h
  have hle := due_le x (b.history fs)
  have hroll := rollovers_eq hday h
  have hend := day_after hday h.fits
  have hcount : ((b.stretch fs es).countP (soldTo x) : ℤ) ≤ weeks := by
    have hsales : ((b.stretch fs es).countP (soldTo x) : ℤ) ≤ 1 + (b.stretch fs es).countP rollover := by
      exact_mod_cast (by omega : (b.stretch fs es).countP (soldTo x) ≤ 1 + (b.stretch fs es).countP rollover)
    have hweeks : weeks = 1 + (b.stretch fs es).countP rollover := by
      change 1 + ((b.after fs).globals.day - 1 + (b.stretch fs es).countP isSale) / 7 = _
      omega
    rwa [hweeks]
  refine ⟨hcount, ?_, fun q hq hx => ?_⟩
  · have hsale (q : Handled) (hq : q ∈ b.stretch fs es) : masksTo x q ≤ if soldTo x q then 3 else 0 := masksTo_le hq
    have hmasks := sum_le_countP hsale
    linarith
  · obtain ⟨hsold, hid⟩ := of_decide_eq_true hx
    rw [← hid]
    exact (sale_within hq hsold).1

theorem masks_rationed_visit :
    ((sampleShop.stretch visit visit).map (masksTo (scanID ⟨fun _ => 0, 0, [], 0, fun _ => 0⟩
      (lit "login A123456789")))).sum ≤
      3 * (1 + ((sampleShop.after visit).globals.day - 1 + (sampleShop.stretch visit visit).countP isSale) / 7) :=
  (masks_rationed sampleShop (by decide) visit visit (withinRecord_of_length (by decide)) _).2.1

end EmbeddedOS.Hw3
