import EmbeddedOS.Lab7.Bisection

namespace EmbeddedOS.Lab7

open CText Runs

structure Ranged (U : ℤ) (s : State) : Prop where
  lower : 1 ≤ s.lower_bound
  above : s.lower_bound ≤ s.guess
  below : s.guess ≤ s.upper_bound
  upper : s.upper_bound ≤ U

theorem midpoint_between {U a b : ℤ} (hU : U < 2 ^ 30) (ha : 1 ≤ a ∧ a ≤ U) (hb : 1 ≤ b ∧ b ≤ U) :
    min a b ≤ midpoint a b ∧ midpoint a b ≤ max a b := by
  have hsum : IsInt32 (a + b) := by
    simp only [IsInt32]
    omega
  rw [midpoint_eq (by omega) hsum]
  constructor
  · have hmin : min a b * 2 ≤ a + b := by omega
    omega
  · have hmax : a + b ≤ max a b * 2 := by omega
    omega

theorem ranged_applyVerdict {U : ℤ} (hU : U < 2 ^ 30) {s : State} (h : Ranged U s) :
    Ranged U (applyVerdict s) ∧ s.lower_bound ≤ (applyVerdict s).lower_bound ∧
      (applyVerdict s).upper_bound ≤ s.upper_bound := by
  obtain ⟨hl, ha, hb, hu⟩ := h
  unfold applyVerdict
  split_ifs with h3 h1
  · have hmid := midpoint_between hU (a := s.guess) (b := s.upper_bound) (by omega) (by omega)
    rw [min_eq_left hb, max_eq_right hb] at hmid
    exact ⟨⟨hl.trans ha, hmid.1, hmid.2, hu⟩, ha, le_rfl⟩
  · have hmid := midpoint_between hU (a := s.guess) (b := s.lower_bound) (by omega) (by omega)
    rw [min_eq_right ha, max_eq_left ha] at hmid
    exact ⟨⟨hl, hmid.1, hmid.2, hb.trans hu⟩, le_rfl, hb⟩
  · exact ⟨⟨hl, ha, hb, hu⟩, le_rfl, le_rfl⟩

theorem ranged_step {U ans : ℤ} (hU : U < 2 ^ 30) {s : State} (h : Ranged U s) (e : Signal) :
    Ranged U ((game ans).step s e).1 ∧ s.lower_bound ≤ ((game ans).step s e).1.lower_bound ∧
      ((game ans).step s e).1.upper_bound ≤ s.upper_bound := by
  cases game_stepped ans s e with
  | idle ignored post =>
    rw [post]
    exact ⟨h, le_rfl, le_rfl⟩
  | ends signal bingo post =>
    rw [post]
    exact ⟨⟨h.lower, h.above, h.below, h.upper⟩, le_rfl, le_rfl⟩
  | guesses signal runs open_ post =>
    obtain ⟨⟨hl, ha, hb, hu⟩, hlower, hupper⟩ := ranged_applyVerdict hU h
    rw [post]
    exact ⟨⟨hl, ha, hb, hu⟩, hlower, hupper⟩
  | answers signal waits post =>
    rw [post]
    exact ⟨⟨h.lower, h.above, h.below, h.upper⟩, le_rfl, le_rfl⟩

theorem ranged_start {U : ℤ} (hU : 2 ≤ U) : Ranged U (State.start U) := by
  have hhalf : (State.start U).guess = U / 2 := Int.tdiv_eq_ediv_of_nonneg (by omega)
  refine ⟨le_rfl, ?_, ?_, le_rfl⟩
  · rw [hhalf]
    change 1 ≤ U / 2
    omega
  · rw [hhalf]
    change U / 2 ≤ U
    omega

def printed (U ans : ℤ) (es : List Signal) : List ℤ :=
  ((game ans).trace (State.start U) es).filterMap fun q => if q.event = .timer then q.out else none

theorem printed_snoc (U ans : ℤ) (es : List Signal) (e : Signal) : printed U ans (es ++ [e]) = printed U ans es ++
    (if e = .timer then ((game ans).step ((game ans).run (State.start U) es) e).2 else none).toList := by
  rw [printed, (game ans).trace_snoc, List.filterMap_append, ← printed]
  cases h : (if e = .timer then ((game ans).step ((game ans).run (State.start U) es) e).2 else none) <;>
    simp [Machine.moment, h]

structure Honest (ans : ℤ) (lines : List ℤ) (s : State) : Prop where
  bingo : s.resu = 2 → s.guess = ans
  ended : s.running = false → s.resu = 2
  told : lines.getLast? = some s.guess ∨ (s.resu = 4 ∧ s.pending = false)

theorem honest_after (U ans : ℤ) (es : List Signal) :
    Honest ans (printed U ans es) ((game ans).run (State.start U) es) := by
  induction es using List.reverseRecOn with
  | nil =>
    refine ⟨fun h => ?_, fun h => ?_, Or.inr ⟨rfl, rfl⟩⟩
    · change (4 : ℤ) = 2 at h
      cases h
    · change true = false at h
      cases h
  | append_singleton es e ih =>
    rw [printed_snoc, (game ans).run_snoc]
    generalize (game ans).run (State.start U) es = s at ih ⊢
    generalize printed U ans es = lines at ih ⊢
    obtain ⟨bingo, ended, told⟩ := ih
    cases e with
    | usr1 =>
      cases hp : s.pending with
      | false =>
        have hstep : (game ans).step s .usr1 = (s, none) := by simp [game, hp]
        simpa [hstep] using Honest.mk bingo ended told
      | true =>
        have hstep : (game ans).step s .usr1 = (handler ans s, some s.guess) := by simp [game, hp]
        have hresu : verdict ans s.guess = 2 → s.guess = ans := by
          unfold verdict
          split_ifs with heq hlt
          · exact fun _ => heq
          · intro h
            cases h
          · intro h
            cases h
        simp only [hstep, reduceCtorEq, ↓reduceIte, Option.toList_none, List.append_nil]
        refine ⟨hresu, fun hoff => ?_, ?_⟩
        · -- the process ended on a guess that is still there
          have hguess := bingo (ended hoff)
          simp [handler, verdict, hguess]
        · rcases told with told | ⟨-, hno⟩
          · exact Or.inl told
          · rw [hp] at hno
            cases hno
    | timer =>
      cases hr : s.running with
      | false =>
        have hstep : (game ans).step s .timer = (s, none) := by simp [game, hr]
        simpa [hstep] using Honest.mk bingo ended told
      | true =>
        by_cases h2 : s.resu = 2
        · have hstep : (game ans).step s .timer = ({ s with running := false }, none) := by
            simp [game, hr, timer_handler, h2]
          simp only [hstep, ↓reduceIte, Option.toList_none, List.append_nil]
          exact ⟨bingo, fun _ => h2, told⟩
        · have hstep : (game ans).step s .timer = ({ applyVerdict s with pending := true }, some (applyVerdict s).guess) := by
            simp [game, hr, timer_handler, h2]
          have hresu : (applyVerdict s).resu = s.resu := by
            unfold applyVerdict
            split_ifs <;> rfl
          simp only [hstep, ↓reduceIte, Option.toList_some]
          refine ⟨fun h => absurd (hresu ▸ h) h2, fun hoff => ?_, Or.inl (by simp)⟩
          rw [applyVerdict_running, hr] at hoff
          cases hoff

theorem lost_run {U ans : ℤ} (hU : U < 2 ^ 30) {s : State} (hs : Ranged U s) (hlost : ¬ Bracketed ans s)
    (es : List Signal) : ¬ Bracketed ans ((game ans).run s es) := by
  induction es generalizing s with
  | nil => exact hlost
  | cons e es ih =>
    have hstep : Ranged U ((game ans).step s e).1 ∧ s.lower_bound ≤ ((game ans).step s e).1.lower_bound ∧
        ((game ans).step s e).1.upper_bound ≤ s.upper_bound := ranged_step hU hs e
    obtain ⟨hranged, hlower, hupper⟩ := hstep
    apply ih hranged
    rintro ⟨hl, hu⟩
    exact hlost ⟨hlower.trans hl, hu.trans hupper⟩

theorem ranged_after {U : ℤ} (ans : ℤ) (hU : 2 ≤ U ∧ U < 2 ^ 30) (es : List Signal) :
    Ranged U ((game ans).run (State.start U) es) :=
  (game ans).run_invariant (P := Ranged U) (fun _ e h => (ranged_step hU.2 h e).1) (ranged_start hU.1) es

theorem not_stale_of_bracketed {U ans : ℤ} (hU : 2 ≤ U ∧ U < 2 ^ 30) (es : List Signal)
    (h : Bracketed ans ((game ans).run (State.start U) es)) :
    ∀ q ∈ (game ans).trace (State.start U) es, ¬ Stale ans q.pre q.event := by
  intro q hq
  obtain ⟨fs, e, gs, rfl, rfl⟩ := (game ans).mem_trace_iff.mp hq
  have hfresh : Fresh ans ((game ans).run (State.start U) fs) :=
    (game ans).run_invariant (fun _ _ hf => fresh_step hf) (fun _ => Or.inl rfl) fs
  have hpre : Bracketed ans ((game ans).run (State.start U) fs) := by
    by_contra hlost
    rw [Machine.run_append] at h
    exact lost_run hU.2 (ranged_after ans hU fs) hlost (e :: gs) h
  have hpost : Bracketed ans ((game ans).step ((game ans).run (State.start U) fs) e).1 := by
    by_contra hlost
    rw [Machine.run_append, Machine.run_cons] at h
    exact lost_run hU.2 (ranged_step hU.2 (ranged_after ans hU fs) e).1 hlost gs h
  exact (bracketed_step hfresh hpre).mp hpost

theorem search_sound (U ans : ℤ) (hU : 2 ≤ U ∧ U < 2 ^ 30) (es : List Signal) :
    let s := (game ans).run (State.start U) es
    Ranged U s ∧ (s.running = false → s.resu = 2) ∧
      (s.resu = 2 → s.guess = ans ∧ (printed U ans es).getLast? = some ans ∧
        ∀ q ∈ (game ans).trace (State.start U) es, ¬ Stale ans q.pre q.event) := by
  intro s
  have hranged := ranged_after ans hU es
  obtain ⟨bingo, ended, told⟩ := honest_after U ans es
  refine ⟨hranged, ended, fun h2 => ?_⟩
  have hguess := bingo h2
  refine ⟨hguess, ?_, not_stale_of_bracketed hU es ?_⟩
  · rcases told with told | ⟨h4, -⟩
    · rw [told, hguess]
    · have h24 : (2 : ℤ) = 4 := h2.symm.trans h4
      cases h24
  · exact ⟨hranged.above.trans hguess.le, hguess.ge.trans hranged.below⟩

theorem search_sound_late :
    Ranged 100 ((game 30).run (State.start 100) [.timer, .timer, .usr1, .timer, .usr1]) :=
  (search_sound 100 30 (by norm_num) [.timer, .timer, .usr1, .timer, .usr1]).1

end EmbeddedOS.Lab7
