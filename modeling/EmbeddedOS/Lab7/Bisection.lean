import EmbeddedOS.Lab7.Guess

namespace EmbeddedOS.Lab7

open CText Runs

def rounds (n : ℕ) : List Signal := (List.replicate n [Signal.timer, .usr1]).flatten

theorem rounds_succ (n : ℕ) : rounds (n + 1) = rounds n ++ [.timer, .usr1] := by
  simp [rounds, List.replicate_succ']

structure Tight (ans lo : ℤ) (width : ℕ) (s : State) : Prop where
  low : lo = s.lower_bound ∨ lo = 0 ∧ s.lower_bound = 1
  nonneg : 0 ≤ lo
  answer : lo < ans ∧ ans < s.upper_bound
  inside : lo < s.guess ∧ s.guess < s.upper_bound
  narrow : s.guess - lo ≤ 2 ^ width ∧ s.upper_bound - s.guess ≤ 2 ^ width

theorem Tight.bracketed {ans lo : ℤ} {width : ℕ} {s : State} (h : Tight ans lo width s) : Bracketed ans s := by
  obtain ⟨hlow, -, ⟨hla, hau⟩, -, -⟩ := h
  constructor <;> omega

theorem Tight.guess_eq {ans lo : ℤ} {s : State} (h : Tight ans lo 0 s) : s.guess = ans := by
  obtain ⟨-, -, ⟨hla, hau⟩, -, ⟨hg, hu⟩⟩ := h
  omega

theorem midpoint_eq {a b : ℤ} (hpos : 0 ≤ a + b) (h : IsInt32 (a + b)) : midpoint a b = (a + b) / 2 := by
  rw [midpoint, int32_of_isInt32 h, Int.tdiv_eq_ediv_of_nonneg hpos]

theorem Tight.bigger {ans lo : ℤ} {width : ℕ} {s : State} (h : Tight ans lo (width + 1) s) (h3 : s.resu = 3)
    (hlt : s.guess < ans) (hsum : IsInt32 (s.guess + s.upper_bound)) : Tight ans s.guess width (applyVerdict s) := by
  obtain ⟨hlow, hnonneg, ⟨hla, hau⟩, ⟨hlg, hgu⟩, ⟨hg, hu⟩⟩ := h
  have hmid : (applyVerdict s).guess = (s.guess + s.upper_bound) / 2 := by
    rw [applyVerdict, if_pos h3]
    exact midpoint_eq (by omega) hsum
  have hlower : (applyVerdict s).lower_bound = s.guess := by rw [applyVerdict, if_pos h3]
  have hupper : (applyVerdict s).upper_bound = s.upper_bound := by rw [applyVerdict, if_pos h3]
  rw [pow_succ] at hg hu
  constructor
  · exact Or.inl hlower.symm
  · omega
  · rw [hupper]
    exact ⟨hlt, hau⟩
  · rw [hmid, hupper]
    omega
  · rw [hmid, hupper]
    omega

theorem Tight.smaller {ans lo : ℤ} {width : ℕ} {s : State} (h : Tight ans lo (width + 1) s) (h1 : s.resu = 1)
    (hlt : ans < s.guess) (hsum : IsInt32 (s.guess + s.lower_bound)) : Tight ans lo width (applyVerdict s) := by
  obtain ⟨hlow, hnonneg, ⟨hla, hau⟩, ⟨hlg, hgu⟩, ⟨hg, hu⟩⟩ := h
  have h3 : s.resu ≠ 3 := by omega
  have hmid : (applyVerdict s).guess = (s.guess + s.lower_bound) / 2 := by
    rw [applyVerdict, if_neg h3, if_pos h1]
    exact midpoint_eq (by omega) hsum
  have hlower : (applyVerdict s).lower_bound = s.lower_bound := by rw [applyVerdict, if_neg h3, if_pos h1]
  have hupper : (applyVerdict s).upper_bound = s.guess := by rw [applyVerdict, if_neg h3, if_pos h1]
  rw [pow_succ] at hg hu
  constructor
  · rwa [hlower]
  · exact hnonneg
  · rw [hupper]
    exact ⟨hla, hlt⟩
  · rw [hmid, hupper]
    omega
  · rw [hmid, hupper]
    omega

def climb (U : ℤ) (i : ℕ) : ℤ := U + -U / 2 ^ (i + 1)

theorem climb_zero (U : ℤ) : climb U 0 = U / 2 := by
  rw [climb]
  omega

theorem climb_succ (U : ℤ) (i : ℕ) : climb U (i + 1) = (climb U i + U) / 2 := by
  have hdiv : -U / 2 ^ (i + 2) = -U / 2 ^ (i + 1) / 2 := by
    rw [Int.ediv_ediv_of_nonneg (by positivity), pow_succ 2 (i + 1)]
  rw [climb, climb, hdiv]
  omega

theorem climb_le {U : ℤ} (hU : 0 ≤ U) (i : ℕ) : climb U i ≤ U := by
  induction i with
  | zero =>
    rw [climb_zero]
    omega
  | succ i ih =>
    rw [climb_succ]
    omega

theorem climb_mono {U : ℤ} (hU : 0 ≤ U) : Monotone (climb U) := by
  apply monotone_nat_of_le_succ
  intro i
  have hle := climb_le hU i
  rw [climb_succ]
  omega

def Room (U ans : ℤ) : Prop := ∀ i, climb U i < ans → climb U i + U < 2 ^ 31

structure Roomy (U ans : ℤ) (s : State) : Prop where
  upper : s.upper_bound ≤ U
  sums : 2 * s.upper_bound < 2 ^ 31 ∨
    s.upper_bound = U ∧ ∃ i, s.guess = climb U i ∧ ∀ j, j < i → climb U j < ans

theorem Roomy.double_guess {U ans lo : ℤ} {width : ℕ} {s : State} (hU : U < 2 ^ 31) (hroom : Room U ans)
    (h : Roomy U ans s) (ht : Tight ans lo width s) : 2 * s.guess < 2 ^ 31 := by
  obtain ⟨-, hgu⟩ := ht.inside
  rcases h.sums with hsmall | ⟨hupper, i, hi, hbelow⟩
  · omega
  · cases i with
    | zero =>
      rw [climb_zero] at hi
      omega
    | succ i =>
      have hsum := hroom i (hbelow i (Nat.lt_succ_self i))
      rw [climb_succ] at hi
      omega

structure Open (U ans lo : ℤ) (width : ℕ) (s : State) : Prop where
  running : s.running = true
  judged : s.resu = 4 ∧ Tight ans lo width s ∨
    s.resu = verdict ans s.guess ∧ s.guess ≠ ans ∧ Tight ans lo (width + 1) s
  roomy : Roomy U ans s

structure Done (ans : ℤ) (s : State) : Prop where
  bingo : s.resu = 2
  guess : s.guess = ans
  bracketed : Bracketed ans s
  idle : s.pending = false

structure Asked (U ans : ℤ) (width : ℕ) (s s' : State) : Prop where
  tight : ∃ lo, Tight ans lo width s'
  roomy : Roomy U ans s'
  bigger : s.resu = 3 → IsInt32 (s.guess + s.upper_bound) ∧ s'.guess ≠ s.guess
  smaller : s.resu = 1 → IsInt32 (s.guess + s.lower_bound) ∧ s'.guess ≠ s.guess

section Search

variable {U ans : ℤ} (hroom : Room U ans)

include hroom

theorem asked_bigger {lo : ℤ} {width : ℕ} {s : State} (h3 : s.resu = 3) (hlt : s.guess < ans)
    (ht : Tight ans lo (width + 1) s) (hr : Roomy U ans s) : Asked U ans width s (applyVerdict s) := by
  have hpos := ht.nonneg
  have hin := ht.inside
  have hsum : s.guess + s.upper_bound < 2 ^ 31 := by
    rcases hr.sums with hsmall | ⟨hupper, i, hi, -⟩
    · omega
    · have hi' := hroom i (hi ▸ hlt)
      omega
  have hint : IsInt32 (s.guess + s.upper_bound) := by
    constructor <;> omega
  have ht' := ht.bigger h3 hlt hint
  have hupper' : (applyVerdict s).upper_bound = s.upper_bound := by rw [applyVerdict, if_pos h3]
  have hguess' : (applyVerdict s).guess = (s.guess + s.upper_bound) / 2 := by
    rw [applyVerdict, if_pos h3]
    exact midpoint_eq (by omega) hint
  constructor
  · exact ⟨_, ht'⟩
  · constructor
    · rw [hupper']
      exact hr.upper
    · rw [hupper', hguess']
      rcases hr.sums with hsmall | ⟨hupper, i, hi, hbelow⟩
      · exact Or.inl hsmall
      · refine Or.inr ⟨hupper, i + 1, by rw [climb_succ, hi, hupper], fun j hj => ?_⟩
        rcases Nat.lt_succ_iff_lt_or_eq.mp hj with hj | rfl
        · exact hbelow j hj
        · rwa [← hi]
  · exact fun _ => ⟨hint, ht'.inside.1.ne'⟩
  · intro h1
    omega

variable (hU : U < 2 ^ 31)

include hU

theorem asked_smaller {lo : ℤ} {width : ℕ} {s : State} (h1 : s.resu = 1) (hlt : ans < s.guess)
    (ht : Tight ans lo (width + 1) s) (hr : Roomy U ans s) : Asked U ans width s (applyVerdict s) := by
  have hpos := ht.nonneg
  have hin := ht.inside
  have hlow := ht.low
  have hdouble := hr.double_guess hU hroom ht
  have hint : IsInt32 (s.guess + s.lower_bound) := by
    constructor <;> omega
  have h3 : s.resu ≠ 3 := by omega
  have ht' := ht.smaller h1 hlt hint
  have hupper' : (applyVerdict s).upper_bound = s.guess := by rw [applyVerdict, if_neg h3, if_pos h1]
  constructor
  · exact ⟨_, ht'⟩
  · constructor
    · rw [hupper']
      exact hin.2.le.trans hr.upper
    · rw [hupper']
      exact Or.inl hdouble
  · exact fun h => absurd h h3
  · refine fun _ => ⟨hint, ?_⟩
    have hlt' := ht'.inside.2
    rw [hupper'] at hlt'
    exact hlt'.ne

theorem Open.asked {lo : ℤ} {width : ℕ} {s : State} (h : Open U ans lo width s) :
    Asked U ans width s (applyVerdict s) := by
  rcases h.judged with ⟨h4, ht⟩ | ⟨hv, hne, ht⟩
  · have hsame : applyVerdict s = s := by
      rw [applyVerdict, if_neg (by omega), if_neg (by omega)]
    rw [hsame]
    exact ⟨⟨lo, ht⟩, h.roomy, by omega, by omega⟩
  · rcases lt_or_gt_of_ne hne with hlt | hlt
    · have h3 : s.resu = 3 := by rw [hv, verdict, if_neg hne, if_neg (by omega)]
      exact asked_bigger hroom h3 hlt ht h.roomy
    · have h1 : s.resu = 1 := by rw [hv, verdict, if_neg hne, if_pos hlt]
      exact asked_smaller hroom hU h1 hlt ht h.roomy

end Search

theorem timer_open {ans : ℤ} {s : State} (hruns : s.running = true) (h2 : s.resu ≠ 2) :
    ((game ans).step s .timer).1 = { applyVerdict s with pending := true } := by
  simp only [game, hruns, timer_handler, if_neg h2, ↓reduceIte]

theorem round_open {ans : ℤ} {s : State} (hruns : s.running = true) (h2 : s.resu ≠ 2) :
    ((game ans).step ((game ans).step s .timer).1 .usr1).1 = handler ans (applyVerdict s) := by
  rw [timer_open hruns h2]
  rfl

theorem applyVerdict_running (s : State) : (applyVerdict s).running = s.running := by
  unfold applyVerdict
  split_ifs <;> rfl

theorem Open.not_bingo {U ans lo : ℤ} {width : ℕ} {s : State} (h : Open U ans lo width s) : s.resu ≠ 2 := by
  rcases h.judged with ⟨h4, -⟩ | ⟨hv, hne, -⟩
  · omega
  · rw [hv, verdict, if_neg hne]
    split_ifs <;> decide

theorem done_rounds {ans : ℤ} {s : State} (h : Done ans s) (e : Signal) : Done ans ((game ans).step s e).1 := by
  cases game_stepped ans s e with
  | idle ignored post => rwa [post]
  | ends signal bingo post =>
    rw [post]
    exact ⟨h.bingo, h.guess, h.bracketed, h.idle⟩
  | guesses signal runs open_ post => exact absurd h.bingo open_
  | answers signal waits post =>
    rw [h.idle] at waits
    cases waits

theorem Asked.judged {U ans : ℤ} {width : ℕ} {s t : State} (h : Asked U ans width s t) (hruns : t.running = true) :
    Done ans (handler ans t) ∨ ∃ lo w, w + 1 = width ∧ Open U ans lo w (handler ans t) := by
  obtain ⟨lo, ht⟩ := h.tight
  by_cases hbingo : t.guess = ans
  · left
    constructor
    · simp [handler, verdict, hbingo]
    · exact hbingo
    · exact ht.bracketed
    · rfl
  · right
    cases width with
    | zero => exact absurd ht.guess_eq hbingo
    | succ w =>
      obtain ⟨hlow, hnonneg, hanswer, hinside, hnarrow⟩ := ht
      obtain ⟨hupper, hsums⟩ := h.roomy
      refine ⟨lo, w, rfl, hruns, Or.inr ⟨rfl, hbingo, ?_⟩, ⟨hupper, hsums⟩⟩
      exact ⟨hlow, hnonneg, hanswer, hinside, hnarrow⟩

def afterRounds (U ans : ℤ) (n : ℕ) : State := (game ans).run (State.start U) (rounds n)

theorem afterRounds_succ (U ans : ℤ) (n : ℕ) : afterRounds U ans (n + 1) =
    ((game ans).step ((game ans).step (afterRounds U ans n) .timer).1 .usr1).1 := by
  rw [afterRounds, rounds_succ, Machine.run_append]
  rfl

theorem mem_rounds {U ans : ℤ} {n : ℕ} {q : Moment State Signal (Option ℤ)}
    (hq : q ∈ (game ans).trace (State.start U) (rounds n)) :
    ∃ r, q = (game ans).moment (afterRounds U ans r) .timer ∨
      q = (game ans).moment ((game ans).step (afterRounds U ans r) .timer).1 .usr1 := by
  induction n with
  | zero => cases hq
  | succ n ih =>
    rw [rounds_succ, Machine.trace_append] at hq
    rcases List.mem_append.mp hq with hq | hq
    · exact ih hq
    · refine ⟨n, ?_⟩
      simpa [Machine.trace, afterRounds] using hq

theorem open_start {U ans : ℤ} {width : ℕ} (hans : 1 ≤ ans ∧ ans < U) (hwidth : U < 2 ^ (width + 1)) :
    Open U ans 0 width (State.start U) := by
  have hguess : (State.start U).guess = U / 2 := Int.tdiv_eq_ediv_of_nonneg (by omega)
  have hupper : (State.start U).upper_bound = U := rfl
  rw [pow_succ] at hwidth
  constructor
  · rfl
  · refine Or.inl ⟨rfl, Or.inr ⟨rfl, rfl⟩, le_rfl, ?_, ?_, ?_⟩
    · rw [hupper]
      omega
    · rw [hguess, hupper]
      omega
    · rw [hguess, hupper]
      omega
  · refine ⟨le_rfl, Or.inr ⟨rfl, 0, ?_, by omega⟩⟩
    rw [hguess, climb_zero]

theorem afterRounds_open {U ans : ℤ} {k : ℕ} (hU : U < 2 ^ 31) (hroom : Room U ans)
    (hans : 1 ≤ ans ∧ ans < U) (hwidth : U < 2 ^ (k + 1)) (n : ℕ) :
    Done ans (afterRounds U ans n) ∨ ∃ lo w, w + n = k ∧ Open U ans lo w (afterRounds U ans n) := by
  induction n with
  | zero => exact Or.inr ⟨0, k, rfl, open_start hans hwidth⟩
  | succ n ih =>
    rw [afterRounds_succ]
    rcases ih with hdone | ⟨lo, w, hw, hopen⟩
    · exact Or.inl (done_rounds (done_rounds hdone _) _)
    · rw [round_open hopen.running hopen.not_bingo]
      have hruns := (applyVerdict_running _).trans hopen.running
      rcases (hopen.asked hroom hU).judged hruns with hdone | ⟨lo', w', hw', hopen'⟩
      · exact Or.inl hdone
      · exact Or.inr ⟨lo', w', by omega, hopen'⟩

structure Sought (U ans : ℤ) (s : State) : Prop where
  bracketed : Bracketed ans s
  guess : 1 ≤ s.guess ∧ s.guess ≤ U - 1

theorem Done.sought {U ans : ℤ} (hans : 1 ≤ ans ∧ ans < U) {s : State} (h : Done ans s) : Sought U ans s := by
  refine ⟨h.bracketed, ?_⟩
  rw [h.guess]
  omega

theorem Tight.sought {U ans lo : ℤ} {width : ℕ} {s : State} (h : Tight ans lo width s)
    (hupper : s.upper_bound ≤ U) : Sought U ans s := by
  have hpos := h.nonneg
  have hin := h.inside
  exact ⟨h.bracketed, by omega, by omega⟩

theorem Open.sought {U ans lo : ℤ} {width : ℕ} {s : State} (h : Open U ans lo width s) : Sought U ans s := by
  rcases h.judged with ⟨-, ht⟩ | ⟨-, -, ht⟩
  · exact ht.sought h.roomy.upper
  · exact ht.sought h.roomy.upper

theorem sought_moment {U ans : ℤ} (hU : U < 2 ^ 31) (hroom : Room U ans) (hans : 1 ≤ ans ∧ ans < U) {n : ℕ}
    {q : Moment State Signal (Option ℤ)} (hq : q ∈ (game ans).trace (State.start U) (rounds n)) :
    Sought U ans q.pre ∧ Sought U ans q.post := by
  obtain ⟨r, hr⟩ := mem_rounds hq
  rcases afterRounds_open (k := 30) hU hroom hans hU r with hdone | ⟨lo, w, -, hopen⟩
  · have htick := done_rounds hdone .timer
    rcases hr with rfl | rfl
    · exact ⟨hdone.sought hans, htick.sought hans⟩
    · exact ⟨htick.sought hans, (done_rounds htick .usr1).sought hans⟩
  · obtain ⟨⟨lo', ht⟩, hroomy, -, -⟩ := hopen.asked hroom hU
    obtain ⟨hbracketed, hguess⟩ := ht.sought hroomy.upper
    have htick : Sought U ans ((game ans).step (afterRounds U ans r) .timer).1 := by
      rw [timer_open hopen.running hopen.not_bingo]
      exact ⟨hbracketed, hguess⟩
    rcases hr with rfl | rfl
    · exact ⟨hopen.sought, htick⟩
    · refine ⟨htick, ?_⟩
      rw [Machine.moment_post, round_open hopen.running hopen.not_bingo]
      exact ⟨hbracketed, hguess⟩

theorem bisection_converges (U ans : ℤ) (hU : 2 ≤ U ∧ U < 2 ^ 30) (hans : 1 ≤ ans ∧ ans < U) :
    (∀ n, ∀ q ∈ (game ans).trace (State.start U) (rounds n), Sought U ans q.pre ∧ Sought U ans q.post) ∧
      ∃ n ≤ Nat.log 2 U.toNat + 1, (afterRounds U ans n).resu = 2 := by
  have hroom : Room U ans := by
    intro i _
    have hle := climb_le (U := U) (by omega) i
    omega
  have hwidth : U < 2 ^ (Nat.log 2 U.toNat + 1) := by
    have hlog := Nat.lt_pow_succ_log_self (b := 2) (by norm_num) U.toNat
    zify at hlog
    rwa [Int.toNat_of_nonneg (by omega)] at hlog
  constructor
  · intro n q hq
    exact sought_moment (by omega) hroom hans hq
  · refine ⟨Nat.log 2 U.toNat + 1, le_rfl, ?_⟩
    rcases afterRounds_open (by omega) hroom hans hwidth (Nat.log 2 U.toNat + 1) with hdone | ⟨lo, w, hw, -⟩
    · exact hdone.bingo
    · omega

theorem bisection_converges_demo : ∃ n ≤ Nat.log 2 100 + 1, (afterRounds 100 30 n).resu = 2 :=
  (bisection_converges 100 30 (by norm_num) (by norm_num)).2

/-- The sums of a tick are those of the exact integers, and a verdict other than "bingo" moves the guess. -/
structure Lively (U : ℤ) (q : Moment State Signal (Option ℤ)) : Prop where
  within : (1 ≤ q.pre.guess ∧ q.pre.guess ≤ U) ∧ 1 ≤ q.post.guess ∧ q.post.guess ≤ U
  bigger : q.event = .timer → q.pre.running = true → q.pre.resu = 3 →
    IsInt32 (q.pre.guess + q.pre.upper_bound) ∧ q.post.guess ≠ q.pre.guess
  smaller : q.event = .timer → q.pre.running = true → q.pre.resu = 1 →
    IsInt32 (q.pre.guess + q.pre.lower_bound) ∧ q.post.guess ≠ q.pre.guess

theorem lively_moment {U ans : ℤ} (hU : U < 2 ^ 31) (hroom : Room U ans) (hans : 1 ≤ ans ∧ ans < U) {n : ℕ}
    {q : Moment State Signal (Option ℤ)} (hq : q ∈ (game ans).trace (State.start U) (rounds n)) : Lively U q := by
  obtain ⟨⟨-, hpre⟩, ⟨-, hpost⟩⟩ := sought_moment hU hroom hans hq
  have hwithin : (1 ≤ q.pre.guess ∧ q.pre.guess ≤ U) ∧ 1 ≤ q.post.guess ∧ q.post.guess ≤ U := by omega
  obtain ⟨r, rfl | rfl⟩ := mem_rounds hq
  · rcases afterRounds_open (k := 30) hU hroom hans hU r with hdone | ⟨lo, w, -, hopen⟩
    · have hbingo := hdone.bingo
      constructor
      · exact hwithin
      · intro _ _ (h3 : (afterRounds U ans r).resu = 3)
        omega
      · intro _ _ (h1 : (afterRounds U ans r).resu = 1)
        omega
    · obtain ⟨-, -, hbigger, hsmaller⟩ := hopen.asked hroom hU
      constructor
      · exact hwithin
      · intro _ _ h3
        rw [Machine.moment_post, timer_open hopen.running hopen.not_bingo]
        exact hbigger h3
      · intro _ _ h1
        rw [Machine.moment_post, timer_open hopen.running hopen.not_bingo]
        exact hsmaller h1
  · constructor
    · exact hwithin
    · intro h
      cases h
    · intro h
      cases h

structure Climbing (U : ℤ) (i : ℕ) (s : State) : Prop where
  running : s.running = true
  judged : s.resu = 3
  guess : s.guess = climb U i
  upper : s.upper_bound = U

theorem Climbing.not_bingo {U : ℤ} {i : ℕ} {s : State} (h : Climbing U i s) : s.resu ≠ 2 := by
  rw [h.judged]
  decide

theorem Climbing.next {U : ℤ} {i : ℕ} {s : State} (h : Climbing U i s)
    (hsum : 0 ≤ climb U i + U ∧ climb U i + U < 2 ^ 31) : (applyVerdict s).guess = climb U (i + 1) := by
  rw [applyVerdict, if_pos h.judged, climb_succ, ← h.guess, ← h.upper]
  apply midpoint_eq
  · rw [h.guess, h.upper]
    exact hsum.1
  · rw [h.guess, h.upper]
    constructor <;> omega

theorem climbing_start {U ans : ℤ} (hU : 0 ≤ U) (h : climb U 0 < ans) : Climbing U 0 (afterRounds U ans 1) := by
  have hguess : U.tdiv 2 = climb U 0 := by rw [climb_zero, Int.tdiv_eq_ediv_of_nonneg hU]
  have hstate : afterRounds U ans 1 = handler ans (State.start U) := rfl
  rw [hstate]
  constructor
  · rfl
  · change verdict ans (U.tdiv 2) = 3
    rw [hguess, verdict, if_neg h.ne, if_neg h.le.not_gt]
  · exact hguess
  · rfl

theorem climbing_step {U ans : ℤ} {i : ℕ} {s : State} (h : Climbing U i s)
    (hsum : 0 ≤ climb U i + U ∧ climb U i + U < 2 ^ 31) (hlt : climb U (i + 1) < ans) :
    Climbing U (i + 1) ((game ans).step ((game ans).step s .timer).1 .usr1).1 := by
  have hnext := h.next hsum
  rw [round_open h.running h.not_bingo]
  constructor
  · exact (applyVerdict_running s).trans h.running
  · change verdict ans (applyVerdict s).guess = 3
    rw [hnext, verdict, if_neg hlt.ne, if_neg hlt.le.not_gt]
  · exact hnext
  · change (applyVerdict s).upper_bound = U
    rw [applyVerdict, if_pos h.judged, h.upper]

theorem timer_mem (U ans : ℤ) (n : ℕ) :
    (game ans).moment (afterRounds U ans n) .timer ∈ (game ans).trace (State.start U) (rounds (n + 1)) := by
  rw [rounds_succ, Machine.trace_append]
  apply List.mem_append_right
  exact List.mem_cons_self ..

theorem climb_nonneg {U : ℤ} (hU : 0 ≤ U) (i : ℕ) : 0 ≤ climb U i := by
  have hzero : 0 ≤ climb U 0 := by
    rw [climb_zero]
    omega
  exact hzero.trans (climb_mono hU (Nat.zero_le i))

theorem climbing_of_lively {U ans : ℤ} (hU : 0 ≤ U)
    (h : ∀ n, ∀ q ∈ (game ans).trace (State.start U) (rounds n), Lively U q) (i : ℕ) (hlt : climb U i < ans) :
    Climbing U i (afterRounds U ans (i + 1)) ∧ climb U i + U < 2 ^ 31 := by
  have hsum_of {i : ℕ} (hc : Climbing U i (afterRounds U ans (i + 1))) : climb U i + U < 2 ^ 31 := by
    have hint := ((h _ _ (timer_mem U ans (i + 1))).bigger rfl hc.running hc.judged).1
    rw [Machine.moment_pre, hc.guess, hc.upper] at hint
    exact hint.2
  induction i with
  | zero =>
    have hc := climbing_start hU hlt
    exact ⟨hc, hsum_of hc⟩
  | succ i ih =>
    obtain ⟨hbefore, hsum⟩ := ih ((climb_mono hU (Nat.le_succ i)).trans_lt hlt)
    have hpos := climb_nonneg hU i
    have hc : Climbing U (i + 1) (afterRounds U ans (i + 2)) := by
      rw [afterRounds_succ]
      exact climbing_step hbefore ⟨by omega, hsum⟩ hlt
    exact ⟨hc, hsum_of hc⟩

theorem climb_lt {U : ℤ} (hU : 0 < U) (i : ℕ) : climb U i < U := by
  induction i with
  | zero =>
    rw [climb_zero]
    omega
  | succ i ih =>
    rw [climb_succ]
    omega

theorem climb_stalls {U : ℤ} (hU : 0 < U) : ∃ i, climb U (i + 1) = climb U i := by
  by_contra hnever
  push Not at hnever
  have hgrows (i : ℕ) : (i : ℤ) ≤ climb U i := by
    induction i with
    | zero => exact climb_nonneg hU.le 0
    | succ i ih =>
      have hle : climb U i ≤ climb U (i + 1) := climb_mono hU.le (Nat.le_succ i)
      have hne := hnever i
      push_cast
      omega
  have hbeyond := hgrows U.toNat
  have hlt := climb_lt hU U.toNat
  omega

theorem lively_iff (U ans : ℤ) (hU : 1 ≤ U ∧ U ≤ 2 ^ 31 - 1) (hans : 1 ≤ ans ∧ ans ≤ U) :
    (∀ n, ∀ q ∈ (game ans).trace (State.start U) (rounds n), Lively U q) ↔
      ans < U ∧ Room U ans := by
  constructor
  · intro h
    have hclimb := climbing_of_lively (by omega) h
    constructor
    · by_contra hge
      obtain rfl : ans = U := by omega
      obtain ⟨i, hstall⟩ := climb_stalls (U := ans) (by omega)
      obtain ⟨hc, hsum⟩ := hclimb i (climb_lt (by omega) i)
      have hmoves := ((h _ _ (timer_mem ans ans (i + 1))).bigger rfl hc.running hc.judged).2
      have hpos := climb_nonneg (U := ans) (by omega) i
      rw [Machine.moment_post, timer_open hc.running hc.not_bingo, Machine.moment_pre, hc.guess] at hmoves
      apply hmoves
      exact (hc.next ⟨by omega, hsum⟩).trans hstall
    · exact fun i hi => (hclimb i hi).2
  · rintro ⟨hlt, hroom⟩ n q hq
    exact lively_moment (by omega) hroom ⟨hans.1, hlt⟩ hq

theorem room_demo : Room 100 30 := by
  intro i _
  have hle := climb_le (U := 100) (by norm_num) i
  omega

theorem lively_iff_demo : Room 100 30 ∧
    ∀ n, ∀ q ∈ (game 30).trace (State.start 100) (rounds n), Lively 100 q :=
  ⟨room_demo, (lively_iff 100 30 (by norm_num) (by norm_num)).mpr ⟨by norm_num, room_demo⟩⟩

theorem lively_fails : ¬ ∀ n, ∀ q ∈ (game 2).trace (State.start 2) (rounds n), Lively 2 q := by
  intro h
  have hmoves := ((h _ _ (timer_mem 2 2 1)).bigger rfl rfl rfl).2
  exact hmoves rfl

end EmbeddedOS.Lab7
