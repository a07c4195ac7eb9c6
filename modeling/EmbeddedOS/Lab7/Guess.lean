import EmbeddedOS.Library.Bytes
import EmbeddedOS.Library.Runs

/-!
The guessing game of lab 7: the timer handler of `guess.cpp` and the SIGUSR1 handler of
`game.cpp` over the record they share.
-/

namespace EmbeddedOS.Lab7

open CText Runs

/-- The shared record, the bounds of the guess process, whether that process still runs, and
whether a SIGUSR1 waits at the game process. -/
structure State where
  guess : ℤ
  resu : ℤ
  lower_bound : ℤ
  upper_bound : ℤ
  running : Bool
  pending : Bool
  deriving DecidableEq

def midpoint (a b : ℤ) : ℤ := (int32 (a + b)).tdiv 2

def applyVerdict (s : State) : State :=
  if s.resu = 3 then { s with lower_bound := s.guess, guess := midpoint s.guess s.upper_bound }
  else if s.resu = 1 then { s with upper_bound := s.guess, guess := midpoint s.guess s.lower_bound }
  else s

/-- On a verdict of 2 the process ends in `handler_delete`, before it prints or signals. -/
def timer_handler (s : State) : State :=
  if s.resu = 2 then { s with running := false }
  else { applyVerdict s with pending := true }

def verdict (ans guess : ℤ) : ℤ := if guess = ans then 2 else if guess > ans then 1 else 3

def handler (ans : ℤ) (s : State) : State :=
  { s with resu := verdict ans s.guess, pending := false }

inductive Signal where
  | timer
  | usr1
  deriving DecidableEq

/-- A signal whose process has ended, or that is not pending, changes nothing. The output is the
guess that is printed. -/
def game (ans : ℤ) : Machine State Signal (Option ℤ) where
  step s e :=
    match e with
    | .timer =>
      if s.running then
        (timer_handler s, if s.resu = 2 then none else some (timer_handler s).guess)
      else (s, none)
    | .usr1 => if s.pending then (handler ans s, some s.guess) else (s, none)

def State.start (U : ℤ) : State := ⟨U.tdiv 2, 4, 1, U, true, false⟩

def Bracketed (ans : ℤ) (s : State) : Prop := s.lower_bound ≤ ans ∧ ans ≤ s.upper_bound

instance (ans : ℤ) (s : State) : Decidable (Bracketed ans s) := inferInstanceAs (Decidable (_ ∧ _))

/-- A tick before the game has seen the guess, with an older verdict that is wrong for it. -/
def Stale (ans : ℤ) (s : State) (e : Signal) : Prop :=
  e = .timer ∧ s.running = true ∧ s.pending = true ∧
    ((s.resu = 3 ∧ ans < s.guess) ∨ (s.resu = 1 ∧ s.guess < ans))

instance (ans : ℤ) (s : State) (e : Signal) : Decidable (Stale ans s e) :=
  inferInstanceAs (Decidable (_ ∧ _))

inductive Stepped (ans : ℤ) (s : State) (e : Signal) (s' : State) : Prop
  | idle (ignored : e = .timer → s.running = false) (post : s' = s)
  | ends (signal : e = .timer) (bingo : s.resu = 2) (post : s' = { s with running := false })
  | guesses (signal : e = .timer) (runs : s.running = true) (open_ : s.resu ≠ 2)
      (post : s' = { applyVerdict s with pending := true })
  | answers (signal : e = .usr1) (waits : s.pending = true) (post : s' = handler ans s)

theorem game_stepped (ans : ℤ) (s : State) (e : Signal) : Stepped ans s e ((game ans).step s e).1 := by
  cases e with
  | timer =>
    cases hr : s.running with
    | false => exact .idle (fun _ => hr) (by simp [game, hr])
    | true =>
      by_cases h2 : s.resu = 2
      · exact .ends rfl h2 (by simp [game, hr, timer_handler, h2])
      · exact .guesses rfl hr h2 (by simp [game, hr, timer_handler, h2])
  | usr1 =>
    cases hp : s.pending with
    | false => exact .idle (by simp) (by simp [game, hp])
    | true => exact .answers rfl hp (by simp [game, hp])

def Fresh (ans : ℤ) (s : State) : Prop := s.pending = false → s.resu = 4 ∨ s.resu = verdict ans s.guess

theorem verdict_eq_three {ans guess : ℤ} (h : verdict ans guess = 3) : guess < ans := by
  unfold verdict at h
  split_ifs at h <;> omega

theorem verdict_eq_one {ans guess : ℤ} (h : verdict ans guess = 1) : ans < guess := by
  unfold verdict at h
  split_ifs at h <;> omega

theorem fresh_step {ans : ℤ} {s : State} {e : Signal} (h : Fresh ans s) :
    Fresh ans ((game ans).step s e).1 := by
  cases game_stepped ans s e with
  | idle ignored post => rwa [post]
  | ends signal bingo post =>
    rw [post]
    exact h
  | guesses signal runs open_ post =>
    intro hp
    rw [post] at hp
    cases hp
  | answers signal waits post =>
    rw [post]
    exact fun _ => Or.inr rfl

def Apt (ans : ℤ) (s : State) : Prop := (s.resu = 3 → s.guess ≤ ans) ∧ (s.resu = 1 → ans ≤ s.guess)

theorem apt_of_not_stale {ans : ℤ} {s : State} (hf : Fresh ans s) (hr : s.running = true)
    (hs : ¬ Stale ans s .timer) : Apt ans s := by
  by_cases hp : s.pending = true
  · constructor
    · intro h3
      by_contra hlt
      exact hs ⟨rfl, hr, hp, Or.inl ⟨h3, not_le.mp hlt⟩⟩
    · intro h1
      by_contra hlt
      exact hs ⟨rfl, hr, hp, Or.inr ⟨h1, not_le.mp hlt⟩⟩
  · have hv := hf (by simpa using hp)
    constructor
    · intro h3
      rw [h3] at hv
      rcases hv with hv | hv
      · cases hv
      · exact (verdict_eq_three hv.symm).le
    · intro h1
      rw [h1] at hv
      rcases hv with hv | hv
      · cases hv
      · exact (verdict_eq_one hv.symm).le

theorem bracketed_applyVerdict {ans : ℤ} {s : State} (h : Bracketed ans s) :
    Bracketed ans (applyVerdict s) ↔ Apt ans s := by
  obtain ⟨hl, hu⟩ := h
  unfold applyVerdict
  split_ifs with h3 h1
  · simp [Bracketed, Apt, h3, hu]
  · simp [Bracketed, Apt, h1, hl]
  · simp [Bracketed, Apt, h3, h1, hl, hu]

theorem bracketed_step {ans : ℤ} {s : State} {e : Signal} (hf : Fresh ans s) (h : Bracketed ans s) :
    Bracketed ans ((game ans).step s e).1 ↔ ¬ Stale ans s e := by
  cases game_stepped ans s e with
  | idle ignored post =>
    rw [post]
    refine iff_of_true h fun hs => ?_
    have hoff := ignored hs.1
    rw [hs.2.1] at hoff
    cases hoff
  | ends signal bingo post =>
    rw [post]
    refine iff_of_true h fun hs => ?_
    rw [Stale, bingo] at hs
    rcases hs.2.2.2 with ⟨h3, -⟩ | ⟨h1, -⟩
    · cases h3
    · cases h1
  | guesses signal runs open_ post =>
    subst signal
    rw [post]
    change Bracketed ans (applyVerdict s) ↔ _
    rw [bracketed_applyVerdict h]
    constructor
    · rintro ⟨h3, h1⟩ ⟨-, -, -, ⟨hv, hlt⟩ | ⟨hv, hlt⟩⟩
      · exact absurd (h3 hv) (not_le.mpr hlt)
      · exact absurd (h1 hv) (not_le.mpr hlt)
    · exact apt_of_not_stale hf runs
  | answers signal waits post =>
    rw [post]
    refine iff_of_true h fun hs => ?_
    cases signal.symm.trans hs.1

theorem bracketed_iff (U ans : ℤ) (hans : 1 ≤ ans ∧ ans ≤ U) (es : List Signal) :
    (∀ fs, fs <+: es → Bracketed ans ((game ans).run (State.start U) fs)) ↔
      ∀ q ∈ (game ans).trace (State.start U) es, ¬ Stale ans q.pre q.event := by
  have hstart : Fresh ans (State.start U) := fun _ => Or.inl rfl
  exact (game ans).states_iff (fun _ _ hf => fresh_step hf) (fun _ _ hf hb => bracketed_step hf hb) hstart hans es

theorem bracketed_alternating :
    Bracketed 30 ((game 30).run (State.start 100) [.timer, .usr1, .timer, .usr1, .timer]) :=
  (bracketed_iff 100 30 (by norm_num) [.timer, .usr1, .timer, .usr1, .timer]).mpr (by decide) _
    (List.prefix_refl _)

theorem bracketed_fails : ¬ Bracketed 30 ((game 30).run (State.start 100) [.timer, .usr1, .timer, .timer]) := by
  decide

end EmbeddedOS.Lab7
