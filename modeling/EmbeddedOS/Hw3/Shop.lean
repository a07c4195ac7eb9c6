import EmbeddedOS.Library.Runs

/-!
The shop on its own terms: clients with an identity, one sale each per period, a stock of
articles in three sizes. Identities, articles, days and supplies are arbitrary types.
-/

namespace EmbeddedOS.Shop

open Runs

/-- `opens d x`: identity `x` may buy on day `d`. The sales of the period are forgotten after a
sale on a day that `ends` it, and every sale takes `use` of the supplies. -/
structure Rules (ι δ α : Type*) where
  opens : δ → ι → Bool
  ends : δ → Bool
  next : δ → δ
  use : α → α

structure State (κ ι τ δ α : Type*) where
  session : κ → Option ι
  day : δ
  supplies : α
  bought : List ι
  stock : τ → Fin 3 → ℤ

inductive Command (ι τ : Type*) where
  | login (x : ι)
  | logout
  | buy (t : τ) (m : Fin 3 → ℤ)
  | idle

inductive Mark (κ ι τ δ : Type*) where
  | loggedIn (k : κ) (x : ι)
  | loggedOut (k : κ) (x : ι)
  | sold (k : κ) (x : ι) (d : δ) (t : τ) (m : Fin 3 → ℤ)
  | nothing

def Allowed (m : Fin 3 → ℤ) : Prop := (∀ j, 0 ≤ m j) ∧ ∑ j, m j ≤ 3

instance (m : Fin 3 → ℤ) : Decidable (Allowed m) := inferInstanceAs (Decidable (_ ∧ _))

section Shop

variable {κ ι τ δ α : Type*} [DecidableEq κ] [DecidableEq ι] [DecidableEq τ]

def State.setSession (s : State κ ι τ δ α) (k : κ) (x : Option ι) : State κ ι τ δ α :=
  { s with session := Function.update s.session k x }

def State.sell (R : Rules ι δ α) (s : State κ ι τ δ α) (k : κ) (x : ι) (t : τ) (m : Fin 3 → ℤ) :
    State κ ι τ δ α where
  session := Function.update s.session k none
  day := R.next s.day
  supplies := R.use s.supplies
  bought := if R.ends s.day then [] else s.bought ++ [x]
  stock := Function.update s.stock t (s.stock t - m)

def State.Sells (R : Rules ι δ α) (s : State κ ι τ δ α) (x : ι) (t : τ) (m : Fin 3 → ℤ) : Prop :=
  R.opens s.day x = true ∧ x ∉ s.bought ∧ Allowed m ∧ ∀ j, m j ≤ s.stock t j

instance (R : Rules ι δ α) (s : State κ ι τ δ α) (x : ι) (t : τ) (m : Fin 3 → ℤ) :
    Decidable (s.Sells R x t m) := inferInstanceAs (Decidable (_ ∧ _ ∧ _ ∧ _))

def shop (R : Rules ι δ α) :
    Machine (State κ ι τ δ α) (κ × Command ι τ) (Mark κ ι τ δ) where
  step s e :=
    match e.2, s.session e.1 with
    | .login x, none => (s.setSession e.1 (some x), .loggedIn e.1 x)
    | .logout, some x => ({ s.setSession e.1 none with bought := s.bought ++ [x] }, .loggedOut e.1 x)
    | .buy t m, some x =>
      if s.Sells R x t m then (s.sell R e.1 x t m, .sold e.1 x s.day t m) else (s, .nothing)
    | _, _ => (s, .nothing)

def Mark.Closes (k : κ) : Mark κ ι τ δ → Prop
  | .loggedOut k' _ => k' = k
  | .sold k' _ _ _ _ => k' = k
  | _ => False

def Mark.isSale : Mark κ ι τ δ → Bool
  | .sold _ _ _ _ _ => true
  | _ => false

def Mark.ends (R : Rules ι δ α) : Mark κ ι τ δ → Bool
  | .sold _ _ d _ _ => R.ends d
  | _ => false

def Mark.identity : Mark κ ι τ δ → Option ι
  | .loggedOut _ x => some x
  | .sold _ x _ _ _ => some x
  | _ => none

def OpenSession (k : κ) (x : ι) : List (Mark κ ι τ δ) → Prop :=
  Since (fun q => ¬ q.Closes k) (fun q => q = .loggedIn k x)

def periodList (R : Rules ι δ α) (l : List (Mark κ ι τ δ)) : List ι :=
  (sinceLast (Mark.ends R) l).filterMap Mark.identity

def sales (l : List (Mark κ ι τ δ)) : ℕ := l.countP Mark.isSale

omit [DecidableEq κ] [DecidableEq ι] [DecidableEq τ] in
theorem periodList_snoc (R : Rules ι δ α) (l : List (Mark κ ι τ δ)) (q : Mark κ ι τ δ) :
    periodList R (l ++ [q]) = if q.ends R then [] else periodList R l ++ q.identity.toList := by
  unfold periodList
  rw [sinceLast_snoc]
  split_ifs
  · rfl
  · cases hq : q.identity <;> simp [hq]

def marks (R : Rules ι δ α) (s : State κ ι τ δ α) (es : List (κ × Command ι τ)) :
    List (Mark κ ι τ δ) := ((shop R).trace s es).map Moment.out

variable (R : Rules ι δ α) (s : State κ ι τ δ α)

theorem marks_snoc (es : List (κ × Command ι τ)) (e : κ × Command ι τ) :
    marks R s (es ++ [e]) = marks R s es ++ [((shop R).step ((shop R).run s es) e).2] := by
  simp [marks, Machine.trace_snoc, Machine.moment]

theorem step_of_mark (e : κ × Command ι τ) :
    match ((shop R).step s e).2 with
    | .loggedIn k x => k = e.1 ∧ s.session k = none ∧ ((shop R).step s e).1 = s.setSession k (some x)
    | .loggedOut k x => k = e.1 ∧ s.session k = some x ∧
        ((shop R).step s e).1 = { s.setSession k none with bought := s.bought ++ [x] }
    | .sold k x d t m => k = e.1 ∧ s.session k = some x ∧ d = s.day ∧ s.Sells R x t m ∧
        ((shop R).step s e).1 = s.sell R k x t m
    | .nothing => ((shop R).step s e).1 = s := by
  obtain ⟨k, c⟩ := e
  cases c with
  | login x => cases hs : s.session k <;> simp [shop, hs]
  | logout => cases hs : s.session k <;> simp [shop, hs]
  | idle => simp [shop]
  | buy t m =>
    cases hs : s.session k with
    | none => simp [shop, hs]
    | some x => by_cases hb : s.Sells R x t m <;> simp [shop, hs, hb]

theorem session_iff (hs : ∀ k, s.session k = none) (es : List (κ × Command ι τ)) (k : κ) (x : ι) :
    ((shop R).run s es).session k = some x ↔ OpenSession k x (marks R s es) := by
  induction es using List.reverseRecOn with
  | nil => simp [hs, marks, OpenSession, since_nil]
  | append_singleton es e ih =>
    have hm := step_of_mark R ((shop R).run s es) e
    rw [marks_snoc, OpenSession, since_snoc, Machine.run_snoc, ← OpenSession, ← ih]
    generalize (shop R).run s es = t at hm ⊢
    generalize ((shop R).step t e).1 = t', ((shop R).step t e).2 = q at hm ⊢
    cases q with
    | nothing => simp [Mark.Closes, hm]
    | loggedIn j y =>
      obtain ⟨-, hj, rfl⟩ := hm
      by_cases h : k = j
      · subst h
        simp [State.setSession, hj, Mark.Closes]
      · simp [State.setSession, Mark.Closes, h, Ne.symm h]
    | loggedOut j y =>
      obtain ⟨-, hj, rfl⟩ := hm
      by_cases h : k = j
      · subst h
        simp [State.setSession, Mark.Closes]
      · simp [State.setSession, Mark.Closes, h, Ne.symm h]
    | sold j y d a m =>
      obtain ⟨-, hj, rfl, -, rfl⟩ := hm
      by_cases h : k = j
      · subst h
        simp [State.sell, Mark.Closes]
      · simp [State.sell, Mark.Closes, h, Ne.symm h]

theorem bought_eq (hs : s.bought = []) (es : List (κ × Command ι τ)) :
    ((shop R).run s es).bought = periodList R (marks R s es) := by
  induction es using List.reverseRecOn with
  | nil => simp [hs, marks, periodList]
  | append_singleton es e ih =>
    have hm := step_of_mark R ((shop R).run s es) e
    rw [marks_snoc, periodList_snoc, Machine.run_snoc, ← ih]
    generalize (shop R).run s es = t at hm ⊢
    generalize ((shop R).step t e).1 = t', ((shop R).step t e).2 = q at hm ⊢
    cases q with
    | nothing => simp [Mark.ends, Mark.identity, hm]
    | loggedIn j y => simp [Mark.ends, Mark.identity, hm.2.2, State.setSession]
    | loggedOut j y => simp [Mark.ends, Mark.identity, hm.2.2]
    | sold j y d a m =>
      obtain ⟨-, hj, rfl, -, rfl⟩ := hm
      rfl

theorem day_eq (es : List (κ × Command ι τ)) :
    ((shop R).run s es).day = R.next^[sales (marks R s es)] s.day ∧
      ((shop R).run s es).supplies = R.use^[sales (marks R s es)] s.supplies := by
  induction es using List.reverseRecOn with
  | nil => simp [marks, sales]
  | append_singleton es e ih =>
    have hm := step_of_mark R ((shop R).run s es) e
    rw [marks_snoc, sales, List.countP_append, ← sales, Machine.run_snoc]
    generalize (shop R).run s es = t at hm ih ⊢
    generalize ((shop R).step t e).1 = t', ((shop R).step t e).2 = q at hm ⊢
    cases q with
    | nothing => simpa [Mark.isSale, hm] using ih
    | loggedIn j y => simpa [Mark.isSale, hm.2.2, State.setSession] using ih
    | loggedOut j y => simpa [Mark.isSale, hm.2.2, State.setSession] using ih
    | sold j y d a m =>
      obtain ⟨-, hj, rfl, -, rfl⟩ := hm
      simp [Mark.isSale, State.sell, Function.iterate_succ_apply', ih]

end Shop

end EmbeddedOS.Shop
