import EmbeddedOS.Lab6.Exclusion

namespace EmbeddedOS.Lab6

open CText Runs Locks

variable {ι : Type*} [Fintype ι] [DecidableEq ι]

def changes (rs : List Request) : ℤ := (rs.map Request.change).sum

def Thread.due (t : Thread) : ℤ :=
  match t.pc with
  | .stored => changes t.todo.tail
  | .printed => changes t.todo.tail
  | _ => changes t.todo

theorem int32_modEq (n : ℤ) : int32 n ≡ n [ZMOD 2 ^ 32] := by
  rw [Int.ModEq, int32]
  exact Int.bmod_emod

theorem apply_modEq (account : ℤ) (r : Request) : r.apply account ≡ account + r.change [ZMOD 2 ^ 32] := by
  cases r with
  | deposit amount => exact int32_modEq _
  | withdraw amount =>
    rw [Request.change, ← sub_eq_add_neg]
    exact int32_modEq _

structure Sound (total : ℤ) (s : Bank ι) : Prop where
  conserved : Conserved s.sem s.inside
  current : ∀ k value, (s.thread k).pc = .loaded value → value = s.account
  owed : s.account + ∑ k, (s.thread k).due ≡ total [ZMOD 2 ^ 32]

omit [DecidableEq ι] in
theorem sound_start (account : ℤ) (todo : ι → List Request) :
    Sound (account + ∑ k, changes (todo k)) (Bank.start account todo) := by
  constructor
  · rw [inside_start]
    simp [Conserved, Bank.start]
  · intro k value hk
    cases hk
  · exact Int.ModEq.refl _

theorem sum_due_put (s : Bank ι) (k : ι) (t : Thread) :
    ∑ l, ((s.put k t).thread l).due = ∑ l, (s.thread l).due - (s.thread k).due + t.due :=
  sum_update Thread.due s.thread k t

theorem Sound.owed_put {total : ℤ} {s : Bank ι} (h : Sound total s) {k : ι} {t : Thread} (sem : ℕ)
    (hdue : t.due = (s.thread k).due) :
    let s' := { s with sem := sem }.put k t
    s'.account + ∑ l, (s'.thread l).due ≡ total [ZMOD 2 ^ 32] := by
  have hsum := sum_due_put { s with sem := sem } k t
  have hsame : ∑ l, (({ s with sem := sem }.put k t).thread l).due = ∑ l, (s.thread l).due := by
    rw [hsum, hdue]
    ring
  intro s'
  change s.account + ∑ l, (({ s with sem := sem }.put k t).thread l).due ≡ total [ZMOD 2 ^ 32]
  rw [hsame]
  exact h.owed

theorem Sound.current_put {total : ℤ} {s : Bank ι} (h : Sound total s) {k : ι} {t : Thread} (sem : ℕ)
    (ht : ∀ value, t.pc = .loaded value → value = s.account) :
    ∀ l value, (({ s with sem := sem }.put k t).thread l).pc = .loaded value → value = s.account := by
  intro l value hl
  by_cases hlk : l = k
  · subst hlk
    exact ht value (by simpa using hl)
  · exact h.current l value (by simpa [hlk] using hl)

theorem Sound.owed_store {total : ℤ} {s : Bank ι} (h : Sound total s) {k : ι} {value : ℤ} {r : Request}
    {rest : List Request} (at_store : (s.thread k).pc = .loaded value) (request : (s.thread k).todo = r :: rest) :
    let s' := { s with account := r.apply s.account }.put k { s.thread k with pc := .stored }
    s'.account + ∑ l, (s'.thread l).due ≡ total [ZMOD 2 ^ 32] := by
  have hsum := sum_due_put { s with account := r.apply s.account } k { s.thread k with pc := .stored }
  have hbefore : (s.thread k).due = r.change + changes rest := by
    simp [Thread.due, at_store, request, changes]
  have hafter : ({ s.thread k with pc := .stored } : Thread).due = changes rest := by
    simp [Thread.due, request]
  have heq : s.account + r.change + (∑ l, (s.thread l).due - (s.thread k).due + changes rest) =
      s.account + ∑ l, (s.thread l).due := by
    rw [hbefore]
    ring
  intro s'
  rw [hsum, hafter]
  change r.apply s.account + (∑ l, (s.thread l).due - (s.thread k).due + changes rest) ≡ _ [ZMOD _]
  calc r.apply s.account + (∑ l, (s.thread l).due - (s.thread k).due + changes rest)
      ≡ s.account + r.change + (∑ l, (s.thread l).due - (s.thread k).due + changes rest)
        [ZMOD 2 ^ 32] := (apply_modEq s.account r).add_right _
    _ = s.account + ∑ l, (s.thread l).due := heq
    _ ≡ total [ZMOD 2 ^ 32] := h.owed

theorem sound_step {total : ℤ} {s : Bank ι} {e : Turn ι} (h : Sound total s) (hok : e.fails = false) :
    Sound total (money.step s e).1 := by
  cases money_stepped s e with
  | waits same => rwa [same]
  | locks at_P succeeds free post =>
    have hout : e.thread ∉ s.inside := by
      rw [mem_inside, at_P]
      simp
    rw [post]
    refine ⟨?_, h.current_put _ (by simp), h.owed_put _ (by simp [Thread.due, at_P])⟩
    rw [inside_put, if_neg (by simp)]
    exact h.conserved.acquire free hout
  | intrudes at_P fails pending post =>
    rw [hok] at fails
    cases fails
  | loads at_load post =>
    rw [post]
    refine ⟨?_, h.current_put s.sem ?_, h.owed_put s.sem (by simp [Thread.due, at_load])⟩
    · rw [inside_put_same (mem_inside_of at_load (by simp)) (by simp)]
      exact h.conserved
    · intro value hv
      exact (Pc.loaded.inj hv).symm
  | stores value r rest at_store request post =>
    have hin := mem_inside_of at_store (by simp)
    obtain rfl : value = s.account := h.current e.thread value at_store
    rw [post]
    refine ⟨?_, ?_, h.owed_store at_store request⟩
    · rw [inside_put_same (s := { s with account := r.apply s.account }) hin (by simp)]
      exact h.conserved
    · intro l value hl
      by_cases hlk : l = e.thread
      · subst hlk
        simp at hl
      · -- nobody else is inside, so nobody else has loaded
        have hl' : (s.thread l).pc = .loaded value := by simpa [hlk] using hl
        have hlin : l ∈ s.inside := by
          rw [mem_inside, hl']
          simp
        exact absurd (h.conserved.exclusive.eq hlin hin) hlk
  | prints at_printf post =>
    rw [post]
    refine ⟨?_, h.current_put s.sem (by simp), h.owed_put s.sem (by simp [Thread.due, at_printf])⟩
    rw [inside_put_same (mem_inside_of at_printf (by simp)) (by simp)]
    exact h.conserved
  | unlocks sem r rest at_V request release post =>
    have hin := mem_inside_of at_V (by simp)
    rw [hok, if_neg (by simp)] at release
    subst release
    rw [post]
    refine ⟨?_, h.current_put _ (by simp), h.owed_put _ (by simp [Thread.due, at_V, request])⟩
    rw [inside_put, if_pos rfl]
    exact h.conserved.release hin

def succeeding (schedule : List ι) : List (Turn ι) := schedule.map fun k => ⟨k, false⟩

theorem sound_after (account : ℤ) (todo : ι → List Request) (schedule : List ι) :
    Sound (account + ∑ k, changes (todo k)) (Bank.after account todo (succeeding schedule)) := by
  apply money.run_invariant_of_trace (sound_start account todo)
  intro q hq hpre
  have he := money.event_mem_of_mem_trace hq
  obtain ⟨fs, e, gs, -, rfl⟩ := money.mem_trace_iff.mp hq
  obtain ⟨k, -, hk⟩ := List.mem_map.mp he
  have hok : e.fails = false := congrArg Turn.fails hk.symm
  exact sound_step hpre hok

theorem no_lost_update (account : ℤ) (todo : ι → List Request) (schedule : List ι) :
    let s := Bank.after account todo (succeeding schedule)
    (∀ k ∈ s.inside, ∀ l ∈ s.inside, k = l) ∧ s.sem + s.inside.card = 1 ∧
      ((∀ k, (s.thread k).todo = []) → s.account ≡ account + ∑ k, changes (todo k) [ZMOD 2 ^ 32]) := by
  intro s
  have hs := sound_after account todo schedule
  refine ⟨fun k hk l hl => hs.conserved.exclusive.eq hk hl, hs.conserved, fun hdone => ?_⟩
  have hdue : ∑ k, (s.thread k).due = 0 := by
    apply Finset.sum_eq_zero
    intro k _
    have hk := hdone k
    unfold Thread.due
    split <;> simp [hk, changes]
  have howed := hs.owed
  change s.account + ∑ k, (s.thread k).due ≡ _ [ZMOD _] at howed
  rwa [hdue, add_zero] at howed

theorem no_lost_update_demo :
    (Bank.after 0 ![[.deposit 1], [.withdraw 1]] (succeeding ((List.replicate 10 [0, 1]).flatten))).account ≡
      0 + ∑ k : Fin 2, changes (![[.deposit 1], [.withdraw 1]] k) [ZMOD 2 ^ 32] :=
  (no_lost_update 0 ![[.deposit 1], [.withdraw 1]] (List.replicate 10 [0, 1]).flatten).2.2 (by decide)

end EmbeddedOS.Lab6
