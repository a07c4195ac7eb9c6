import EmbeddedOS.Lab6.Bank

namespace EmbeddedOS.Lab6

open CText Runs Locks

variable {ι : Type*} [Fintype ι] [DecidableEq ι]

structure Locked (s : Bank ι) : Prop where
  exclusive : Exclusive s.sem s.inside
  holders : ∀ k ∈ s.inside, (s.thread k).locked = true

def FailsP (s : Bank ι) (e : Turn ι) : Prop :=
  (s.thread e.thread).pc = .outside ∧ (s.thread e.thread).todo ≠ [] ∧ e.fails = true

instance (s : Bank ι) (e : Turn ι) : Decidable (FailsP s e) := inferInstanceAs (Decidable (_ ∧ _))

omit [DecidableEq ι] in
theorem inside_start (account : ℤ) (todo : ι → List Request) : (Bank.start account todo).inside = ∅ := by
  ext k
  simp [mem_inside, Bank.start]

omit [DecidableEq ι] in
theorem locked_start (account : ℤ) (todo : ι → List Request) : Locked (Bank.start account todo) := by
  constructor
  · rw [inside_start]
    simp [Exclusive, Bank.start]
  · simp [inside_start]

theorem Locked.advance {s : Bank ι} (h : Locked s) {k : ι} (hk : k ∈ s.inside) {pc : Pc}
    (hpc : pc ≠ .outside) (account : ℤ) :
    Locked ({ s with account := account }.put k { s.thread k with pc := pc }) := by
  have hin : ({ s with account := account }.put k { s.thread k with pc := pc }).inside = s.inside :=
    inside_put_same (s := { s with account := account }) hk hpc
  constructor
  · rw [hin]
    exact h.exclusive
  · intro l hl
    rw [hin] at hl
    by_cases hlk : l = k
    · subst hlk
      simpa using h.holders l hl
    · simpa [hlk] using h.holders l hl

theorem locked_step {s : Bank ι} {e : Turn ι} (h : Locked s) (hP : ¬ FailsP s e) :
    Locked (money.step s e).1 := by
  cases money_stepped s e with
  | waits same => rwa [same]
  | locks at_P succeeds free post =>
    have hin : (money.step s e).1.inside = insert e.thread s.inside := by
      rw [post, inside_put, if_neg (by simp)]
      rfl
    constructor
    · rw [hin, post]
      exact h.exclusive.acquire free e.thread
    · intro l hl
      rw [hin, h.exclusive.empty free, Finset.mem_insert] at hl
      obtain rfl : l = e.thread := by simpa using hl
      simp [post]
  | intrudes at_P fails pending post => exact absurd ⟨at_P, pending, fails⟩ hP
  | loads at_load post =>
    rw [post]
    exact h.advance (mem_inside_of at_load (by simp)) (by simp) s.account
  | stores value r rest at_store request post =>
    rw [post]
    exact h.advance (mem_inside_of at_store (by simp)) (by simp) _
  | prints at_printf post =>
    rw [post]
    exact h.advance (mem_inside_of at_printf (by simp)) (by simp) s.account
  | unlocks sem r rest at_V request release post =>
    have hsem : sem ≤ s.sem + 1 := by
      rw [release]
      split_ifs <;> omega
    have hin : (money.step s e).1.inside = s.inside.erase e.thread := by
      rw [post, inside_put, if_pos rfl]
      rfl
    constructor
    · rw [hin, post]
      exact h.exclusive.release (mem_inside_of at_V (by simp)) hsem
    · intro l hl
      rw [hin, Finset.mem_erase] at hl
      simpa [post, hl.1] using h.holders l hl.2

def Touches (s : Bank ι) (k : ι) : Prop :=
  (s.thread k).todo ≠ [] ∧ ((s.thread k).pc = .entered ∨ ∃ value, (s.thread k).pc = .loaded value)

structure Excludes (account : ℤ) (todo : ι → List Request) (es : List (Turn ι)) : Prop where
  touch : ∀ q ∈ Bank.history account todo es, Touches q.pre q.event.thread →
    (q.pre.thread q.event.thread).locked = true
  alone : ∀ fs, fs <+: es → ∀ k ∈ (Bank.after account todo fs).inside,
    ∀ l ∈ (Bank.after account todo fs).inside, k = l
  permits : ∀ fs, fs <+: es → (Bank.after account todo fs).sem ≤ 1

theorem locked_after {account : ℤ} {todo : ι → List Request} {es : List (Turn ι)}
    (h : ∀ q ∈ Bank.history account todo es, ¬ FailsP q.pre q.event) {fs : List (Turn ι)} (hfs : fs <+: es) :
    Locked (Bank.after account todo fs) := by
  obtain ⟨gs, rfl⟩ := hfs
  apply money.run_invariant_of_trace (locked_start account todo)
  intro q hq hpre
  have hq' : q ∈ Bank.history account todo (fs ++ gs) := by
    rw [Bank.history, Machine.trace_append]
    exact List.mem_append_left _ hq
  obtain ⟨_, _, _, -, rfl⟩ := money.mem_trace_iff.mp hq
  exact locked_step hpre (h _ hq')

theorem excludes_of_P {account : ℤ} {todo : ι → List Request} {es : List (Turn ι)}
    (h : ∀ q ∈ Bank.history account todo es, ¬ FailsP q.pre q.event) : Excludes account todo es := by
  constructor
  · intro q hq htouch
    obtain ⟨fs, e, gs, rfl, rfl⟩ := money.mem_trace_iff.mp hq
    have hl := locked_after h (List.prefix_append fs (e :: gs))
    apply hl.holders e.thread
    rw [mem_inside]
    rcases htouch.2 with hpc | ⟨value, hpc⟩
    · exact fun ho => by cases hpc.symm.trans ho
    · exact fun ho => by cases hpc.symm.trans ho
  · intro fs hfs k hk l hl
    exact (locked_after h hfs).exclusive.eq hk hl
  · intro fs hfs
    exact (locked_after h hfs).exclusive.permits_le

def Intruder (s : Bank ι) (k : ι) : Prop :=
  (s.thread k).todo ≠ [] ∧ (s.thread k).pc = .entered ∧ (s.thread k).locked = false

omit [Fintype ι] in
theorem intruder_of_failed_P {s : Bank ι} {e : Turn ι} (h : FailsP s e) :
    Intruder (money.step s e).1 e.thread := by
  obtain ⟨hpc, htodo, hf⟩ := h
  obtain ⟨r, rest, ht⟩ := List.exists_cons_of_ne_nil htodo
  simp [money, ht, hpc, hf, Intruder]

omit [Fintype ι] in
theorem intruder_stays {k : ι} {s : Bank ι} (h : Intruder s k) {es : List (Turn ι)}
    (hes : ∀ e ∈ es, e.thread ≠ k) : Intruder (money.run s es) k := by
  induction es generalizing s with
  | nil => exact h
  | cons e es ih =>
    have hne : k ≠ e.thread := (hes e (by simp)).symm
    have hsame : (money.step s e).1.thread k = s.thread k := by
      cases money_stepped s e with
      | waits same => rw [same]
      | locks at_P succeeds free post => simp [post, hne]
      | intrudes at_P fails pending post => simp [post, hne]
      | loads at_load post => simp [post, hne]
      | stores value r rest at_store request post => simp [post, hne]
      | prints at_printf post => simp [post, hne]
      | unlocks sem r rest at_V request release post => simp [post, hne]
    refine ih ?_ fun f hf => hes f (by simp [hf])
    simpa [Intruder, hsame] using h

theorem not_excludes_of_failed_P {account : ℤ} {todo : ι → List Request} {es : List (Turn ι)}
    (h : ∃ q ∈ Bank.history account todo es, FailsP q.pre q.event) :
    ∃ k, ¬ Excludes account todo (es ++ [⟨k, false⟩]) := by
  obtain ⟨q, hq, hP⟩ := h
  obtain ⟨fs, e, gs, rfl, rfl⟩ := money.mem_trace_iff.mp hq
  refine ⟨e.thread, fun hex => ?_⟩
  have hin : Intruder (money.step (Bank.after account todo fs) e).1 e.thread := intruder_of_failed_P hP
  -- the first step that the intruder takes after its `P`
  obtain ⟨as, f, bs, hsplit, hf, has⟩ :=
    exists_first (p := fun a : Turn ι => a.thread = e.thread) (l := gs ++ [⟨e.thread, false⟩])
      ⟨⟨e.thread, false⟩, by simp, rfl⟩
  have hstay := intruder_stays hin has
  have hq' : money.moment (money.run (money.step (Bank.after account todo fs) e).1 as) f ∈
      Bank.history account todo (fs ++ e :: gs ++ [⟨e.thread, false⟩]) := by
    refine money.mem_trace_iff.mpr ⟨fs ++ e :: as, f, bs, by simp [hsplit], ?_⟩
    rw [Machine.run_append]
    rfl
  have htouch : Touches (money.run (money.step (Bank.after account todo fs) e).1 as) f.thread := by
    rw [hf]
    exact ⟨hstay.1, Or.inl hstay.2.1⟩
  have hlock : ((money.run (money.step (Bank.after account todo fs) e).1 as).thread f.thread).locked = true :=
    hex.touch _ hq' htouch
  rw [hf, hstay.2.2] at hlock
  cases hlock

theorem excludes_iff (account : ℤ) (todo : ι → List Request) (es : List (Turn ι)) :
    ((∀ q ∈ Bank.history account todo es, ¬ FailsP q.pre q.event) → Excludes account todo es) ∧
      ((∃ q ∈ Bank.history account todo es, FailsP q.pre q.event) →
        ∃ k, ¬ Excludes account todo (es ++ [⟨k, false⟩])) :=
  ⟨excludes_of_P, not_excludes_of_failed_P⟩

def patient : List (Turn (Fin 2)) :=
  [⟨0, false⟩, ⟨1, false⟩, ⟨0, false⟩, ⟨0, false⟩, ⟨0, false⟩, ⟨0, false⟩, ⟨1, false⟩, ⟨1, false⟩,
    ⟨1, false⟩, ⟨1, false⟩, ⟨1, true⟩]

theorem excludes_patient : Excludes 0 (fun _ : Fin 2 => [.deposit 1]) patient ∧
    (Bank.after 0 (fun _ : Fin 2 => [.deposit 1]) patient).account = 2 ∧
    (Bank.after 0 (fun _ : Fin 2 => [.deposit 1]) patient).sem = 0 :=
  ⟨(excludes_iff 0 (fun _ => [.deposit 1]) patient).1 (by decide), by decide, by decide⟩

def interrupted : List (Turn (Fin 2)) :=
  [⟨0, false⟩, ⟨1, true⟩, ⟨1, false⟩, ⟨0, false⟩, ⟨0, false⟩, ⟨0, false⟩, ⟨0, false⟩, ⟨1, false⟩,
    ⟨1, false⟩, ⟨1, false⟩]

theorem excludes_fails : ¬ Excludes 0 (fun _ : Fin 2 => [.deposit 1]) interrupted ∧
    (Bank.after 0 (fun _ : Fin 2 => [.deposit 1]) (interrupted.take 2)).inside = Finset.univ ∧
    (Bank.after 0 (fun _ : Fin 2 => [.deposit 1]) interrupted).account = 1 ∧
    (Bank.after 0 (fun _ : Fin 2 => [.deposit 1]) interrupted).sem = 2 := by
  refine ⟨fun h => ?_, by decide, by decide, by decide⟩
  have hle := h.permits interrupted (List.prefix_refl _)
  exact absurd hle (by decide)

end EmbeddedOS.Lab6
