import EmbeddedOS.Library.Runs

/-!
The server of `lab5.cpp`: a process for each connection, and the SIGCHLD handler that collects those that
have ended.
-/

namespace EmbeddedOS.Lab5

open Runs

/-- The server at `accept`, at `fork` and at `close(connfd)`; a child before `execl`; `sl` in its place; a process
that has ended, before and after its parent waits for it. A process that was not made yet is `gone` as well. -/
inductive Phase where
  | accepting
  | forking
  | parting
  | newborn
  | program
  | zombie
  | gone
  deriving DecidableEq

/-- `stdout` and `connfd` are the connections behind descriptor 1 and the variable, when they are open on one.
`parent` is `none` for a process that `init` waits for. -/
structure Proc where
  phase : Phase
  parent : Option ℕ
  stdout : Option ℕ
  connfd : Option ℕ
  pending : Bool
  handling : Bool
  deriving DecidableEq

def Proc.unborn : Proc := ⟨.gone, none, none, none, false, false⟩

/-- `next` processes were made, and `connections` were accepted. -/
structure World where
  procs : ℕ → Proc
  next : ℕ
  connections : ℕ

def World.put (w : World) (k : ℕ) (p : Proc) : World := { w with procs := Function.update w.procs k p }

def World.exit (w : World) (k : ℕ) : World :=
  { w with procs := fun j =>
      let p := w.procs j
      if j = k then { Proc.unborn with phase := if p.parent = none then .gone else .zombie, parent := p.parent }
      else if p.parent = some k then { p with parent := none, phase := if p.phase = .zombie then .gone else p.phase }
      else if (w.procs k).parent = some j then { p with pending := true }
      else p }

def World.Waits (w : World) (k m : ℕ) : Prop := (w.procs m).phase = .zombie ∧ (w.procs m).parent = some k

instance (w : World) (k m : ℕ) : Decidable (w.Waits k m) := inferInstanceAs (Decidable (_ ∧ _))

/-- `succeeds` is whether the call does; `m` is the process that `waitpid` finds. -/
inductive Action where
  | accept (k : ℕ) (succeeds : Bool)
  | fork (k : ℕ) (succeeds : Bool)
  | exec (k : ℕ) (succeeds : Bool)
  | close (k : ℕ)
  | exits (k : ℕ)
  | deliver (k : ℕ)
  | reap (k m : ℕ)

/-- While the handler of a process runs, its loop stands still, and SIGCHLD is blocked. -/
def lab5 : Machine World Action Unit where
  step w e :=
    let stay := (w, ())
    match e with
    | .accept k succeeds =>
      let p := w.procs k
      if p.phase = .accepting ∧ p.handling = false then
        if succeeds then
          ({ w.put k { p with phase := .forking, connfd := some w.connections } with
            connections := w.connections + 1 }, ())
        else (w.exit k, ())
      else stay
    | .fork k succeeds =>
      let p := w.procs k
      if p.phase = .forking ∧ p.handling = false then
        if succeeds then
          ({ (w.put k { p with phase := .parting }).put w.next ⟨.newborn, some k, p.stdout, p.connfd, false, false⟩ with
            next := w.next + 1 }, ())
        else (w.exit k, ())
      else stay
    | .exec k succeeds =>
      let p := w.procs k
      if p.phase = .newborn then
        -- when `execl` returns, the child goes on behind the `if`, as the server does
        (w.put k { p with stdout := p.connfd, connfd := none, phase := if succeeds then .program else .parting }, ())
      else stay
    | .close k =>
      let p := w.procs k
      if p.phase = .parting ∧ p.handling = false then (w.put k { p with connfd := none, phase := .accepting }, ())
      else stay
    | .exits k => if (w.procs k).phase = .program then (w.exit k, ()) else stay
    | .deliver k =>
      let p := w.procs k
      if p.pending = true ∧ p.handling = false then (w.put k { p with pending := false, handling := true }, ()) else stay
    | .reap k m =>
      let p := w.procs k
      if p.handling = true then
        if w.Waits k m then (w.put m Proc.unborn, ())
        else if ∀ j < w.next, ¬ w.Waits k j then (w.put k { p with handling := false }, ())
        else stay
      else stay

def start : World where
  procs k := if k = 0 then { Proc.unborn with phase := .accepting } else Proc.unborn
  next := 1
  connections := 0

abbrev after (es : List Action) : World := lab5.run start es

inductive Stepped (w w' : World) : Prop
  | stays (same : w' = w)
  | accepts (k : ℕ) (phase : (w.procs k).phase = .accepting)
      (post : w' = { w.put k { w.procs k with phase := .forking, connfd := some w.connections } with
        connections := w.connections + 1 })
  | forks (k : ℕ) (phase : (w.procs k).phase = .forking)
      (post : w' = { (w.put k { w.procs k with phase := .parting }).put w.next
        ⟨.newborn, some k, (w.procs k).stdout, (w.procs k).connfd, false, false⟩ with next := w.next + 1 })
  | execs (k : ℕ) (phase' : Phase) (phase : (w.procs k).phase = .newborn)
      (goes : phase' = .program ∨ phase' = .parting)
      (post : w' = w.put k { w.procs k with stdout := (w.procs k).connfd, connfd := none, phase := phase' })
  | closes (k : ℕ) (phase : (w.procs k).phase = .parting)
      (post : w' = w.put k { w.procs k with connfd := none, phase := .accepting })
  | exits (k : ℕ) (phase : (w.procs k).phase = .accepting ∨ (w.procs k).phase = .forking ∨
      (w.procs k).phase = .program) (post : w' = w.exit k)
  | delivers (k : ℕ) (pending : (w.procs k).pending = true)
      (post : w' = w.put k { w.procs k with pending := false, handling := true })
  | reaps (k m : ℕ) (waits : w.Waits k m) (post : w' = w.put m Proc.unborn)
  | returns (k : ℕ) (handling : (w.procs k).handling = true) (none_ : ∀ j < w.next, ¬ w.Waits k j)
      (post : w' = w.put k { w.procs k with handling := false })

theorem lab5_stepped (w : World) (e : Action) : Stepped w (lab5.step w e).1 := by
  cases e with
  | accept k succeeds =>
    by_cases h : (w.procs k).phase = .accepting ∧ (w.procs k).handling = false
    · cases succeeds with
      | true => exact .accepts k h.1 (by simp [lab5, h])
      | false => exact .exits k (Or.inl h.1) (by simp [lab5, h])
    · exact .stays (by simp only [lab5, h, ↓reduceIte])
  | fork k succeeds =>
    by_cases h : (w.procs k).phase = .forking ∧ (w.procs k).handling = false
    · cases succeeds with
      | true => exact .forks k h.1 (by simp [lab5, h])
      | false => exact .exits k (Or.inr (Or.inl h.1)) (by simp [lab5, h])
    · exact .stays (by simp only [lab5, h, ↓reduceIte])
  | exec k succeeds =>
    by_cases h : (w.procs k).phase = .newborn
    · refine .execs k (if succeeds then .program else .parting) h ?_ (by simp [lab5, h])
      cases succeeds with
      | true => exact Or.inl rfl
      | false => exact Or.inr rfl
    · exact .stays (by simp only [lab5, h, ↓reduceIte])
  | close k =>
    by_cases h : (w.procs k).phase = .parting ∧ (w.procs k).handling = false
    · exact .closes k h.1 (by simp [lab5, h])
    · exact .stays (by simp only [lab5, h, ↓reduceIte])
  | exits k =>
    by_cases h : (w.procs k).phase = .program
    · exact .exits k (Or.inr (Or.inr h)) (by simp [lab5, h])
    · exact .stays (by simp only [lab5, h, ↓reduceIte])
  | deliver k =>
    by_cases h : (w.procs k).pending = true ∧ (w.procs k).handling = false
    · exact .delivers k h.1 (by simp [lab5, h])
    · exact .stays (by simp only [lab5, h, ↓reduceIte])
  | reap k m =>
    by_cases h : (w.procs k).handling = true
    · by_cases hm : w.Waits k m
      · exact .reaps k m hm (by simp [lab5, h, hm])
      · by_cases hnone : ∀ j < w.next, ¬ w.Waits k j
        · exact .returns k h hnone (by simp only [lab5, h, hm, ↓reduceIte, if_pos hnone])
        · exact .stays (by simp only [lab5, h, hm, ↓reduceIte, if_neg hnone])
    · exact .stays (by simp only [lab5, h, ↓reduceIte, Bool.false_eq_true])

section Put

variable (w : World) {j k : ℕ} (p : Proc)

theorem put_self : (w.put k p).procs k = p := Function.update_self ..

theorem put_other (h : j ≠ k) : (w.put k p).procs j = w.procs j := Function.update_of_ne h ..

theorem exit_self : (w.exit k).procs k =
    { Proc.unborn with phase := if (w.procs k).parent = none then .gone else .zombie, parent := (w.procs k).parent } :=
  if_pos rfl

theorem exit_child (hj : j ≠ k) (h : (w.procs j).parent = some k) : (w.exit k).procs j =
    { w.procs j with parent := none, phase := if (w.procs j).phase = .zombie then .gone else (w.procs j).phase } := by
  rw [World.exit]
  simp only [hj, h, ↓reduceIte]

theorem exit_parent (hj : j ≠ k) (h : (w.procs j).parent ≠ some k) (hparent : (w.procs k).parent = some j) :
    (w.exit k).procs j = { w.procs j with pending := true } := by
  rw [World.exit]
  simp only [hj, h, hparent, ↓reduceIte]

theorem exit_other (hj : j ≠ k) (h : (w.procs j).parent ≠ some k) (hparent : (w.procs k).parent ≠ some j) :
    (w.exit k).procs j = w.procs j := by
  rw [World.exit]
  simp only [hj, h, hparent, ↓reduceIte]

end Put

def Phase.Serves (p : Phase) : Prop := p = .accepting ∨ p = .forking ∨ p = .parting

structure Kin (w : World) : Prop where
  unborn : ∀ k, w.next ≤ k → w.procs k = Proc.unborn
  older : ∀ k j, (w.procs k).parent = some j → j < k
  serves : ∀ k j, (w.procs k).parent = some j → (w.procs j).phase.Serves
  ended : ∀ k, (w.procs k).phase = .zombie ∨ (w.procs k).phase = .gone →
    (w.procs k).stdout = none ∧ (w.procs k).connfd = none
  owed : ∀ k, (w.procs k).phase = .zombie → ∃ j, (w.procs k).parent = some j ∧
    ((w.procs j).pending = true ∨ (w.procs j).handling = true)

theorem kin_start : Kin start := by
  have hparent (k : ℕ) : (start.procs k).parent = none := by
    simp only [start]
    split_ifs
    · rfl
    · rfl
  refine ⟨fun k hk => if_neg (Nat.ne_of_gt hk), ?_, ?_, fun k _ => ?_, fun k hk => ?_⟩
  · intro k j hj
    rw [hparent] at hj
    cases hj
  · intro k j hj
    rw [hparent] at hj
    cases hj
  · simp only [start]
    split_ifs
    · exact ⟨rfl, rfl⟩
    · exact ⟨rfl, rfl⟩
  · simp only [start] at hk
    by_cases h : k = 0
    · rw [if_pos h] at hk
      cases hk
    · rw [if_neg h] at hk
      cases hk

section Kin

variable {w : World} {k : ℕ}

theorem Kin.born (h : Kin w) (hk : w.procs k ≠ Proc.unborn) : k < w.next := by
  by_contra hge
  exact hk (h.unborn k (not_lt.mp hge))

theorem Kin.born_of_phase (h : Kin w) (hk : (w.procs k).phase ≠ .gone) : k < w.next := by
  apply h.born
  intro hunborn
  rw [hunborn] at hk
  exact hk rfl

theorem Kin.put (h : Kin w) {p : Proc} (hk : k < w.next) (hparent : p.parent = (w.procs k).parent)
    (hserves : (w.procs k).phase.Serves → p.phase.Serves)
    (hended : p.phase = .zombie ∨ p.phase = .gone → p.stdout = none ∧ p.connfd = none)
    (hzombie : p.phase = .zombie → (w.procs k).phase = .zombie)
    (howed : (∃ m, w.Waits k m) → p.pending = true ∨ p.handling = true) : Kin (w.put k p) := by
  obtain ⟨unborn, older, serves, ended, owed⟩ := h
  have hparents (j : ℕ) : ((w.put k p).procs j).parent = (w.procs j).parent := by
    by_cases hj : j = k
    · rw [hj, put_self, hparent]
    · rw [put_other _ _ hj]
  have hphase {j : ℕ} (hj : ((w.put k p).procs j).phase = .zombie) : (w.procs j).phase = .zombie := by
    by_cases hjk : j = k
    · rw [hjk, put_self] at hj
      rw [hjk]
      exact hzombie hj
    · rwa [put_other _ _ hjk] at hj
  refine ⟨fun j hj => ?_, fun j i hi => ?_, fun j i hi => ?_, fun j hj => ?_, fun j hj => ?_⟩
  · change w.next ≤ j at hj
    rw [put_other _ _ (by omega)]
    exact unborn j hj
  · rw [hparents] at hi
    exact older j i hi
  · rw [hparents] at hi
    by_cases hik : i = k
    · rw [hik, put_self]
      exact hserves (hik ▸ serves j i hi)
    · rw [put_other _ _ hik]
      exact serves j i hi
  · by_cases hjk : j = k
    · rw [hjk, put_self] at hj ⊢
      exact hended hj
    · rw [put_other _ _ hjk] at hj ⊢
      exact ended j hj
  · obtain ⟨i, hi, hsignal⟩ := owed j (hphase hj)
    refine ⟨i, (hparents j).trans hi, ?_⟩
    by_cases hik : i = k
    · rw [hik, put_self]
      exact howed ⟨j, hphase hj, hik ▸ hi⟩
    · rw [put_other _ _ hik]
      exact hsignal

theorem Kin.fork (h : Kin w) (hserves : (w.procs k).phase.Serves) (stdout connfd : Option ℕ) :
    Kin { w.put w.next ⟨.newborn, some k, stdout, connfd, false, false⟩ with next := w.next + 1 } := by
  have hk : k < w.next := by
    apply h.born_of_phase
    rcases hserves with hs | hs | hs <;> simp [hs]
  obtain ⟨unborn, older, serves, ended, owed⟩ := h
  have hlt {j i : ℕ} (hi : (w.procs j).parent = some i) : i < w.next := by
    by_contra hge
    have hs := serves j i hi
    rw [unborn i (not_lt.mp hge)] at hs
    rcases hs with hs | hs | hs <;> cases hs
  refine ⟨fun j hj => ?_, fun j i hi => ?_, fun j i hi => ?_, fun j hj => ?_, fun j hj => ?_⟩
  · change w.next + 1 ≤ j at hj
    change (w.put w.next _).procs j = _
    rw [put_other _ _ (by omega)]
    exact unborn j (by omega)
  · change ((w.put w.next _).procs j).parent = _ at hi
    by_cases hj : j = w.next
    · rw [hj, put_self] at hi
      injection hi with hi
      omega
    · rw [put_other _ _ hj] at hi
      exact older j i hi
  · change ((w.put w.next _).procs j).parent = _ at hi
    change ((w.put w.next _).procs i).phase.Serves
    by_cases hj : j = w.next
    · rw [hj, put_self] at hi
      injection hi with hi
      rw [put_other _ _ (by omega), ← hi]
      exact hserves
    · rw [put_other _ _ hj] at hi
      have hi' := hlt hi
      rw [put_other _ _ (by omega)]
      exact serves j i hi
  · change ((w.put w.next _).procs j).phase = _ ∨ ((w.put w.next _).procs j).phase = _ at hj
    change ((w.put w.next _).procs j).stdout = _ ∧ ((w.put w.next _).procs j).connfd = _
    by_cases hjn : j = w.next
    · rw [hjn, put_self] at hj
      rcases hj with hj | hj <;> cases hj
    · rw [put_other _ _ hjn] at hj ⊢
      exact ended j hj
  · change ((w.put w.next _).procs j).phase = _ at hj
    by_cases hjn : j = w.next
    · rw [hjn, put_self] at hj
      cases hj
    · rw [put_other _ _ hjn] at hj
      obtain ⟨i, hi, hsignal⟩ := owed j hj
      have hi' := hlt hi
      refine ⟨i, ?_, ?_⟩
      · change ((w.put w.next _).procs j).parent = _
        rw [put_other _ _ hjn]
        exact hi
      · change ((w.put w.next _).procs i).pending = _ ∨ ((w.put w.next _).procs i).handling = _
        rw [put_other _ _ (by omega)]
        exact hsignal

theorem exit_parent_eq (w : World) {j k i : ℕ} (hj : j ≠ k) (hi : ((w.exit k).procs j).parent = some i) :
    (w.procs j).parent = some i ∧ i ≠ k := by
  by_cases hchild : (w.procs j).parent = some k
  · rw [exit_child w hj hchild] at hi
    cases hi
  · by_cases hparent : (w.procs k).parent = some j
    · rw [exit_parent w hj hchild hparent] at hi
      exact ⟨hi, fun hik => hchild (hik ▸ hi)⟩
    · rw [exit_other w hj hchild hparent] at hi
      exact ⟨hi, fun hik => hchild (hik ▸ hi)⟩

theorem exit_keeps (w : World) {j k : ℕ} (hj : j ≠ k) :
    ((w.exit k).procs j).stdout = (w.procs j).stdout ∧ ((w.exit k).procs j).connfd = (w.procs j).connfd ∧
      (((w.exit k).procs j).phase = (w.procs j).phase ∨
        ((w.procs j).phase = .zombie ∧ ((w.exit k).procs j).phase = .gone)) := by
  by_cases hchild : (w.procs j).parent = some k
  · rw [exit_child w hj hchild]
    by_cases hz : (w.procs j).phase = .zombie
    · exact ⟨rfl, rfl, Or.inr ⟨hz, if_pos hz⟩⟩
    · exact ⟨rfl, rfl, Or.inl (if_neg hz)⟩
  · by_cases hparent : (w.procs k).parent = some j
    · rw [exit_parent w hj hchild hparent]
      exact ⟨rfl, rfl, Or.inl rfl⟩
    · rw [exit_other w hj hchild hparent]
      exact ⟨rfl, rfl, Or.inl rfl⟩

theorem Kin.exit (h : Kin w) (hk : k < w.next) : Kin (w.exit k) := by
  obtain ⟨unborn, older, serves, ended, owed⟩ := h
  have hparent {j i : ℕ} (hi : ((w.exit k).procs j).parent = some i) : (w.procs j).parent = some i ∧ i ≠ k := by
    by_cases hj : j = k
    · rw [hj, exit_self] at hi
      have hlt := older k i hi
      exact ⟨hj ▸ hi, by omega⟩
    · exact exit_parent_eq w hj hi
  refine ⟨fun j hj => ?_, fun j i hi => older j i (hparent hi).1, fun j i hi => ?_, fun j hj => ?_, fun j hj => ?_⟩
  · change w.next ≤ j at hj
    have hjk : j ≠ k := by omega
    have hnot : (w.procs k).parent ≠ some j := by
      intro he
      have hlt := older k j he
      omega
    rw [exit_other w hjk (by simp [unborn j hj, Proc.unborn]) hnot]
    exact unborn j hj
  · obtain ⟨hi', hik⟩ := hparent hi
    have hs := serves j i hi'
    obtain ⟨-, -, hphase | ⟨hz, -⟩⟩ := exit_keeps w hik
    · rwa [hphase]
    · rw [hz] at hs
      rcases hs with hs | hs | hs <;> cases hs
  · by_cases hjk : j = k
    · rw [hjk, exit_self]
      exact ⟨rfl, rfl⟩
    · obtain ⟨hstdout, hconnfd, hphase | ⟨hz, -⟩⟩ := exit_keeps w hjk
      · rw [hphase] at hj
        rw [hstdout, hconnfd]
        exact ended j hj
      · rw [hstdout, hconnfd]
        exact ended j (Or.inl hz)
  · by_cases hjk : j = k
    · rw [hjk, exit_self] at hj
      cases hp : (w.procs k).parent with
      | none => simp [hp] at hj
      | some i =>
        have hlt := older k i hp
        have hi : (w.procs i).parent ≠ some k := by
          intro he
          have hlt' := older i k he
          omega
        refine ⟨i, ?_, Or.inl ?_⟩
        · rw [hjk, exit_self]
          exact hp
        · rw [exit_parent w (by omega) hi hp]
    · obtain ⟨-, -, hphase | ⟨-, hgone⟩⟩ := exit_keeps w hjk
      · rw [hphase] at hj
        obtain ⟨i, hi, hsignal⟩ := owed j hj
        by_cases hchild : (w.procs j).parent = some k
        · -- `init` has taken it
          rw [exit_child w hjk hchild] at hphase
          simp [hj] at hphase
        · have hik : i ≠ k := fun he => hchild (he ▸ hi)
          have hsame : ((w.exit k).procs j).parent = some i := by
            by_cases hpar : (w.procs k).parent = some j
            · rw [exit_parent w hjk hchild hpar]
              exact hi
            · rw [exit_other w hjk hchild hpar]
              exact hi
          refine ⟨i, hsame, ?_⟩
          by_cases hci : (w.procs i).parent = some k
          · rw [exit_child w hik hci]
            exact hsignal
          · by_cases hpi : (w.procs k).parent = some i
            · rw [exit_parent w hik hci hpi]
              exact Or.inl rfl
            · rw [exit_other w hik hci hpi]
              exact hsignal
      · rw [hgone] at hj
        cases hj

theorem Kin.reap (h : Kin w) {m : ℕ} (hm : w.Waits k m) : Kin (w.put m Proc.unborn) := by
  obtain ⟨unborn, older, serves, ended, owed⟩ := h
  have hne {j i : ℕ} (hi : (w.procs j).parent = some i) : i ≠ m := by
    rintro rfl
    have hs := serves j i hi
    rw [hm.1] at hs
    rcases hs with hs | hs | hs <;> cases hs
  refine ⟨fun j hj => ?_, fun j i hi => ?_, fun j i hi => ?_, fun j hj => ?_, fun j hj => ?_⟩
  · by_cases hjm : j = m
    · rw [hjm, put_self]
    · rw [put_other _ _ hjm]
      exact unborn j hj
  · by_cases hjm : j = m
    · rw [hjm, put_self] at hi
      cases hi
    · rw [put_other _ _ hjm] at hi
      exact older j i hi
  · by_cases hjm : j = m
    · rw [hjm, put_self] at hi
      cases hi
    · rw [put_other _ _ hjm] at hi
      rw [put_other _ _ (hne hi)]
      exact serves j i hi
  · by_cases hjm : j = m
    · rw [hjm, put_self]
      exact ⟨rfl, rfl⟩
    · rw [put_other _ _ hjm] at hj ⊢
      exact ended j hj
  · by_cases hjm : j = m
    · rw [hjm, put_self] at hj
      cases hj
    · rw [put_other _ _ hjm] at hj
      obtain ⟨i, hi, hsignal⟩ := owed j hj
      refine ⟨i, ?_, ?_⟩
      · rw [put_other _ _ hjm]
        exact hi
      · rw [put_other _ _ (hne hi)]
        exact hsignal

theorem Kin.signalled (h : Kin w) (hm : ∃ m, w.Waits k m) :
    (w.procs k).pending = true ∨ (w.procs k).handling = true := by
  obtain ⟨m, hz, hm⟩ := hm
  obtain ⟨i, hi, hsignal⟩ := h.owed m hz
  rw [hm] at hi
  injection hi with hi
  rwa [hi]

theorem Kin.not_waits (h : Kin w) (hk : ¬ (w.procs k).phase.Serves) : ¬ ∃ m, w.Waits k m :=
  fun ⟨m, hm⟩ => hk (h.serves m k hm.2)

theorem kin_step (h : Kin w) {w' : World} (hs : Stepped w w') : Kin w' := by
  cases hs with
  | stays same => rwa [same]
  | accepts k phase post =>
    have hk : k < w.next := h.born_of_phase (by simp [phase])
    have hput : Kin (w.put k { w.procs k with phase := .forking, connfd := some w.connections }) := by
      apply h.put hk
      · rfl
      · intro
        exact Or.inr (Or.inl rfl)
      · rintro (hp | hp) <;> cases hp
      · intro hp
        cases hp
      · exact h.signalled
    rw [post]
    exact ⟨hput.unborn, hput.older, hput.serves, hput.ended, hput.owed⟩
  | forks k phase post =>
    have hk : k < w.next := h.born_of_phase (by simp [phase])
    have hput : Kin (w.put k { w.procs k with phase := .parting }) := by
      apply h.put hk
      · rfl
      · intro
        exact Or.inr (Or.inr rfl)
      · rintro (hp | hp) <;> cases hp
      · intro hp
        cases hp
      · exact h.signalled
    have hserves : ((w.put k { w.procs k with phase := .parting }).procs k).phase.Serves := by
      rw [put_self]
      exact Or.inr (Or.inr rfl)
    rw [post]
    exact hput.fork hserves _ _
  | execs k phase' phase goes post =>
    have hk : k < w.next := h.born_of_phase (by simp [phase])
    have hnot : ¬ (w.procs k).phase.Serves := by
      rw [phase]
      rintro (hp | hp | hp) <;> cases hp
    have hphase' : phase' ≠ .zombie ∧ phase' ≠ .gone := by rcases goes with rfl | rfl <;> simp
    rw [post]
    apply h.put hk
    · rfl
    · intro hp
      exact absurd hp hnot
    · rintro (hp | hp)
      · exact absurd hp hphase'.1
      · exact absurd hp hphase'.2
    · intro hp
      exact absurd hp hphase'.1
    · intro hm
      exact absurd hm (h.not_waits hnot)
  | closes k phase post =>
    have hk : k < w.next := h.born_of_phase (by simp [phase])
    rw [post]
    apply h.put hk
    · rfl
    · intro
      exact Or.inl rfl
    · rintro (hp | hp) <;> cases hp
    · intro hp
      cases hp
    · exact h.signalled
  | exits k phase post =>
    rw [post]
    apply h.exit
    apply h.born_of_phase
    rcases phase with hp | hp | hp <;> simp [hp]
  | delivers k pending post =>
    have hk : k < w.next := by
      apply h.born
      intro hu
      rw [hu] at pending
      cases pending
    rw [post]
    apply h.put hk
    · rfl
    · exact id
    · exact h.ended k
    · exact id
    · intro
      exact Or.inr rfl
  | reaps k m waits post =>
    rw [post]
    exact h.reap waits
  | returns k handling none_ post =>
    have hk : k < w.next := by
      apply h.born
      intro hu
      rw [hu] at handling
      cases handling
    rw [post]
    apply h.put hk
    · rfl
    · exact id
    · exact h.ended k
    · exact id
    · rintro ⟨m, hm⟩
      have hmn : m < w.next := h.born_of_phase (by simp [hm.1])
      exact absurd hm (none_ m hmn)

end Kin

structure Sockets (w : World) : Prop where
  made : ∀ k n, (w.procs k).stdout = some n ∨ (w.procs k).connfd = some n → n < w.connections
  held : ∀ k n, (w.procs k).connfd = some n →
    (w.procs k).phase = .forking ∨ (w.procs k).phase = .parting ∨ (w.procs k).phase = .newborn
  outs : ∀ j k n, (w.procs j).phase ≠ .newborn → (w.procs k).phase ≠ .newborn →
    (w.procs j).stdout = some n → (w.procs k).stdout = some n → j = k
  conns : ∀ j k n, ((w.procs j).phase = .newborn ↔ (w.procs k).phase = .newborn) →
    (w.procs j).connfd = some n → (w.procs k).connfd = some n → j = k
  fresh : ∀ k n, (w.procs k).phase ≠ .parting → (w.procs k).connfd = some n → ∀ j, (w.procs j).stdout ≠ some n
  first : ∀ k n, (w.procs k).phase = .forking → (w.procs k).connfd = some n →
    ∀ j, (w.procs j).phase = .newborn → (w.procs j).connfd ≠ some n
  alone : ∀ k n, (w.procs k).phase = .program → (w.procs k).stdout = some n →
    ∀ j, (w.procs j).phase = .newborn → (w.procs j).stdout ≠ some n

theorem sockets_start : Sockets start := by
  have hnone (k : ℕ) : (start.procs k).stdout = none ∧ (start.procs k).connfd = none := by
    simp only [start]
    split_ifs
    · exact ⟨rfl, rfl⟩
    · exact ⟨rfl, rfl⟩
  constructor
  · intro k n hn
    rw [(hnone k).1, (hnone k).2] at hn
    rcases hn with hn | hn <;> cases hn
  · intro k n hn
    rw [(hnone k).2] at hn
    cases hn
  · intro j k n _ _ hn
    rw [(hnone j).1] at hn
    cases hn
  · intro j k n _ hn
    rw [(hnone j).2] at hn
    cases hn
  · intro k n _ hn
    rw [(hnone k).2] at hn
    cases hn
  · intro k n _ hn
    rw [(hnone k).2] at hn
    cases hn
  · intro k n _ hn
    rw [(hnone k).1] at hn
    cases hn

theorem Sockets.fewer {w w' : World} (h : Sockets w) (hconnections : w'.connections = w.connections)
    (hstdout : ∀ k, (w'.procs k).stdout = (w.procs k).stdout ∨ (w'.procs k).stdout = none)
    (hconnfd : ∀ k, (w'.procs k).connfd = (w.procs k).connfd ∨ (w'.procs k).connfd = none)
    (hphase : ∀ k, (w'.procs k).phase = (w.procs k).phase ∨ ((w'.procs k).connfd = none ∧
      (w.procs k).phase ≠ .newborn ∧ (w'.procs k).phase ≠ .newborn ∧ (w'.procs k).phase ≠ .program)) :
    Sockets w' := by
  have hstdout' {k n : ℕ} (hn : (w'.procs k).stdout = some n) : (w.procs k).stdout = some n := by
    rcases hstdout k with hk | hk
    · rwa [hk] at hn
    · rw [hk] at hn
      cases hn
  have hconnfd' {k n : ℕ} (hn : (w'.procs k).connfd = some n) :
      (w.procs k).connfd = some n ∧ (w'.procs k).phase = (w.procs k).phase := by
    constructor
    · rcases hconnfd k with hk | hk
      · rwa [hk] at hn
      · rw [hk] at hn
        cases hn
    · rcases hphase k with hk | ⟨hk, -⟩
      · exact hk
      · rw [hk] at hn
        cases hn
  have hnewborn (k : ℕ) : (w'.procs k).phase = .newborn ↔ (w.procs k).phase = .newborn := by
    rcases hphase k with hk | ⟨-, hk, hk', -⟩
    · rw [hk]
    · exact ⟨fun hp => absurd hp hk', fun hp => absurd hp hk⟩
  obtain ⟨made, held, outs, conns, fresh, first, alone⟩ := h
  constructor
  · intro k n hn
    rw [hconnections]
    exact made k n (hn.imp hstdout' fun hc => (hconnfd' hc).1)
  · intro k n hn
    rw [(hconnfd' hn).2]
    exact held k n (hconnfd' hn).1
  · intro j k n hj hk hnj hnk
    rw [Ne, hnewborn] at hj hk
    exact outs j k n hj hk (hstdout' hnj) (hstdout' hnk)
  · intro j k n hjk hnj hnk
    rw [hnewborn, hnewborn] at hjk
    exact conns j k n hjk (hconnfd' hnj).1 (hconnfd' hnk).1
  · intro k n hk hn j hnj
    rw [(hconnfd' hn).2] at hk
    exact fresh k n hk (hconnfd' hn).1 j (hstdout' hnj)
  · intro k n hk hn j hj hnj
    rw [(hconnfd' hn).2] at hk
    rw [hnewborn] at hj
    exact first k n hk (hconnfd' hn).1 j hj (hconnfd' hnj).1
  · intro k n hk hn j hj hnj
    rw [hnewborn] at hj
    rcases hphase k with hp | ⟨-, -, -, hp⟩
    · rw [hp] at hk
      exact alone k n hk (hstdout' hn) j hj (hstdout' hnj)
    · exact hp hk

theorem Sockets.accept {w : World} {k : ℕ} (h : Sockets w) (hk : (w.procs k).phase = .accepting) :
    Sockets { w.put k { w.procs k with phase := .forking, connfd := some w.connections } with
      connections := w.connections + 1 } := by
  set p : Proc := { w.procs k with phase := .forking, connfd := some w.connections }
  have hself : (w.put k p).procs k = p := put_self w p
  have hother {j : ℕ} (hj : j ≠ k) : (w.put k p).procs j = w.procs j := put_other w p hj
  have hstdout (j : ℕ) : ((w.put k p).procs j).stdout = (w.procs j).stdout := by
    by_cases hj : j = k
    · rw [hj, hself]
    · rw [hother hj]
  have hnewborn (j : ℕ) : ((w.put k p).procs j).phase = .newborn ↔ (w.procs j).phase = .newborn := by
    by_cases hj : j = k
    · rw [hj, hself, hk]
      exact ⟨fun hp => (by cases hp), fun hp => (by cases hp)⟩
    · rw [hother hj]
  obtain ⟨made, held, outs, conns, fresh, first, alone⟩ := h
  have hnew {n : ℕ} {j : ℕ} (hj : j ≠ k) (hn : ((w.put k p).procs j).connfd = some n) : n < w.connections := by
    rw [hother hj] at hn
    exact made j n (Or.inr hn)
  have hown {n : ℕ} (hn : ((w.put k p).procs k).connfd = some n) : n = w.connections := by
    rw [hself] at hn
    injection hn with hn
    exact hn.symm
  constructor
  · intro j n hn
    change n < w.connections + 1
    rcases hn with hn | hn
    · have hn' := made j n (Or.inl ((hstdout j).symm.trans hn))
      omega
    · by_cases hj : j = k
      · have hn' := hown (hj ▸ hn)
        omega
      · have hn' := hnew hj hn
        omega
  · intro j n hn
    change ((w.put k p).procs j).connfd = _ at hn
    change ((w.put k p).procs j).phase = _ ∨ ((w.put k p).procs j).phase = _ ∨ ((w.put k p).procs j).phase = _
    by_cases hj : j = k
    · rw [hj, hself]
      exact Or.inl rfl
    · rw [hother hj] at hn ⊢
      exact held j n hn
  · intro j i n hj hi hnj hni
    exact outs j i n (mt (hnewborn j).mpr hj) (mt (hnewborn i).mpr hi) ((hstdout j).symm.trans hnj)
      ((hstdout i).symm.trans hni)
  · intro j i n hji hnj hni
    by_cases hj : j = k
    · by_cases hi : i = k
      · rw [hj, hi]
      · have hnj' := hown (hj ▸ hnj)
        have hni' := hnew hi hni
        omega
    · by_cases hi : i = k
      · have hnj' := hnew hj hnj
        have hni' := hown (hi ▸ hni)
        omega
      · apply conns j i n
        · exact (hnewborn j).symm.trans (hji.trans (hnewborn i))
        · exact (congrArg Proc.connfd (hother hj)).symm.trans hnj
        · exact (congrArg Proc.connfd (hother hi)).symm.trans hni
  · intro j n hphase hn i hni
    have hni' : (w.procs i).stdout = some n := (hstdout i).symm.trans hni
    by_cases hj : j = k
    · have hlt := made i n (Or.inl hni')
      have hn' := hown (hj ▸ hn)
      omega
    · change ((w.put k p).procs j).phase ≠ _ at hphase
      change ((w.put k p).procs j).connfd = _ at hn
      rw [hother hj] at hphase hn
      exact fresh j n hphase hn i hni'
  · intro j n hphase hn i hi hni
    have hik : i ≠ k := by
      rintro rfl
      change ((w.put i p).procs i).phase = _ at hi
      rw [hself] at hi
      cases hi
    have hni' := hnew hik hni
    by_cases hj : j = k
    · have hn' := hown (hj ▸ hn)
      omega
    · change ((w.put k p).procs j).phase = _ at hphase
      change ((w.put k p).procs j).connfd = _ at hn
      rw [hother hj] at hphase hn
      exact first j n hphase hn i ((hnewborn i).mp hi) ((congrArg Proc.connfd (hother hik)).symm.trans hni)
  · intro j n hphase hn i hi hni
    have hj : j ≠ k := by
      rintro rfl
      change ((w.put j p).procs j).phase = _ at hphase
      rw [hself] at hphase
      cases hphase
    change ((w.put k p).procs j).phase = _ at hphase
    rw [hother hj] at hphase
    exact alone j n hphase ((hstdout j).symm.trans hn) i ((hnewborn i).mp hi) ((hstdout i).symm.trans hni)

theorem Sockets.fork {w : World} {k : ℕ} (h : Sockets w) (hk : (w.procs k).phase = .forking)
    (hunborn : w.procs w.next = Proc.unborn) :
    Sockets { (w.put k { w.procs k with phase := .parting }).put w.next
      ⟨.newborn, some k, (w.procs k).stdout, (w.procs k).connfd, false, false⟩ with next := w.next + 1 } := by
  set p : Proc := { w.procs k with phase := .parting }
  set c : Proc := ⟨.newborn, some k, (w.procs k).stdout, (w.procs k).connfd, false, false⟩
  have hkn : k ≠ w.next := by
    rintro rfl
    rw [hunborn] at hk
    cases hk
  have hchild : ((w.put k p).put w.next c).procs w.next = c := put_self _ c
  have hself : ((w.put k p).put w.next c).procs k = p := (put_other _ c hkn).trans (put_self w p)
  have hother {j : ℕ} (hj : j ≠ k) (hjn : j ≠ w.next) : ((w.put k p).put w.next c).procs j = w.procs j :=
    (put_other _ c hjn).trans (put_other w p hj)
  -- what a process that is not the child has was there before
  have hold {j : ℕ} (hjn : j ≠ w.next) :
      (((w.put k p).put w.next c).procs j).stdout = (w.procs j).stdout ∧
        (((w.put k p).put w.next c).procs j).connfd = (w.procs j).connfd ∧
        ((((w.put k p).put w.next c).procs j).phase = .newborn ↔ (w.procs j).phase = .newborn) := by
    by_cases hj : j = k
    · rw [hj, hself, hk]
      exact ⟨rfl, rfl, fun hp => (by cases hp), fun hp => (by cases hp)⟩
    · rw [hother hj hjn]
      exact ⟨rfl, rfl, Iff.rfl⟩
  obtain ⟨made, held, outs, conns, fresh, first, alone⟩ := h
  constructor
  · intro j n hn
    change (((w.put k p).put w.next c).procs j).stdout = _ ∨ (((w.put k p).put w.next c).procs j).connfd = _ at hn
    by_cases hjn : j = w.next
    · rw [hjn, hchild] at hn
      exact made k n hn
    · rw [(hold hjn).1, (hold hjn).2.1] at hn
      exact made j n hn
  · intro j n hn
    change (((w.put k p).put w.next c).procs j).connfd = _ at hn
    change (((w.put k p).put w.next c).procs j).phase = _ ∨ (((w.put k p).put w.next c).procs j).phase = _ ∨
      (((w.put k p).put w.next c).procs j).phase = _
    by_cases hjn : j = w.next
    · rw [hjn, hchild]
      exact Or.inr (Or.inr rfl)
    · by_cases hj : j = k
      · rw [hj, hself]
        exact Or.inr (Or.inl rfl)
      · rw [hother hj hjn] at hn ⊢
        exact held j n hn
  · intro j i n hj hi hnj hni
    have hjn : j ≠ w.next := by
      rintro rfl
      exact hj (congrArg Proc.phase hchild)
    have hin : i ≠ w.next := by
      rintro rfl
      exact hi (congrArg Proc.phase hchild)
    exact outs j i n (mt (hold hjn).2.2.mpr hj) (mt (hold hin).2.2.mpr hi) ((hold hjn).1.symm.trans hnj)
      ((hold hin).1.symm.trans hni)
  · intro j i n hji hnj hni
    change (((w.put k p).put w.next c).procs j).phase = _ ↔ (((w.put k p).put w.next c).procs i).phase = _ at hji
    change (((w.put k p).put w.next c).procs j).connfd = _ at hnj
    change (((w.put k p).put w.next c).procs i).connfd = _ at hni
    by_cases hjn : j = w.next
    · by_cases hin : i = w.next
      · rw [hjn, hin]
      · rw [hjn, hchild, (hold hin).2.2] at hji
        rw [hjn, hchild] at hnj
        rw [(hold hin).2.1] at hni
        exact absurd hni (first k n hk hnj i (hji.mp rfl))
    · by_cases hin : i = w.next
      · rw [hin, hchild, (hold hjn).2.2] at hji
        rw [hin, hchild] at hni
        rw [(hold hjn).2.1] at hnj
        exact absurd hnj (first k n hk hni j (hji.mpr rfl))
      · rw [(hold hjn).2.2, (hold hin).2.2] at hji
        exact conns j i n hji ((hold hjn).2.1.symm.trans hnj) ((hold hin).2.1.symm.trans hni)
  · intro j n hphase hn i hni
    have hni' : ∃ i', (w.procs i').stdout = some n := by
      by_cases hin : i = w.next
      · change (((w.put k p).put w.next c).procs i).stdout = _ at hni
        rw [hin, hchild] at hni
        exact ⟨k, hni⟩
      · exact ⟨i, (hold hin).1.symm.trans hni⟩
    obtain ⟨i', hni'⟩ := hni'
    change (((w.put k p).put w.next c).procs j).phase ≠ _ at hphase
    change (((w.put k p).put w.next c).procs j).connfd = _ at hn
    by_cases hjn : j = w.next
    · rw [hjn, hchild] at hn
      exact fresh k n (by simp [hk]) hn i' hni'
    · by_cases hj : j = k
      · rw [hj, hself] at hphase
        exact hphase rfl
      · rw [hother hj hjn] at hphase hn
        exact fresh j n hphase hn i' hni'
  · intro j n hphase hn i hi hni
    change (((w.put k p).put w.next c).procs j).phase = _ at hphase
    change (((w.put k p).put w.next c).procs j).connfd = _ at hn
    have hjn : j ≠ w.next := by
      rintro rfl
      rw [hchild] at hphase
      cases hphase
    have hj : j ≠ k := by
      rintro rfl
      rw [hself] at hphase
      cases hphase
    rw [hother hj hjn] at hphase hn
    by_cases hin : i = w.next
    · -- two of the servers wait at `fork`
      have hni' : (w.procs k).connfd = some n := by
        change (((w.put k p).put w.next c).procs i).connfd = _ at hni
        rwa [hin, hchild] at hni
      have hboth : (w.procs j).phase = .newborn ↔ (w.procs k).phase = .newborn := by rw [hphase, hk]
      exact hj (conns j k n hboth hn hni')
    · exact first j n hphase hn i ((hold hin).2.2.mp hi) ((hold hin).2.1.symm.trans hni)
  · intro j n hphase hn i hi hni
    change (((w.put k p).put w.next c).procs j).phase = _ at hphase
    have hjn : j ≠ w.next := by
      rintro rfl
      rw [hchild] at hphase
      cases hphase
    have hj : j ≠ k := by
      rintro rfl
      rw [hself] at hphase
      cases hphase
    rw [hother hj hjn] at hphase
    have hn' := (hold hjn).1.symm.trans hn
    by_cases hin : i = w.next
    · have hni' : (w.procs k).stdout = some n := by
        change (((w.put k p).put w.next c).procs i).stdout = _ at hni
        rwa [hin, hchild] at hni
      exact hj (outs j k n (by simp [hphase]) (by simp [hk]) hn' hni')
    · exact alone j n hphase hn' i ((hold hin).2.2.mp hi) ((hold hin).1.symm.trans hni)

theorem Sockets.exec {w : World} {k : ℕ} (h : Sockets w) (hk : (w.procs k).phase = .newborn) {phase' : Phase}
    (hphase' : phase' ≠ .newborn) :
    Sockets (w.put k { w.procs k with stdout := (w.procs k).connfd, connfd := none, phase := phase' }) := by
  set p : Proc := { w.procs k with stdout := (w.procs k).connfd, connfd := none, phase := phase' }
  have hself : (w.put k p).procs k = p := put_self w p
  have hother {j : ℕ} (hj : j ≠ k) : (w.put k p).procs j = w.procs j := put_other w p hj
  have hne {j n : ℕ} (hn : ((w.put k p).procs j).connfd = some n) : j ≠ k := by
    rintro rfl
    rw [hself] at hn
    cases hn
  obtain ⟨made, held, outs, conns, fresh, first, alone⟩ := h
  have hown : (w.procs k).phase ≠ .parting := by simp [hk]
  constructor
  · intro j n hn
    by_cases hj : j = k
    · rw [hj, hself] at hn
      rcases hn with hn | hn
      · exact made k n (Or.inr hn)
      · cases hn
    · rw [hother hj] at hn
      exact made j n hn
  · intro j n hn
    have hj := hne hn
    rw [hother hj] at hn ⊢
    exact held j n hn
  · intro j i n hj hi hnj hni
    by_cases hjk : j = k
    · by_cases hik : i = k
      · rw [hjk, hik]
      · rw [hjk, hself] at hnj
        rw [hother hik] at hi hni
        exact absurd hni (fresh k n hown hnj i)
    · rw [hother hjk] at hj hnj
      by_cases hik : i = k
      · rw [hik, hself] at hni
        exact absurd hnj (fresh k n hown hni j)
      · rw [hother hik] at hi hni
        exact outs j i n hj hi hnj hni
  · intro j i n hji hnj hni
    have hj := hne hnj
    have hi := hne hni
    rw [hother hj, hother hi] at hji
    rw [hother hj] at hnj
    rw [hother hi] at hni
    exact conns j i n hji hnj hni
  · intro j n hphase hn i hni
    have hj := hne hn
    rw [hother hj] at hphase hn
    by_cases hik : i = k
    · rw [hik, hself] at hni
      change (w.procs k).connfd = some n at hni
      rcases held j n hn with hp | hp | hp
      · exact first j n hp hn k hk hni
      · exact hphase hp
      · exact hj (conns j k n (by rw [hp, hk]) hn hni)
    · rw [hother hik] at hni
      exact fresh j n hphase hn i hni
  · intro j n hphase hn i hi hni
    have hj := hne hn
    have hik := hne hni
    rw [hother hj] at hphase hn
    rw [hother hik] at hi hni
    exact first j n hphase hn i hi hni
  · intro j n hphase hn i hi hni
    have hik : i ≠ k := by
      rintro rfl
      rw [hself] at hi
      exact hphase' hi
    rw [hother hik] at hi hni
    by_cases hj : j = k
    · rw [hj, hself] at hn
      exact fresh k n hown hn i hni
    · rw [hother hj] at hphase hn
      exact alone j n hphase hn i hi hni

theorem Sockets.put {w : World} (h : Sockets w) {k : ℕ} {p : Proc}
    (hstdout : p.stdout = (w.procs k).stdout ∨ p.stdout = none)
    (hconnfd : p.connfd = (w.procs k).connfd ∨ p.connfd = none)
    (hphase : p.phase = (w.procs k).phase ∨ (p.connfd = none ∧ (w.procs k).phase ≠ .newborn ∧
      p.phase ≠ .newborn ∧ p.phase ≠ .program)) : Sockets (w.put k p) := by
  apply h.fewer
  · rfl
  · intro j
    by_cases hj : j = k
    · rwa [hj, put_self]
    · rw [put_other _ _ hj]
      exact Or.inl rfl
  · intro j
    by_cases hj : j = k
    · rwa [hj, put_self]
    · rw [put_other _ _ hj]
      exact Or.inl rfl
  · intro j
    by_cases hj : j = k
    · rwa [hj, put_self]
    · rw [put_other _ _ hj]
      exact Or.inl rfl

theorem Sockets.exit {w : World} (hkin : Kin w) (h : Sockets w) {k : ℕ} (hk : (w.procs k).phase ≠ .newborn) :
    Sockets (w.exit k) := by
  apply h.fewer
  · rfl
  · intro j
    by_cases hj : j = k
    · rw [hj, exit_self]
      exact Or.inr rfl
    · exact Or.inl (exit_keeps w hj).1
  · intro j
    by_cases hj : j = k
    · rw [hj, exit_self]
      exact Or.inr rfl
    · exact Or.inl (exit_keeps w hj).2.1
  · intro j
    by_cases hj : j = k
    · rw [hj, exit_self]
      refine Or.inr ⟨rfl, hk, ?_, ?_⟩
      · split_ifs <;> simp
      · split_ifs <;> simp
    · obtain ⟨-, hconnfd, hphase | ⟨hz, hgone⟩⟩ := exit_keeps w hj
      · exact Or.inl hphase
      · refine Or.inr ⟨hconnfd.trans (hkin.ended j (Or.inl hz)).2, ?_, ?_, ?_⟩
        · simp [hz]
        · simp [hgone]
        · simp [hgone]

theorem sockets_step {w w' : World} (hkin : Kin w) (h : Sockets w) (hs : Stepped w w') : Sockets w' := by
  cases hs with
  | stays same => rwa [same]
  | accepts k phase post => exact post ▸ h.accept phase
  | forks k phase post => exact post ▸ h.fork phase (hkin.unborn _ le_rfl)
  | execs k phase' phase goes post =>
    rw [post]
    apply h.exec phase
    rcases goes with rfl | rfl
    · exact fun hp => by cases hp
    · exact fun hp => by cases hp
  | closes k phase post =>
    rw [post]
    apply h.put
    · exact Or.inl rfl
    · exact Or.inr rfl
    · exact Or.inr ⟨rfl, by simp [phase], fun hp => (by cases hp), fun hp => (by cases hp)⟩
  | exits k phase post =>
    rw [post]
    apply h.exit hkin
    rcases phase with hp | hp | hp <;> simp [hp]
  | delivers k pending post =>
    rw [post]
    apply h.put
    · exact Or.inl rfl
    · exact Or.inl rfl
    · exact Or.inl rfl
  | reaps k m waits post =>
    rw [post]
    apply h.put
    · exact Or.inr rfl
    · exact Or.inr rfl
    · exact Or.inr ⟨rfl, by simp [waits.1], fun hp => (by cases hp), fun hp => (by cases hp)⟩
  | returns k handling none_ post =>
    rw [post]
    apply h.put
    · exact Or.inl rfl
    · exact Or.inl rfl
    · exact Or.inl rfl

theorem apart_after (es : List Action) : Kin (after es) ∧ Sockets (after es) := by
  apply lab5.run_invariant (P := fun w => Kin w ∧ Sockets w)
  · intro w e h
    have hs := lab5_stepped w e
    exact ⟨kin_step h.1 hs, sockets_step h.1 h.2 hs⟩
  · exact ⟨kin_start, sockets_start⟩

theorem zombies_noticed (es : List Action) (k : ℕ) (hk : ((after es).procs k).phase = .zombie) :
    ∃ j < k, ((after es).procs k).parent = some j ∧ ((after es).procs j).phase.Serves ∧
      (((after es).procs j).pending = true ∨ ((after es).procs j).handling = true) := by
  have hkin := (apart_after es).1
  obtain ⟨j, hj, hsignal⟩ := hkin.owed k hk
  exact ⟨j, hkin.older k j hj, hj, hkin.serves k j hj, hsignal⟩

def takesUp (m : ℕ) : List Action := [.accept 0 true, .fork 0 true, .exec m true, .close 0]

theorem zombies_noticed_two : ∃ j < 2,
    ((after (takesUp 1 ++ takesUp 2 ++ [.exits 1, .exits 2])).procs 2).parent = some j ∧
      ((after (takesUp 1 ++ takesUp 2 ++ [.exits 1, .exits 2])).procs j).phase.Serves ∧
      (((after (takesUp 1 ++ takesUp 2 ++ [.exits 1, .exits 2])).procs j).pending = true ∨
        ((after (takesUp 1 ++ takesUp 2 ++ [.exits 1, .exits 2])).procs j).handling = true) :=
  zombies_noticed _ 2 (by decide)

theorem connection_closed (es : List Action) {k n : ℕ} (hk : ((after es).procs k).phase = .program)
    (hn : ((after es).procs k).stdout = some n) :
    (∀ j, ((after es).procs j).stdout = some n → j = k) ∧
      (∀ j i, ((after es).procs j).connfd = some n → ((after es).procs i).connfd = some n → j = i) ∧
      (∀ j, ((after es).procs j).connfd = some n → ((after es).procs j).phase = .parting) ∧
      ((∀ j, ((after es).procs j).connfd ≠ some n) → ∀ j,
        ((after (es ++ [.exits k])).procs j).stdout ≠ some n ∧
          ((after (es ++ [.exits k])).procs j).connfd ≠ some n) := by
  obtain ⟨made, held, outs, conns, fresh, first, alone⟩ := (apart_after es).2
  have hout (j : ℕ) (hj : ((after es).procs j).stdout = some n) : j = k := by
    by_cases hnewborn : ((after es).procs j).phase = .newborn
    · exact absurd hj (alone k n hk hn j hnewborn)
    · exact outs j k n hnewborn (by simp [hk]) hj hn
  have hparting (j : ℕ) (hj : ((after es).procs j).connfd = some n) : ((after es).procs j).phase = .parting := by
    by_contra hp
    exact fresh j n hp hj k hn
  have hends : after (es ++ [.exits k]) = (after es).exit k := by
    rw [after, Machine.run_snoc]
    change (lab5.step (after es) _).1 = _
    simp only [lab5, hk, ↓reduceIte]
  refine ⟨hout, fun j i hj hi => ?_, hparting, fun hnone j => ?_⟩
  · exact conns j i n (by rw [hparting j hj, hparting i hi]) hj hi
  · rw [hends]
    by_cases hj : j = k
    · rw [hj, exit_self]
      exact ⟨fun h => (by cases h), fun h => (by cases h)⟩
    · rw [(exit_keeps _ hj).1, (exit_keeps _ hj).2.1]
      exact ⟨fun h => hj (hout j h), hnone j⟩

theorem connection_closed_two :
    (∀ j, ((after (takesUp 1 ++ takesUp 2)).procs j).stdout = some 1 → j = 2) ∧
      (∀ j i, ((after (takesUp 1 ++ takesUp 2)).procs j).connfd = some 1 →
        ((after (takesUp 1 ++ takesUp 2)).procs i).connfd = some 1 → j = i) ∧
      (∀ j, ((after (takesUp 1 ++ takesUp 2)).procs j).connfd = some 1 →
        ((after (takesUp 1 ++ takesUp 2)).procs j).phase = .parting) ∧
      ((∀ j, ((after (takesUp 1 ++ takesUp 2)).procs j).connfd ≠ some 1) → ∀ j,
        ((after (takesUp 1 ++ takesUp 2 ++ [.exits 2])).procs j).stdout ≠ some 1 ∧
          ((after (takesUp 1 ++ takesUp 2 ++ [.exits 2])).procs j).connfd ≠ some 1) :=
  connection_closed (takesUp 1 ++ takesUp 2) (by decide) (by decide)

end EmbeddedOS.Lab5
