import Mathlib

/-!
Deterministic machines that read one event at a time and give one output: their runs, the
trace a run leaves, and properties of a trace that look back to the last matching moment.
-/

namespace EmbeddedOS.Runs

structure Machine (σ ε ο : Type*) where
  step : σ → ε → σ × ο

structure Moment (σ ε ο : Type*) where
  pre : σ
  event : ε
  out : ο
  post : σ

namespace Machine

variable {σ ε ο : Type*} (M : Machine σ ε ο)

def run (s : σ) (es : List ε) : σ := es.foldl (fun s e => (M.step s e).1) s

def moment (s : σ) (e : ε) : Moment σ ε ο := ⟨s, e, (M.step s e).2, (M.step s e).1⟩

theorem moment_pre (s : σ) (e : ε) : (M.moment s e).pre = s := rfl

theorem moment_post (s : σ) (e : ε) : (M.moment s e).post = (M.step s e).1 := rfl

def trace (s : σ) : List ε → List (Moment σ ε ο)
  | [] => []
  | e :: es => M.moment s e :: trace (M.step s e).1 es

@[simp] theorem run_nil (s : σ) : M.run s [] = s := rfl

@[simp] theorem run_cons (s : σ) (e : ε) (es : List ε) :
    M.run s (e :: es) = M.run (M.step s e).1 es := rfl

theorem run_append (s : σ) (es fs : List ε) : M.run s (es ++ fs) = M.run (M.run s es) fs := by
  simp [run]

theorem run_snoc (s : σ) (es : List ε) (e : ε) :
    M.run s (es ++ [e]) = (M.step (M.run s es) e).1 := by
  simp [run]

@[simp] theorem trace_nil (s : σ) : M.trace s [] = [] := rfl

theorem trace_append (s : σ) (es fs : List ε) :
    M.trace s (es ++ fs) = M.trace s es ++ M.trace (M.run s es) fs := by
  induction es generalizing s with
  | nil => rfl
  | cons e es ih => simp [trace, ih]

theorem trace_snoc (s : σ) (es : List ε) (e : ε) :
    M.trace s (es ++ [e]) = M.trace s es ++ [M.moment (M.run s es) e] := by
  simp [trace_append, trace]

@[simp] theorem trace_length (s : σ) (es : List ε) : (M.trace s es).length = es.length := by
  induction es generalizing s with
  | nil => rfl
  | cons e es ih => simp [trace, ih]

theorem run_invariant {P : σ → Prop} (hstep : ∀ s e, P s → P (M.step s e).1) {s : σ} (hs : P s)
    (es : List ε) : P (M.run s es) := by
  induction es generalizing s with
  | nil => exact hs
  | cons e es ih => exact ih (hstep s e hs)

theorem mem_trace_iff {s : σ} {es : List ε} {q : Moment σ ε ο} :
    q ∈ M.trace s es ↔ ∃ fs e gs, es = fs ++ e :: gs ∧ q = M.moment (M.run s fs) e := by
  constructor
  · intro hq
    induction es generalizing s with
    | nil => simp at hq
    | cons e es ih =>
      rcases List.mem_cons.mp hq with rfl | hq
      · exact ⟨[], e, es, rfl, rfl⟩
      · obtain ⟨fs, f, gs, rfl, rfl⟩ := ih hq
        exact ⟨e :: fs, f, gs, rfl, rfl⟩
  · rintro ⟨fs, e, gs, rfl, rfl⟩
    rw [trace_append]
    exact List.mem_append_right _ (List.mem_cons_self ..)

theorem trace_getElem? (s : σ) (es : List ε) (k : ℕ) :
    (M.trace s es)[k]? = es[k]?.map fun e => M.moment (M.run s (es.take k)) e := by
  induction es generalizing s k with
  | nil => simp
  | cons e es ih =>
    cases k with
    | zero => simp [trace]
    | succ k => simp [trace, ih]

theorem event_mem_of_mem_trace {s : σ} {es : List ε} {q : Moment σ ε ο} (hq : q ∈ M.trace s es) :
    q.event ∈ es := by
  obtain ⟨fs, e, gs, rfl, rfl⟩ := M.mem_trace_iff.mp hq
  exact List.mem_append_right _ (List.mem_cons_self ..)

theorem run_invariant_of_trace {P : σ → Prop} {s : σ} (hs : P s) {es : List ε}
    (h : ∀ q ∈ M.trace s es, P q.pre → P q.post) : P (M.run s es) := by
  induction es generalizing s with
  | nil => exact hs
  | cons e es ih =>
    exact ih (h _ (List.mem_cons_self ..) hs) fun q hq => h q (List.mem_cons_of_mem _ hq)

theorem states_iff {I P : σ → Prop} {C : σ → ε → Prop} (hI : ∀ s e, I s → I (M.step s e).1)
    (hC : ∀ s e, I s → P s → (P (M.step s e).1 ↔ C s e)) {s : σ} (hs : I s) (hp : P s) (es : List ε) :
    (∀ fs, fs <+: es → P (M.run s fs)) ↔ ∀ q ∈ M.trace s es, C q.pre q.event := by
  induction es generalizing s with
  | nil =>
    constructor
    · intro _ q hq
      cases hq
    · intro _ fs hfs
      rw [List.prefix_nil.mp hfs]
      exact hp
  | cons e es ih =>
    constructor
    · intro h
      have hpost : P (M.step s e).1 := h [e] ⟨es, rfl⟩
      have hrest := (ih (hI s e hs) hpost).mp fun fs hfs => h (e :: fs) (List.cons_prefix_cons.mpr ⟨rfl, hfs⟩)
      intro q hq
      rcases List.mem_cons.mp hq with rfl | hq
      · exact (hC s e hs hp).mp hpost
      · exact hrest q hq
    · intro h fs hfs
      have hpost := (hC s e hs hp).mpr (h _ (List.mem_cons_self ..))
      cases fs with
      | nil => exact hp
      | cons f fs =>
        obtain ⟨rfl, hrest⟩ := List.cons_prefix_cons.mp hfs
        exact (ih (hI s f hs) hpost).mpr (fun q hq => h q (List.mem_cons_of_mem _ hq)) fs hrest

theorem run_account {G : Type*} [AddCommMonoid G] {f : σ → G} {g : Moment σ ε ο → G} {s : σ}
    {es : List ε} (h : ∀ q ∈ M.trace s es, f q.pre = f q.post + g q) :
    f s = f (M.run s es) + ((M.trace s es).map g).sum := by
  induction es generalizing s with
  | nil => simp
  | cons e es ih =>
    have hstep : f s = f (M.step s e).1 + g (M.moment s e) := h _ (List.mem_cons_self ..)
    have hrest := ih (s := (M.step s e).1) fun q hq => h q (List.mem_cons_of_mem _ hq)
    rw [run_cons, trace, List.map_cons, List.sum_cons, hstep, hrest]
    abel

theorem simulation {τ δ π : Type*} {N : Machine τ δ π} {R : σ → τ → Prop} {f : σ → ε → δ}
    {A : σ → ε → Prop} {Q : Moment σ ε ο → Moment τ δ π → Prop}
    (hstep : ∀ s t e, R s t → A s e → R (M.step s e).1 (N.step t (f s e)).1 ∧
      Q (M.moment s e) (N.moment t (f s e)))
    {s : σ} {t : τ} (hR : R s t) {es : List ε} (hok : ∀ q ∈ M.trace s es, A q.pre q.event) :
    let ds := (M.trace s es).map (fun q => f q.pre q.event)
    R (M.run s es) (N.run t ds) ∧ List.Forall₂ Q (M.trace s es) (N.trace t ds) := by
  induction es generalizing s t with
  | nil => exact ⟨hR, .nil⟩
  | cons e es ih =>
    obtain ⟨hR', hQ⟩ := hstep s t e hR (hok _ (List.mem_cons_self ..))
    obtain ⟨hrun, htrace⟩ := ih hR' (fun q hq => hok q (List.mem_cons_of_mem _ hq))
    exact ⟨hrun, .cons hQ htrace⟩

theorem abreast {τ δ π : Type*} {N : Machine τ δ π} {R : σ → τ → Prop} {B : ε → δ → Prop} {A : σ → ε → Prop}
    {Q : Moment σ ε ο → Moment τ δ π → Prop}
    (hstep : ∀ s t e d, R s t → B e d → A s e → R (M.step s e).1 (N.step t d).1 ∧
      Q (M.moment s e) (N.moment t d))
    {s : σ} {t : τ} (hR : R s t) {es : List ε} {ds : List δ} (hB : List.Forall₂ B es ds)
    (hok : ∀ q ∈ M.trace s es, A q.pre q.event) :
    R (M.run s es) (N.run t ds) ∧ List.Forall₂ Q (M.trace s es) (N.trace t ds) := by
  induction hB generalizing s t with
  | nil => exact ⟨hR, .nil⟩
  | cons he hrest ih =>
    obtain ⟨hR', hQ⟩ := hstep s t _ _ hR he (hok _ (List.mem_cons_self ..))
    obtain ⟨hrun, htrace⟩ := ih hR' (fun q hq => hok q (List.mem_cons_of_mem _ hq))
    exact ⟨hrun, .cons hQ htrace⟩

theorem trace_events (s : σ) (es : List ε) : (M.trace s es).map (fun q => q.event) = es := by
  induction es generalizing s with
  | nil => rfl
  | cons e es ih => rw [trace, List.map_cons, ih, moment]

theorem lockstep_on {τ π : Type*} {N : Machine τ ε π} {R : σ → τ → Prop} {A : ε → Prop}
    {Q : Moment σ ε ο → Moment τ ε π → Prop}
    (hstep : ∀ s t e, R s t → A e → R (M.step s e).1 (N.step t e).1 ∧ Q (M.moment s e) (N.moment t e))
    {s : σ} {t : τ} (hR : R s t) {es : List ε} (hA : ∀ e ∈ es, A e) :
    R (M.run s es) (N.run t es) ∧ List.Forall₂ Q (M.trace s es) (N.trace t es) := by
  have h := M.simulation (f := fun _ e => e) (A := fun _ e => A e) (Q := Q) hstep hR
    (fun q hq => hA _ (M.event_mem_of_mem_trace hq))
  rwa [trace_events] at h

theorem lockstep {τ π : Type*} {N : Machine τ ε π} {R : σ → τ → Prop} {Q : Moment σ ε ο → Moment τ ε π → Prop}
    (hstep : ∀ s t e, R s t → R (M.step s e).1 (N.step t e).1 ∧ Q (M.moment s e) (N.moment t e))
    {s : σ} {t : τ} (hR : R s t) (es : List ε) :
    R (M.run s es) (N.run t es) ∧ List.Forall₂ Q (M.trace s es) (N.trace t es) :=
  M.lockstep_on (A := fun _ => True) (fun s t e hR _ => hstep s t e hR) hR fun _ _ => trivial

end Machine

section Past

variable {α β : Type*}

def Since (p q : α → Prop) (l : List α) : Prop :=
  ∃ before x after, l = before ++ x :: after ∧ q x ∧ ∀ y ∈ after, p y

theorem since_nil (p q : α → Prop) : ¬ Since p q [] := by
  rintro ⟨before, x, after, h, -⟩
  simp at h

theorem since_snoc (p q : α → Prop) (l : List α) (x : α) :
    Since p q (l ++ [x]) ↔ q x ∨ (p x ∧ Since p q l) := by
  constructor
  · rintro ⟨before, y, after, h, hq, hp⟩
    rcases List.eq_nil_or_concat after with rfl | ⟨after', z, rfl⟩
    · obtain ⟨-, hx⟩ := List.append_inj' h rfl
      exact Or.inl (by simpa [List.singleton_inj.mp hx] using hq)
    · have h' : l ++ [x] = (before ++ y :: after') ++ [z] := by simpa using h
      obtain ⟨rfl, hx⟩ := List.append_inj' h' rfl
      obtain rfl := List.singleton_inj.mp hx
      exact Or.inr ⟨hp x (by simp), before, y, after', rfl, hq, fun w hw => hp w (by simp [hw])⟩
  · rintro (hq | ⟨hp, before, y, after, rfl, hq, hall⟩)
    · exact ⟨l, x, [], rfl, hq, by simp⟩
    · refine ⟨before, y, after ++ [x], by simp, hq, ?_⟩
      intro w hw
      rcases List.mem_append.mp hw with hw | hw
      · exact hall w hw
      · rwa [List.mem_singleton.mp hw]

theorem since_unique {p q r : α → Prop} {l : List α} (hq : Since p q l) (hr : Since p r l)
    (hpq : ∀ x, q x → ¬ p x) (hpr : ∀ x, r x → ¬ p x) : ∃ x ∈ l, r x ∧ q x := by
  induction l using List.reverseRecOn with
  | nil => exact absurd hq (since_nil p q)
  | append_singleton l x ih =>
    rw [since_snoc] at hq hr
    rcases hq with hx | ⟨hp, hq⟩
    · rcases hr with hx' | ⟨hp', -⟩
      · exact ⟨x, by simp, hx', hx⟩
      · exact absurd hp' (hpq x hx)
    · rcases hr with hx' | ⟨-, hr⟩
      · exact absurd hp (hpr x hx')
      · obtain ⟨y, hy, h⟩ := ih hq hr
        exact ⟨y, by simp [hy], h⟩

theorem exists_first {p : α → Prop} {l : List α} (h : ∃ x ∈ l, p x) :
    ∃ before x after, l = before ++ x :: after ∧ p x ∧ ∀ y ∈ before, ¬ p y := by
  induction l with
  | nil => simp at h
  | cons y l ih =>
    by_cases hy : p y
    · exact ⟨[], y, l, rfl, hy, by simp⟩
    · obtain ⟨x, hx, hp⟩ := h
      have hl : ∃ x ∈ l, p x := by
        rcases List.mem_cons.mp hx with rfl | hx
        · exact absurd hp hy
        · exact ⟨x, hx, hp⟩
      obtain ⟨before, x, after, rfl, hx, hb⟩ := ih hl
      refine ⟨y :: before, x, after, rfl, hx, ?_⟩
      intro z hz
      rcases List.mem_cons.mp hz with rfl | hz
      · exact hy
      · exact hb z hz

def sinceLast (reset : α → Bool) (l : List α) : List α :=
  (l.reverse.takeWhile (fun x => !reset x)).reverse

@[simp] theorem sinceLast_nil (reset : α → Bool) : sinceLast reset [] = [] := rfl

theorem sinceLast_snoc (reset : α → Bool) (l : List α) (x : α) :
    sinceLast reset (l ++ [x]) = if reset x then [] else sinceLast reset l ++ [x] := by
  by_cases hx : reset x = true <;> simp [sinceLast, hx]

theorem sinceLast_map (reset : β → Bool) (f : α → β) (l : List α) :
    sinceLast reset (l.map f) = (sinceLast (fun x => reset (f x)) l).map f := by
  simp [sinceLast, ← List.map_reverse, List.takeWhile_map, Function.comp_def]

theorem sinceLast_congr {reset reset' : α → Bool} {l : List α} (h : ∀ x ∈ l, reset x = reset' x) :
    sinceLast reset l = sinceLast reset' l := by
  induction l using List.reverseRecOn with
  | nil => rfl
  | append_singleton l x ih =>
    rw [sinceLast_snoc, sinceLast_snoc, h x (by simp), ih (fun y hy => h y (by simp [hy]))]

theorem since_map (p q : β → Prop) (f : α → β) (l : List α) :
    Since p q (l.map f) ↔ Since (fun x => p (f x)) (fun x => q (f x)) l := by
  induction l using List.reverseRecOn with
  | nil => simp [since_nil]
  | append_singleton l x ih => simp [since_snoc, ih]

theorem since_congr {p p' q q' : α → Prop} {l : List α} (hp : ∀ x ∈ l, p x ↔ p' x)
    (hq : ∀ x ∈ l, q x ↔ q' x) : Since p q l ↔ Since p' q' l := by
  induction l using List.reverseRecOn with
  | nil => simp [since_nil]
  | append_singleton l x ih =>
    rw [since_snoc, since_snoc, hp x (by simp), hq x (by simp),
      ih (fun y hy => hp y (by simp [hy])) (fun y hy => hq y (by simp [hy]))]

end Past

end EmbeddedOS.Runs
