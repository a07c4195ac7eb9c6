import EmbeddedOS.Library.Runs

/-!
Threads whose shared variables are guarded by one mutex. A thread takes a request, waits for the
mutex, runs the code of the request statement by statement, and gives the mutex back.
-/

namespace EmbeddedOS.Sections

open Runs

inductive Code (σ : Type*) where
  | done
  | act (f : σ → σ) (next : Code σ)
  | test (b : σ → Bool) (yes no : Code σ)

namespace Code

variable {σ α : Type*}

def run : Code σ → σ → σ
  | done, s => s
  | act f next, s => next.run (f s)
  | test b yes no, s => if b s then yes.run s else no.run s

def seq : Code σ → Code σ → Code σ
  | done, d => d
  | act f next, d => act f (next.seq d)
  | test b yes no, d => test b (yes.seq d) (no.seq d)

def step : Code σ → σ → Code σ × σ
  | done, s => (done, s)
  | act f next, s => (next, f s)
  | test b yes no, s => (if b s then yes else no, s)

@[simp] theorem run_done (s : σ) : (done : Code σ).run s = s := rfl

@[simp] theorem run_act (f : σ → σ) (next : Code σ) (s : σ) : (act f next).run s = next.run (f s) := rfl

@[simp] theorem run_test (b : σ → Bool) (yes no : Code σ) (s : σ) :
    (test b yes no).run s = if b s then yes.run s else no.run s := rfl

theorem run_seq (c d : Code σ) (s : σ) : (c.seq d).run s = d.run (c.run s) := by
  induction c generalizing s with
  | done => rfl
  | act f next ih => exact ih (f s)
  | test b yes no ihy ihn =>
    by_cases hb : b s = true
    · simp only [seq, run_test, if_pos hb, ihy]
    · simp only [seq, run_test, if_neg hb, ihn]

theorem run_step (c : Code σ) (s : σ) : (c.step s).1.run (c.step s).2 = c.run s := by
  cases c with
  | done => rfl
  | act f next => rfl
  | test b yes no => by_cases hb : b s = true <;> simp [step, hb]

def Keeps (f : σ → α) : Code σ → Prop
  | done => True
  | act g next => (∀ s, f (g s) = f s) ∧ Keeps f next
  | test _ yes no => Keeps f yes ∧ Keeps f no

def Once (f : σ → α) : Code σ → Prop
  | done => True
  | act g next => ((∀ s, f (g s) = f s) ∧ Once f next) ∨ Keeps f next
  | test _ yes no => Once f yes ∧ Once f no

variable {f : σ → α}

theorem Keeps.once {c : Code σ} (h : Keeps f c) : Once f c := by
  induction c with
  | done => trivial
  | act g next ih => exact Or.inr h.2
  | test b yes no ihy ihn => exact ⟨ihy h.1, ihn h.2⟩

theorem Keeps.run_eq {c : Code σ} (h : Keeps f c) (s : σ) : f (c.run s) = f s := by
  induction c generalizing s with
  | done => rfl
  | act g next ih => rw [run_act, ih h.2, h.1]
  | test b yes no ihy ihn =>
    rw [run_test]
    split_ifs
    · exact ihy h.1 s
    · exact ihn h.2 s

theorem Keeps.step {c : Code σ} (h : Keeps f c) (s : σ) : Keeps f (c.step s).1 := by
  cases c with
  | done => trivial
  | act g next => exact h.2
  | test b yes no =>
    simp only [Code.step]
    split_ifs
    · exact h.1
    · exact h.2

theorem Keeps.seq {c d : Code σ} (hc : Keeps f c) (hd : Keeps f d) : Keeps f (c.seq d) := by
  induction c with
  | done => exact hd
  | act g next ih => exact ⟨hc.1, ih hc.2⟩
  | test b yes no ihy ihn => exact ⟨ihy hc.1, ihn hc.2⟩

theorem Keeps.seq_once {c d : Code σ} (hc : Keeps f c) (hd : Once f d) : Once f (c.seq d) := by
  induction c with
  | done => exact hd
  | act g next ih => exact Or.inl ⟨hc.1, ih hc.2⟩
  | test b yes no ihy ihn => exact ⟨ihy hc.1, ihn hc.2⟩

theorem Once.step {c : Code σ} (h : Once f c) (s : σ) :
    (f (c.step s).2 = f s ∧ Once f (c.step s).1) ∨ Keeps f (c.step s).1 := by
  cases c with
  | done => exact Or.inr trivial
  | act g next =>
    rcases h with ⟨hg, hn⟩ | hn
    · exact Or.inl ⟨hg s, hn⟩
    · exact Or.inr hn
  | test b yes no =>
    refine Or.inl ⟨rfl, ?_⟩
    simp only [Code.step]
    split_ifs
    · exact h.1
    · exact h.2

end Code

inductive Status (ε σ : Type*) where
  | idle
  | waits (e : ε)
  | inside (rest : Code σ)

def Status.isIdle {ε σ : Type*} : Status ε σ → Bool
  | .idle => true
  | _ => false

theorem Status.isIdle_iff {ε σ : Type*} {s : Status ε σ} : s.isIdle = true ↔ s = .idle := by
  cases s with
  | idle => exact iff_of_true rfl rfl
  | waits e => simp [Status.isIdle]
  | inside rest => simp [Status.isIdle]

instance {ε σ : Type*} (s : Status ε σ) : Decidable (s = .idle) := decidable_of_iff _ Status.isIdle_iff

structure State (κ γ ν ε : Type*) where
  shared : γ
  own : κ → ν
  status : κ → Status ε (γ × ν)
  mutex : Option κ

inductive Turn (κ ε : Type*) where
  | takes (k : κ) (e : ε)
  | goes (k : κ)

inductive Note (κ ε : Type*) where
  | quiet
  | took (k : κ) (e : ε)
  | entered (k : κ) (e : ε)

variable {κ γ ν ε : Type*} [DecidableEq κ]

def State.put (s : State κ γ ν ε) (k : κ) (t : Status ε (γ × ν)) : State κ γ ν ε :=
  { s with status := Function.update s.status k t }

def State.advance (s : State κ γ ν ε) (k : κ) (x : γ × ν) (rest : Code (γ × ν)) : State κ γ ν ε :=
  { s.put k (.inside rest) with shared := x.1, own := Function.update s.own k x.2 }

theorem advance_status (s : State κ γ ν ε) (k : κ) (x : γ × ν) (rest : Code (γ × ν)) :
    (s.advance k x rest).status k = .inside rest := by
  simp [State.advance, State.put]

def threads (body : ε → Code (γ × ν)) : Machine (State κ γ ν ε) (Turn κ ε) (Note κ ε) where
  step s t :=
    match t with
    | .takes k e =>
      match s.status k with
      | .idle => (s.put k (.waits e), .took k e)
      | _ => (s, .quiet)
    | .goes k =>
      match s.status k with
      | .idle => (s, .quiet)
      | .waits e =>
        if s.mutex.isNone then ({ s.put k (.inside (body e)) with mutex := some k }, .entered k e)
        else (s, .quiet)
      | .inside .done => ({ s.put k .idle with mutex := none }, .quiet)
      | .inside c => (s.advance k (c.step (s.shared, s.own k)).2 (c.step (s.shared, s.own k)).1, .quiet)

def start (shared : γ) (own : κ → ν) : State κ γ ν ε := ⟨shared, own, fun _ => .idle, none⟩

def serial (body : ε → Code (γ × ν)) : Machine (γ × (κ → ν)) (κ × ε) Unit where
  step s q :=
    let x := (body q.2).run (s.1, s.2 q.1)
    ((x.1, Function.update s.2 q.1 x.2), ())

def Note.entry : Note κ ε → Option (κ × ε)
  | .entered k e => some (k, e)
  | _ => none

def Note.taken (k : κ) : Note κ ε → Option ε
  | .took j e => if j = k then some e else none
  | _ => none

inductive Stepped (body : ε → Code (γ × ν)) (s : State κ γ ν ε) (s' : State κ γ ν ε) : Note κ ε → Prop
  | rests (same : s' = s) : Stepped body s s' .quiet
  | takes (k : κ) (e : ε) (idle : s.status k = .idle) (post : s' = s.put k (.waits e)) :
    Stepped body s s' (.took k e)
  | enters (k : κ) (e : ε) (waits : s.status k = .waits e) (free : s.mutex = none)
      (post : s' = { s.put k (.inside (body e)) with mutex := some k }) : Stepped body s s' (.entered k e)
  | advances (k : κ) (c : Code (γ × ν)) (inside : s.status k = .inside c)
      (post : s' = s.advance k (c.step (s.shared, s.own k)).2 (c.step (s.shared, s.own k)).1) :
    Stepped body s s' .quiet
  | leaves (k : κ) (inside : s.status k = .inside .done)
      (post : s' = { s.put k .idle with mutex := none }) : Stepped body s s' .quiet

variable (body : ε → Code (γ × ν))

theorem threads_stepped (s : State κ γ ν ε) (t : Turn κ ε) :
    Stepped body s ((threads body).step s t).1 ((threads body).step s t).2 := by
  cases t with
  | takes k e =>
    cases hk : s.status k with
    | idle => simpa [threads, hk] using Stepped.takes k e hk rfl
    | waits e' => simpa [threads, hk] using Stepped.rests rfl
    | inside c => simpa [threads, hk] using Stepped.rests rfl
  | goes k =>
    cases hk : s.status k with
    | idle => simpa [threads, hk] using Stepped.rests rfl
    | waits e =>
      cases hm : s.mutex with
      | none => simpa [threads, hk, hm] using Stepped.enters k e hk hm rfl
      | some j => simpa [threads, hk, hm] using Stepped.rests rfl
    | inside c =>
      cases c with
      | done => simpa [threads, hk] using Stepped.leaves k hk rfl
      | act f next => simpa [threads, hk] using Stepped.advances k _ hk rfl
      | test b yes no => simpa [threads, hk] using Stepped.advances k _ hk rfl

def Guarded (s : State κ γ ν ε) : Prop :=
  ∀ k, s.mutex = some k ↔ ∃ c, s.status k = .inside c

omit [DecidableEq κ] in
theorem guarded_start (shared : γ) (own : κ → ν) : Guarded (start (ε := ε) shared own) := by
  intro k
  simp [start]

omit [DecidableEq κ] in
theorem Guarded.alone {s : State κ γ ν ε} (h : Guarded s) {j k : κ} {c d : Code (γ × ν)}
    (hj : s.status j = .inside c) (hk : s.status k = .inside d) : j = k := by
  have hmj := (h j).mpr ⟨c, hj⟩
  have hmk := (h k).mpr ⟨d, hk⟩
  rw [hmj] at hmk
  exact Option.some.inj hmk

theorem guarded_step {s s' : State κ γ ν ε} {n : Note κ ε} (h : Guarded s) (hs : Stepped body s s' n) :
    Guarded s' := by
  cases hs with
  | rests same => rwa [same]
  | takes k e idle post =>
    intro j
    rw [post]
    by_cases hj : j = k
    · subst hj
      have hno : ¬ s.mutex = some j := by
        rw [h j, idle]
        simp
      simpa [State.put] using hno
    · simpa [State.put, hj] using h j
  | enters k e waits free post =>
    intro j
    rw [post]
    by_cases hj : j = k
    · subst hj
      simp [State.put]
    · have hno : ¬ ∃ c, s.status j = .inside c := by
        rw [← h j, free]
        simp
      simpa [State.put, hj, Ne.symm hj] using hno
  | advances k c inside post =>
    intro j
    rw [post]
    by_cases hj : j = k
    · subst hj
      simpa [State.advance, State.put] using (h j).mpr ⟨c, inside⟩
    · simpa [State.advance, State.put, hj] using h j
  | leaves k inside post =>
    intro j
    rw [post]
    by_cases hj : j = k
    · subst hj
      simp [State.put]
    · have hno : ¬ ∃ c, s.status j = .inside c := by
        rintro ⟨c, hc⟩
        exact hj (h.alone hc inside)
      simpa [State.put, hj] using hno

section Order

variable (shared : γ) (own : κ → ν)

abbrev after (ts : List (Turn κ ε)) : State κ γ ν ε := (threads body).run (start shared own) ts

theorem after_snoc (ts : List (Turn κ ε)) (t : Turn κ ε) :
    after body shared own (ts ++ [t]) = ((threads body).step (after body shared own ts) t).1 :=
  (threads body).run_snoc (start shared own) ts t

def notes (ts : List (Turn κ ε)) : List (Note κ ε) :=
  ((threads body).trace (start shared own) ts).map Moment.out

def entries (ts : List (Turn κ ε)) : List (κ × ε) := (notes body shared own ts).filterMap Note.entry

theorem notes_snoc (ts : List (Turn κ ε)) (t : Turn κ ε) : notes body shared own (ts ++ [t]) =
    notes body shared own ts ++ [((threads body).step (after body shared own ts) t).2] := by
  simp [notes, Machine.trace_snoc, Machine.moment]

theorem entries_snoc (ts : List (Turn κ ε)) (t : Turn κ ε) : entries body shared own (ts ++ [t]) =
    entries body shared own ts ++ ((threads body).step (after body shared own ts) t).2.entry.toList := by
  rw [entries, notes_snoc, List.filterMap_append]
  cases h : ((threads body).step (after body shared own ts) t).2.entry <;> simp [entries, h]

theorem guarded_after (ts : List (Turn κ ε)) : Guarded (after body shared own ts) := by
  refine (threads body).run_invariant (P := Guarded) ?_ (guarded_start shared own) ts
  intro s t h
  exact guarded_step body h (threads_stepped body s t)

end Order

def State.settled (s : State κ γ ν ε) : γ × (κ → ν) :=
  match s.mutex with
  | none => (s.shared, s.own)
  | some k =>
    match s.status k with
    | .inside rest =>
      let x := rest.run (s.shared, s.own k)
      (x.1, Function.update s.own k x.2)
    | _ => (s.shared, s.own)

theorem settled_free {s : State κ γ ν ε} (h : s.mutex = none) : s.settled = (s.shared, s.own) := by
  simp [State.settled, h]

theorem settled_inside {s : State κ γ ν ε} {k : κ} {rest : Code (γ × ν)} (hm : s.mutex = some k)
    (hk : s.status k = .inside rest) :
    s.settled = ((rest.run (s.shared, s.own k)).1, Function.update s.own k (rest.run (s.shared, s.own k)).2) := by
  simp [State.settled, hm, hk]

theorem settled_step {s s' : State κ γ ν ε} {n : Note κ ε} (h : Guarded s) (hs : Stepped body s s' n) :
    s'.settled = (serial body).run s.settled n.entry.toList := by
  cases hs with
  | rests same =>
    rw [same]
    rfl
  | takes k e idle post =>
    rw [post]
    change (s.put k (.waits e)).settled = s.settled
    cases hm : s.mutex with
    | none => rw [settled_free hm, settled_free (s := s.put k (.waits e)) hm, State.put]
    | some j =>
      obtain ⟨c, hc⟩ := (h j).mp hm
      have hj : j ≠ k := by
        rintro rfl
        rw [idle] at hc
        cases hc
      have hc' : (s.put k (.waits e)).status j = .inside c := by simpa [State.put, hj] using hc
      rw [settled_inside hm hc, settled_inside (s := s.put k (.waits e)) hm hc', State.put]
  | enters k e waits free post =>
    rw [post, settled_free free]
    exact settled_inside (s := { s.put k (.inside (body e)) with mutex := some k }) rfl (by simp [State.put])
  | advances k c inside post =>
    have hm := (h k).mpr ⟨c, inside⟩
    rw [post]
    change (s.advance k _ _).settled = s.settled
    rw [settled_inside hm inside, settled_inside (s := s.advance k _ _) hm (advance_status s k _ _)]
    simp [State.advance, Code.run_step]
  | leaves k inside post =>
    have hm := (h k).mpr ⟨_, inside⟩
    rw [post, settled_inside hm inside, settled_free (s := { s.put k .idle with mutex := none }) rfl]
    simp [State.put, Note.entry]

theorem settled_after (shared : γ) (own : κ → ν) (ts : List (Turn κ ε)) :
    (after body shared own ts).settled = (serial body).run (shared, own) (entries body shared own ts) := by
  induction ts using List.reverseRecOn with
  | nil => rfl
  | append_singleton ts t ih =>
    rw [after_snoc, entries_snoc, Machine.run_append, ← ih]
    exact settled_step body (guarded_after body shared own ts) (threads_stepped body _ t)

section Seen

variable {α : Type*} {f : γ → α}

inductive Seen (f : γ → α) (before : γ × (κ → ν)) (s : State κ γ ν ε) : Prop
  | free (open_ : s.mutex = none)
  | before (k : κ) (rest : Code (γ × ν)) (holder : s.mutex = some k) (inside : s.status k = .inside rest)
      (once : Code.Once (fun x => f x.1) rest) (same : f s.shared = f before.1)
  | after (k : κ) (rest : Code (γ × ν)) (holder : s.mutex = some k) (inside : s.status k = .inside rest)
      (keeps : Code.Keeps (fun x => f x.1) rest)

theorem seen_step (honce : ∀ e, Code.Once (fun x => f x.1) (body e)) {before : γ × (κ → ν)}
    {s s' : State κ γ ν ε} {n : Note κ ε} (hg : Guarded s) (h : Seen f before s) (hs : Stepped body s s' n) :
    Seen f (if n.entry.isSome then s.settled else before) s' := by
  cases hs with
  | rests same => rwa [same]
  | takes k e idle post =>
    change Seen f before s'
    have hother {j : κ} {c : Code (γ × ν)} (hj : s.status j = .inside c) :
        (s.put k (.waits e)).status j = .inside c := by
      have hne : j ≠ k := by
        rintro rfl
        rw [idle] at hj
        cases hj
      simpa [State.put, hne] using hj
    rw [post]
    cases h with
    | free open_ => exact .free open_
    | before j rest holder inside once same => exact .before j rest holder (hother inside) once same
    | after j rest holder inside keeps => exact .after j rest holder (hother inside) keeps
  | enters k e waits free post =>
    change Seen f s.settled s'
    rw [post, settled_free free]
    exact .before k (body e) rfl (by simp [State.put]) (honce e) rfl
  | advances k c inside post =>
    change Seen f before s'
    have hm := (hg k).mpr ⟨c, inside⟩
    rw [post]
    cases h with
    | free open_ =>
      rw [open_] at hm
      cases hm
    | before j rest holder inside' once same =>
      obtain rfl : j = k := by simpa [holder] using hm
      obtain rfl : rest = c := by simpa [inside'] using inside
      rcases once.step (s.shared, s.own j) with ⟨hsame, hnext⟩ | hnext
      · exact .before j _ hm (advance_status s j _ _) hnext (hsame.trans same)
      · exact .after j _ hm (advance_status s j _ _) hnext
    | after j rest holder inside' keeps =>
      obtain rfl : j = k := by simpa [holder] using hm
      obtain rfl : rest = c := by simpa [inside'] using inside
      exact .after j _ hm (advance_status s j _ _) (keeps.step _)
  | leaves k inside post =>
    rw [post]
    exact .free rfl

theorem Seen.eq {before : γ × (κ → ν)} {s : State κ γ ν ε} (h : Seen f before s) :
    f s.shared = f before.1 ∨ f s.shared = f s.settled.1 := by
  cases h with
  | free open_ => exact Or.inr (by rw [settled_free open_])
  | before k rest holder inside once same => exact Or.inl same
  | after k rest holder inside keeps =>
    apply Or.inr
    rw [settled_inside holder inside]
    exact (keeps.run_eq (s.shared, s.own k)).symm

theorem seen_after (honce : ∀ e, Code.Once (fun x => f x.1) (body e)) (shared : γ) (own : κ → ν)
    (ts : List (Turn κ ε)) :
    ∃ qs, (qs = entries body shared own ts ∨ qs = (entries body shared own ts).dropLast) ∧
      f (after body shared own ts).shared = f ((serial body).run (shared, own) qs).1 := by
  suffices h : ∃ qs, (qs = entries body shared own ts ∨ qs = (entries body shared own ts).dropLast) ∧
      Seen f ((serial body).run (shared, own) qs) (after body shared own ts) by
    obtain ⟨qs, hqs, hseen⟩ := h
    rcases hseen.eq with heq | heq
    · exact ⟨qs, hqs, heq⟩
    · exact ⟨_, Or.inl rfl, by rw [heq, settled_after]⟩
  induction ts using List.reverseRecOn with
  | nil => exact ⟨[], Or.inl rfl, .free rfl⟩
  | append_singleton ts t ih =>
    obtain ⟨qs, hqs, hseen⟩ := ih
    have hnext := seen_step body honce (guarded_after body shared own ts) hseen
      (threads_stepped body (after body shared own ts) t)
    rw [entries_snoc, after_snoc]
    cases he : ((threads body).step (after body shared own ts) t).2.entry with
    | none =>
      rw [he] at hnext
      exact ⟨qs, by simpa using hqs, hnext⟩
    | some q =>
      rw [he, settled_after] at hnext
      exact ⟨entries body shared own ts, Or.inr (by simp), hnext⟩

end Seen

theorem taken_goes (s : State κ γ ν ε) (j k : κ) : Note.taken k ((threads body).step s (.goes j)).2 = none := by
  cases hj : s.status j with
  | idle => simp [threads, hj, Note.taken]
  | waits e => cases hm : s.mutex <;> simp [threads, hj, hm, Note.taken]
  | inside c => cases c <;> simp [threads, hj, Note.taken]

theorem taken_takes {s : State κ γ ν ε} {j : κ} (hidle : s.status j = .idle) (e : ε) (k : κ) :
    Note.taken k ((threads body).step s (.takes j e)).2 = if j = k then some e else none := by
  simp only [threads, hidle, Note.taken]

theorem entry_takes {s : State κ γ ν ε} {j : κ} (hidle : s.status j = .idle) (e : ε) :
    ((threads body).step s (.takes j e)).2.entry = none := by
  simp only [threads, hidle, Note.entry]

def Status.pending : Status ε (γ × ν) → List ε
  | .waits e => [e]
  | _ => []

theorem taken_after (shared : γ) (own : κ → ν) (ts : List (Turn κ ε)) (k : κ) :
    (notes body shared own ts).filterMap (Note.taken k) =
      ((entries body shared own ts).filter fun q => q.1 = k).map Prod.snd ++
        ((after body shared own ts).status k).pending := by
  induction ts using List.reverseRecOn with
  | nil => rfl
  | append_singleton ts t ih =>
    have hs := threads_stepped body (after body shared own ts) t
    rw [notes_snoc, List.filterMap_append, ih, entries_snoc, List.filter_append, List.map_append,
      after_snoc]
    generalize ((threads body).step (after body shared own ts) t).1 = s',
      ((threads body).step (after body shared own ts) t).2 = n at hs
    generalize after body shared own ts = s at hs ⊢
    cases hs with
    | rests same => simp [same, Note.taken, Note.entry]
    | takes j e idle post =>
      by_cases hj : j = k
      · subst hj
        simp [post, idle, Note.taken, Note.entry, State.put, Status.pending]
      · simp [post, Note.taken, Note.entry, State.put, hj, Ne.symm hj]
    | enters j e waits free post =>
      by_cases hj : j = k
      · subst hj
        simp [post, waits, Note.taken, Note.entry, State.put, Status.pending]
      · simp [post, Note.taken, Note.entry, State.put, hj, Ne.symm hj]
    | advances j c inside post =>
      by_cases hj : j = k
      · subst hj
        simp [post, inside, Note.taken, Note.entry, State.advance, State.put, Status.pending]
      · simp [post, Note.taken, Note.entry, State.advance, State.put, Ne.symm hj]
    | leaves j inside post =>
      by_cases hj : j = k
      · subst hj
        simp [post, inside, Note.taken, Note.entry, State.put, Status.pending]
      · simp [post, Note.taken, Note.entry, State.put, Ne.symm hj]

theorem stuck_after (shared : γ) (own : κ → ν) (ts us : List (Turn κ ε)) {k : κ}
    (hk : (after body shared own ts).mutex = some k) (hus : ∀ u ∈ us, u ≠ .goes k) :
    (after body shared own (ts ++ us)).mutex = some k ∧
      entries body shared own (ts ++ us) = entries body shared own ts := by
  induction us using List.reverseRecOn with
  | nil =>
    rw [List.append_nil]
    exact ⟨hk, rfl⟩
  | append_singleton us u ih =>
    obtain ⟨hm, he⟩ := ih fun v hv => hus v (by simp [hv])
    have hu : u ≠ .goes k := hus u (by simp)
    have hg := guarded_after body shared own (ts ++ us)
    rw [← List.append_assoc, after_snoc, entries_snoc, he]
    generalize after body shared own (ts ++ us) = s at hm hg ⊢
    cases u with
    | takes j e => cases hj : s.status j <;> simp [threads, hj, hm, State.put, Note.entry]
    | goes j =>
      have hjk : j ≠ k := by
        rintro rfl
        exact hu rfl
      cases hj : s.status j with
      | idle => simp [threads, hj, hm, Note.entry]
      | waits e => simp [threads, hj, hm, Note.entry]
      | inside c =>
        have hmj := (hg j).mpr ⟨c, hj⟩
        rw [hm] at hmj
        exact absurd (Option.some.inj hmj).symm hjk

end EmbeddedOS.Sections
