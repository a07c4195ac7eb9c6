import EmbeddedOS.Library.Scanning
import EmbeddedOS.Library.Runs
import EmbeddedOS.Library.Locks

/-!
The bank of `server.cpp` of lab 6: threads that run `money`, one shared `account`, and the
semaphore that `P` and `V` work on. A step is one call or one memory access of one thread.
-/

namespace EmbeddedOS.Lab6

open CText Runs Locks

inductive Request where
  | deposit (amount : ℤ)
  | withdraw (amount : ℤ)
  deriving DecidableEq

def Request.apply (account : ℤ) : Request → ℤ
  | .deposit amount => int32 (account + amount)
  | .withdraw amount => int32 (account - amount)

def Request.change : Request → ℤ
  | .deposit amount => amount
  | .withdraw amount => -amount

def readRequest (buf : Text) : Option Request :=
  if startsWith (lit "deposit") buf then some (.deposit (atoi (buf.drop 8)))
  else if startsWith (lit "withdraw") buf then some (.withdraw (atoi (buf.drop 9)))
  else none

theorem atoi_numeral {n : ℤ} {w : Text} (h : Numeral n w) (hn : IsInt32 n) : atoi w = n := by
  have hs := @scanInt_numeral [] w [] n (by simp) h hn (stops_nil _)
  simp only [List.nil_append, List.append_nil] at hs
  simp [atoi, hs]

theorem numeral_newline {n : ℤ} {w : Text} (h : Numeral n w) : newline ∉ w := by
  intro hm
  exact absurd (h.isWord.2 newline hm) (by decide)

theorem readRequest_deposit {n : ℤ} {w : Text} (h : Numeral n w) (hn : IsInt32 n) :
    readRequest (lit "deposit" ++ 32 :: w) = some (.deposit n) := by
  have hd : startsWith (lit "deposit") (lit "deposit" ++ 32 :: w) = true := (startsWith_iff _ _).mpr ⟨_, rfl⟩
  have hamount : (lit "deposit" ++ 32 :: w).drop 8 = w := rfl
  rw [readRequest, if_pos hd, hamount, atoi_numeral h hn]

theorem readRequest_withdraw {n : ℤ} {w : Text} (h : Numeral n w) (hn : IsInt32 n) :
    readRequest (lit "withdraw" ++ 32 :: w) = some (.withdraw n) := by
  have hd : startsWith (lit "deposit") (lit "withdraw" ++ 32 :: w) = false := rfl
  have hw : startsWith (lit "withdraw") (lit "withdraw" ++ 32 :: w) = true := (startsWith_iff _ _).mpr ⟨_, rfl⟩
  have hamount : (lit "withdraw" ++ 32 :: w).drop 9 = w := rfl
  rw [readRequest, hd, if_neg Bool.false_ne_true, if_pos hw, hamount, atoi_numeral h hn]

theorem message_newline {action w : Text} {n : ℤ} (ha : newline ∉ action) (h : Numeral n w) :
    newline ∉ action ++ 32 :: w := by
  have hw := numeral_newline h
  have hb : newline ≠ 32 := by decide
  simp only [List.mem_append, List.mem_cons, not_or]
  exact ⟨ha, hb, hw⟩

/-- Where `money` stands: before `P`, before the load of `account`, before the store, before the
`printf`, before `V`. -/
inductive Pc where
  | outside
  | entered
  | loaded (value : ℤ)
  | stored
  | printed
  deriving DecidableEq

/-- `locked` is whether the last `P` returned 0, which the code does not look at. -/
structure Thread where
  pc : Pc
  todo : List Request
  locked : Bool
  deriving DecidableEq

structure Bank (ι : Type*) where
  account : ℤ
  sem : ℕ
  thread : ι → Thread

/-- One step of one thread; `fails` is whether a `semop` in this step returns -1. -/
structure Turn (ι : Type*) where
  thread : ι
  fails : Bool

variable {ι : Type*} [DecidableEq ι]

def Bank.put (s : Bank ι) (k : ι) (t : Thread) : Bank ι := { s with thread := Function.update s.thread k t }

def money : Machine (Bank ι) (Turn ι) (Option ℤ) where
  step s e :=
    let t := s.thread e.thread
    match t.todo with
    | [] => (s, none)
    | r :: rest =>
      match t.pc with
      | .outside =>
        if e.fails then (s.put e.thread { t with pc := .entered, locked := false }, none)
        -- the thread sleeps in `semop`
        else if s.sem = 0 then (s, none)
        else ({ s with sem := s.sem - 1 }.put e.thread { t with pc := .entered, locked := true }, none)
      | .entered => (s.put e.thread { t with pc := .loaded s.account }, none)
      | .loaded value => ({ s with account := r.apply value }.put e.thread { t with pc := .stored }, none)
      | .stored => (s.put e.thread { t with pc := .printed }, some s.account)
      | .printed =>
        let sem := if e.fails then s.sem else s.sem + 1
        ({ s with sem := sem }.put e.thread { t with pc := .outside, todo := rest }, none)

def Bank.start (account : ℤ) (todo : ι → List Request) : Bank ι :=
  ⟨account, 1, fun k => ⟨.outside, todo k, false⟩⟩

abbrev Bank.after (account : ℤ) (todo : ι → List Request) (es : List (Turn ι)) : Bank ι :=
  money.run (Bank.start account todo) es

abbrev Bank.history (account : ℤ) (todo : ι → List Request) (es : List (Turn ι)) :
    List (Moment (Bank ι) (Turn ι) (Option ℤ)) :=
  money.trace (Bank.start account todo) es

inductive Stepped (s : Bank ι) (e : Turn ι) (s' : Bank ι) : Prop
  | waits (same : s' = s)
  | locks (at_P : (s.thread e.thread).pc = .outside) (succeeds : e.fails = false) (free : s.sem ≠ 0)
      (post : s' = { s with sem := s.sem - 1 }.put e.thread
        { s.thread e.thread with pc := .entered, locked := true })
  | intrudes (at_P : (s.thread e.thread).pc = .outside) (fails : e.fails = true)
      (pending : (s.thread e.thread).todo ≠ [])
      (post : s' = s.put e.thread { s.thread e.thread with pc := .entered, locked := false })
  | loads (at_load : (s.thread e.thread).pc = .entered)
      (post : s' = s.put e.thread { s.thread e.thread with pc := .loaded s.account })
  | stores (value : ℤ) (r : Request) (rest : List Request)
      (at_store : (s.thread e.thread).pc = .loaded value) (request : (s.thread e.thread).todo = r :: rest)
      (post : s' = { s with account := r.apply value }.put e.thread { s.thread e.thread with pc := .stored })
  | prints (at_printf : (s.thread e.thread).pc = .stored)
      (post : s' = s.put e.thread { s.thread e.thread with pc := .printed })
  | unlocks (sem : ℕ) (r : Request) (rest : List Request) (at_V : (s.thread e.thread).pc = .printed)
      (request : (s.thread e.thread).todo = r :: rest)
      (release : sem = if e.fails then s.sem else s.sem + 1)
      (post : s' = { s with sem := sem }.put e.thread
        { s.thread e.thread with pc := .outside, todo := rest })

theorem money_stepped (s : Bank ι) (e : Turn ι) : Stepped s e (money.step s e).1 := by
  cases ht : (s.thread e.thread).todo with
  | nil => exact .waits (by simp [money, ht])
  | cons r rest =>
    cases hp : (s.thread e.thread).pc with
    | outside =>
      cases hf : e.fails with
      | true => exact .intrudes hp hf (by simp [ht]) (by simp [money, ht, hp, hf])
      | false =>
        by_cases hs : s.sem = 0
        · exact .waits (by simp [money, ht, hp, hf, hs])
        · exact .locks hp hf hs (by simp [money, ht, hp, hf, hs])
    | entered => exact .loads hp (by simp [money, ht, hp])
    | loaded value => exact .stores value r rest hp ht (by simp [money, ht, hp])
    | stored => exact .prints hp (by simp [money, ht, hp])
    | printed => exact .unlocks _ r rest hp ht rfl (by simp [money, ht, hp])

section Put

variable (s : Bank ι) (k : ι) (t : Thread)

@[simp] theorem put_account : (s.put k t).account = s.account := rfl
@[simp] theorem put_sem : (s.put k t).sem = s.sem := rfl
@[simp] theorem put_thread : (s.put k t).thread = Function.update s.thread k t := rfl

end Put

section Inside

variable {ι : Type*} [Fintype ι]

def Bank.inside (s : Bank ι) : Finset ι := Finset.univ.filter fun k => (s.thread k).pc ≠ .outside

theorem mem_inside (s : Bank ι) (k : ι) : k ∈ s.inside ↔ (s.thread k).pc ≠ .outside := by
  simp [Bank.inside]

theorem mem_inside_of {s : Bank ι} {k : ι} {pc : Pc} (hpc : (s.thread k).pc = pc) (hne : pc ≠ .outside) :
    k ∈ s.inside := by
  rw [mem_inside, hpc]
  exact hne

variable [DecidableEq ι]

theorem inside_put (s : Bank ι) (k : ι) (t : Thread) :
    (s.put k t).inside = if t.pc = .outside then s.inside.erase k else insert k s.inside := by
  ext l
  by_cases hl : l = k
  · subst hl
    split_ifs with ht <;> simp [mem_inside, ht]
  · split_ifs <;> simp [mem_inside, hl]

theorem inside_put_same {s : Bank ι} {k : ι} {t : Thread} (hk : k ∈ s.inside) (ht : t.pc ≠ .outside) :
    (s.put k t).inside = s.inside := by
  rw [inside_put, if_neg ht, Finset.insert_eq_of_mem hk]

end Inside

end EmbeddedOS.Lab6
