import EmbeddedOS.Library.Sections
import EmbeddedOS.Lab6.Decoder
import EmbeddedOS.Lab6.Balance

/-!
The whole bank: the threads of `money` from the bytes of their connections to the balances they print,
with calls of `semop` that succeed.
-/

namespace EmbeddedOS.Lab6

open CText Runs Sections

def Request.printed (account : ℤ) : Request → Text
  | .deposit _ => lit "After deposit: " ++ (decimal account ++ [newline])
  | .withdraw _ => lit "After withdraw: " ++ (decimal account ++ [newline])

structure Till where
  account : ℤ
  printed : List Text

/-- The load and the store of `account`, and the `printf`; the thread has the loaded value for itself. -/
def adjust (r : Request) : Code (Till × ℤ) :=
  .act (fun x => (x.1, x.1.account)) <|
    .act (fun x => ({ x.1 with account := r.apply x.2 }, x.2)) <|
      .act (fun x => ({ x.1 with printed := x.1.printed ++ [r.printed x.1.account] }, x.2)) .done

variable {κ : Type*} [DecidableEq κ]

structure Service (κ : Type*) where
  pending : κ → Text
  receiver : κ → Receiver
  threads : State κ Till ℤ Request

inductive Move (κ : Type*) where
  | arrives (k : κ) (piece : Text)
  | reads (k : κ)
  | goes (k : κ)

/-- A thread reads a byte outside of its section only. -/
def service (beyond : Text) : Machine (Service κ) (Move κ) Unit where
  step s e :=
    match e with
    | .arrives k piece => ({ s with pending := Function.update s.pending k (s.pending k ++ piece) }, ())
    | .reads k =>
      match s.threads.status k, s.pending k with
      | .idle, ch :: rest =>
        let r := (decoder beyond).step (s.receiver k) ch
        ({ pending := Function.update s.pending k rest
           receiver := Function.update s.receiver k r.1
           threads := match r.2 with
             | none => s.threads
             | some q => ((threads adjust).step s.threads (.takes k q)).1 }, ())
      | _, _ => (s, ())
    | .goes k => ({ s with threads := ((threads adjust).step s.threads (.goes k)).1 }, ())

def Service.start (account : ℤ) : Service κ :=
  ⟨fun _ => [], fun _ => .empty, Sections.start ⟨account, []⟩ fun _ => 0⟩

abbrev Service.after (beyond : Text) (account : ℤ) (es : List (Move κ)) : Service κ :=
  (service beyond).run (Service.start account) es

def arrived (k : κ) (es : List (Move κ)) : Text := es.flatMap fun e =>
  match e with
  | .arrives j piece => if j = k then piece else []
  | _ => []

def entering (s : Service κ) : Move κ → Option (κ × Request)
  | .goes k => ((threads adjust).step s.threads (.goes k)).2.entry
  | _ => none

/-- The requests in the order in which their threads came through `P`. -/
def lockOrder (beyond : Text) (account : ℤ) (es : List (Move κ)) : List (κ × Request) :=
  ((service beyond).trace (Service.start account) es).filterMap fun q => entering q.pre q.event

def statement (account : ℤ) : List Request → List Text
  | [] => []
  | r :: rs => r.printed (r.apply account) :: statement (r.apply account) rs

theorem statement_snoc (account : ℤ) (rs : List Request) (r : Request) :
    statement account (rs ++ [r]) =
      statement account rs ++ [r.printed (r.apply (rs.foldl Request.apply account))] := by
  induction rs generalizing account with
  | nil => rfl
  | cons q rs ih => rw [List.cons_append, statement, ih, statement, List.foldl_cons, List.cons_append]

theorem adjust_run (r : Request) (till : Till) (value : ℤ) : (adjust r).run (till, value) =
    (⟨r.apply till.account, till.printed ++ [r.printed (r.apply till.account)]⟩, till.account) := rfl

theorem adjust_once (r : Request) : Code.Once (fun x : Till × ℤ => x.1.account) (adjust r) ∧
    Code.Once (fun x : Till × ℤ => x.1.printed) (adjust r) :=
  ⟨Or.inl ⟨fun _ => rfl, Or.inr ⟨fun _ => rfl, trivial⟩⟩,
    Or.inl ⟨fun _ => rfl, Or.inl ⟨fun _ => rfl, Or.inr trivial⟩⟩⟩

theorem serial_till (account : ℤ) (own : κ → ℤ) (qs : List (κ × Request)) :
    ((serial adjust).run (⟨account, []⟩, own) qs).1 =
      ⟨(qs.map Prod.snd).foldl Request.apply account, statement account (qs.map Prod.snd)⟩ := by
  induction qs using List.reverseRecOn with
  | nil => rfl
  | append_singleton qs q ih =>
    rw [Machine.run_snoc, List.map_append, List.map_singleton, List.foldl_append, statement_snoc]
    change ((adjust q.2).run (((serial adjust).run (⟨account, []⟩, own) qs).1, _)).1 = _
    rw [adjust_run, ih]
    rfl

structure Served (beyond : Text) (account : ℤ) (es : List (Move κ)) (ts : List (Sections.Turn κ Request))
    (read : κ → Text) : Prop where
  sections : (Service.after beyond account es).threads = Sections.after adjust ⟨account, []⟩ (fun _ => 0) ts
  split : ∀ k, arrived k es = read k ++ (Service.after beyond account es).pending k
  receiver : ∀ k, (Service.after beyond account es).receiver k = (decoder beyond).run .empty (read k)
  taken : ∀ k, (notes adjust ⟨account, []⟩ (fun _ => 0) ts).filterMap (Note.taken k) = decoded beyond .empty (read k)
  locked : entries adjust ⟨account, []⟩ (fun _ => 0) ts = lockOrder beyond account es

variable (beyond : Text) (account : ℤ)

theorem arrived_snoc (k : κ) (es : List (Move κ)) (e : Move κ) :
    arrived k (es ++ [e]) = arrived k es ++ arrived k [e] := by
  simp only [arrived, List.flatMap_append]

theorem after_step (es : List (Move κ)) (e : Move κ) :
    Service.after beyond account (es ++ [e]) = ((service beyond).step (Service.after beyond account es) e).1 :=
  (service beyond).run_snoc _ es e

theorem lockOrder_snoc (es : List (Move κ)) (e : Move κ) : lockOrder beyond account (es ++ [e]) =
    lockOrder beyond account es ++ (entering (Service.after beyond account es) e).toList := by
  rw [lockOrder, Machine.trace_snoc, List.filterMap_append]
  cases h : entering (Service.after beyond account es) e <;> simp [lockOrder, Machine.moment, h]

theorem lockOrder_arrives (es : List (Move κ)) (k : κ) (piece : Text) :
    lockOrder beyond account (es ++ [.arrives k piece]) = lockOrder beyond account es := by
  simp [lockOrder_snoc, entering]

theorem lockOrder_reads (es : List (Move κ)) (k : κ) :
    lockOrder beyond account (es ++ [.reads k]) = lockOrder beyond account es := by
  simp [lockOrder_snoc, entering]

theorem taken_snoc (ts : List (Sections.Turn κ Request)) (t : Sections.Turn κ Request) (k : κ) :
    (notes adjust ⟨account, []⟩ (fun _ => 0) (ts ++ [t])).filterMap (Note.taken k) =
      (notes adjust ⟨account, []⟩ (fun _ => 0) ts).filterMap (Note.taken k) ++
        (Note.taken k ((threads adjust).step (Sections.after adjust ⟨account, []⟩ (fun _ => 0) ts) t).2).toList := by
  rw [notes_snoc, List.filterMap_append]
  cases h : Note.taken k ((threads adjust).step (Sections.after adjust ⟨account, []⟩ (fun _ => 0) ts) t).2 <;> simp [h]

variable {beyond account}

theorem Served.arrives {es : List (Move κ)} {ts : List (Sections.Turn κ Request)} {read : κ → Text}
    (h : Served beyond account es ts read) (k : κ) (piece : Text) :
    Served beyond account (es ++ [.arrives k piece]) ts read := by
  have hstep : Service.after beyond account (es ++ [.arrives k piece]) =
      { Service.after beyond account es with
        pending := Function.update (Service.after beyond account es).pending k
          ((Service.after beyond account es).pending k ++ piece) } :=
    after_step beyond account es _
  constructor
  · rw [hstep]
    exact h.sections
  · intro j
    rw [hstep, arrived_snoc, h.split]
    by_cases hj : k = j
    · subst hj
      simp [arrived]
    · simp [arrived, hj, Ne.symm hj]
  · rw [hstep]
    exact h.receiver
  · exact h.taken
  · rw [h.locked, lockOrder_arrives]

theorem Served.goes {es : List (Move κ)} {ts : List (Sections.Turn κ Request)} {read : κ → Text}
    (h : Served beyond account es ts read) (k : κ) :
    Served beyond account (es ++ [.goes k]) (ts ++ [.goes k]) read := by
  have hstep : Service.after beyond account (es ++ [.goes k]) =
      { Service.after beyond account es with
        threads := ((threads adjust).step (Service.after beyond account es).threads (.goes k)).1 } :=
    after_step beyond account es _
  constructor
  · rw [hstep, Sections.after_snoc, ← h.sections]
  · intro j
    rw [hstep, arrived_snoc, h.split]
    simp [arrived]
  · rw [hstep]
    exact h.receiver
  · intro j
    rw [taken_snoc, h.taken, taken_goes, Option.toList_none, List.append_nil]
  · rw [entries_snoc, h.locked, lockOrder_snoc, entering, h.sections]

theorem Served.byte {es : List (Move κ)} {ts : List (Sections.Turn κ Request)} {read : κ → Text}
    (h : Served beyond account es ts read) {k : κ} {ch : Byte} {rest : Text}
    (hidle : (Service.after beyond account es).threads.status k = .idle)
    (hpending : (Service.after beyond account es).pending k = ch :: rest) :
    ∃ ts', Served beyond account (es ++ [.reads k]) ts' (Function.update read k (read k ++ [ch])) := by
  have hstep : Service.after beyond account (es ++ [.reads k]) =
      { pending := Function.update (Service.after beyond account es).pending k rest
        receiver := Function.update (Service.after beyond account es).receiver k
          ((decoder beyond).step ((Service.after beyond account es).receiver k) ch).1
        threads := match ((decoder beyond).step ((Service.after beyond account es).receiver k) ch).2 with
          | none => (Service.after beyond account es).threads
          | some q => ((threads adjust).step (Service.after beyond account es).threads (.takes k q)).1 } := by
    rw [after_step]
    simp only [service, hidle, hpending]
  have hsplit (j : κ) : arrived j (es ++ [.reads k]) =
      Function.update read k (read k ++ [ch]) j ++ (Service.after beyond account (es ++ [.reads k])).pending j := by
    rw [hstep, arrived_snoc, h.split]
    by_cases hj : j = k
    · subst hj
      simp [arrived, hpending]
    · simp [arrived, hj]
  have hreceiver (j : κ) : (Service.after beyond account (es ++ [.reads k])).receiver j =
      (decoder beyond).run .empty (Function.update read k (read k ++ [ch]) j) := by
    rw [hstep]
    by_cases hj : j = k
    · subst hj
      simp [h.receiver, Machine.run_snoc]
    · simp [hj, h.receiver]
  have hdecoded : decoded beyond .empty (read k ++ [ch]) = decoded beyond .empty (read k) ++
      ((decoder beyond).step ((Service.after beyond account es).receiver k) ch).2.toList := by
    rw [decoded_append, h.receiver]
    cases hout : ((decoder beyond).step ((decoder beyond).run .empty (read k)) ch).2 <;>
      simp [decoded, Machine.trace, Machine.moment, hout]
  cases hout : ((decoder beyond).step ((Service.after beyond account es).receiver k) ch).2 with
  | none =>
    refine ⟨ts, ?_, hsplit, hreceiver, fun j => ?_, h.locked.trans (lockOrder_reads beyond account es k).symm⟩
    · rw [hstep, hout]
      exact h.sections
    · rw [h.taken]
      by_cases hj : j = k
      · subst hj
        rw [Function.update_self, hdecoded, hout, Option.toList_none, List.append_nil]
      · rw [Function.update_of_ne hj]
  | some q =>
    rw [h.sections] at hidle
    refine ⟨ts ++ [.takes k q], ?_, hsplit, hreceiver, fun j => ?_, ?_⟩
    · rw [hstep, hout, Sections.after_snoc, ← h.sections]
    · rw [taken_snoc, h.taken, taken_takes adjust hidle]
      by_cases hj : j = k
      · subst hj
        rw [Function.update_self, hdecoded, hout, if_pos rfl]
      · rw [Function.update_of_ne hj, if_neg (Ne.symm hj), Option.toList_none, List.append_nil]
    · rw [entries_snoc, entry_takes adjust hidle, Option.toList_none, List.append_nil, h.locked, lockOrder_reads]

theorem served (es : List (Move κ)) : ∃ ts read, Served beyond account es ts read := by
  induction es using List.reverseRecOn with
  | nil => exact ⟨[], fun _ => [], rfl, fun _ => rfl, fun _ => rfl, fun _ => rfl, rfl⟩
  | append_singleton es e ih =>
    obtain ⟨ts, read, h⟩ := ih
    cases e with
    | arrives k piece => exact ⟨ts, read, h.arrives k piece⟩
    | goes k => exact ⟨_, read, h.goes k⟩
    | reads k =>
      have hrests (hstep : ((service beyond).step (Service.after beyond account es) (.reads k)).1 =
          Service.after beyond account es) : Served beyond account (es ++ [.reads k]) ts read := by
        rw [← after_step] at hstep
        refine ⟨by rw [hstep, h.sections], fun j => ?_, by rw [hstep]; exact h.receiver, h.taken, ?_⟩
        · rw [hstep, arrived_snoc, h.split]
          simp [arrived]
        · rw [h.locked, lockOrder_reads]
      cases hstatus : (Service.after beyond account es).threads.status k with
      | idle =>
        cases hpending : (Service.after beyond account es).pending k with
        | nil => exact ⟨ts, read, hrests (by simp [service, hstatus, hpending])⟩
        | cons ch rest =>
          obtain ⟨ts', hserved⟩ := h.byte hstatus hpending
          exact ⟨ts', _, hserved⟩
      | waits q => exact ⟨ts, read, hrests (by simp [service, hstatus])⟩
      | inside c => exact ⟨ts, read, hrests (by simp [service, hstatus])⟩

theorem Served.order {es : List (Move κ)} {ts : List (Sections.Turn κ Request)} {read : κ → Text}
    (h : Served beyond account es ts read) (k : κ) :
    decoded beyond .empty (read k) =
      ((entries adjust ⟨account, []⟩ (fun _ => 0) ts).filter fun q => q.1 = k).map Prod.snd ++
        ((Service.after beyond account es).threads.status k).pending := by
  rw [← h.taken, taken_after, h.sections]

theorem Served.decoded_prefix {es : List (Move κ)} {ts : List (Sections.Turn κ Request)} {read : κ → Text}
    (h : Served beyond account es ts read) {k : κ} {ms : List Message} (hms : ∀ m ∈ ms, m.Fits)
    (hes : arrived k es <+: clientStream ms) : decoded beyond .empty (read k) <+: ms.map Message.request := by
  obtain ⟨rest, hrest⟩ := hes
  rw [h.split, List.append_assoc] at hrest
  rw [← (decoded_stream beyond hms).2, ← hrest, decoded_append]
  exact List.prefix_append _ _

theorem changes_split [Fintype κ] (qs : List (κ × Request)) :
    changes (qs.map Prod.snd) = ∑ k, changes ((qs.filter fun q => q.1 = k).map Prod.snd) := by
  induction qs with
  | nil => simp [changes]
  | cons q qs ih =>
    have hone (k : κ) : changes (((q :: qs).filter fun q => q.1 = k).map Prod.snd) =
        (if q.1 = k then q.2.change else 0) + changes ((qs.filter fun q => q.1 = k).map Prod.snd) := by
      by_cases hk : q.1 = k
      · simp [hk, changes]
      · simp [hk, changes]
    have hcons : changes ((q :: qs).map Prod.snd) = q.2.change + changes (qs.map Prod.snd) := by
      simp [changes]
    rw [hcons, ih, Finset.sum_congr rfl fun k _ => hone k, Finset.sum_add_distrib, Finset.sum_ite_eq]
    simp

theorem foldl_apply_modEq (account : ℤ) (rs : List Request) :
    rs.foldl Request.apply account ≡ account + changes rs [ZMOD 2 ^ 32] := by
  induction rs generalizing account with
  | nil => simp [changes]
  | cons r rs ih =>
    have hcons : changes (r :: rs) = r.change + changes rs := by simp [changes]
    calc (r :: rs).foldl Request.apply account ≡ r.apply account + changes rs [ZMOD 2 ^ 32] := ih _
      _ ≡ account + r.change + changes rs [ZMOD 2 ^ 32] := (apply_modEq account r).add_right _
      _ = account + changes (r :: rs) := by rw [hcons, add_assoc]

theorem service_balances [Fintype κ] {ms : κ → List Message} (hms : ∀ k, ∀ m ∈ ms k, m.Fits) (beyond : Text)
    (account : ℤ) (es : List (Move κ)) (hes : ∀ k, arrived k es <+: clientStream (ms k)) :
    (∀ k, ((lockOrder beyond account es).filter fun q => q.1 = k).map Prod.snd <+: (ms k).map Message.request) ∧
    (∃ qs, (qs = lockOrder beyond account es ∨ qs = (lockOrder beyond account es).dropLast) ∧
      (Service.after beyond account es).threads.shared.account = (qs.map Prod.snd).foldl Request.apply account) ∧
    (∃ qs, (qs = lockOrder beyond account es ∨ qs = (lockOrder beyond account es).dropLast) ∧
      (Service.after beyond account es).threads.shared.printed = statement account (qs.map Prod.snd)) ∧
    ((∀ k, arrived k es = clientStream (ms k) ∧ (Service.after beyond account es).pending k = [] ∧
        (Service.after beyond account es).threads.status k = .idle) →
      (∀ k, ((lockOrder beyond account es).filter fun q => q.1 = k).map Prod.snd = (ms k).map Message.request) ∧
      (Service.after beyond account es).threads.shared.printed =
        statement account ((lockOrder beyond account es).map Prod.snd) ∧
      (Service.after beyond account es).threads.shared.account ≡
        account + ∑ k, changes ((ms k).map Message.request) [ZMOD 2 ^ 32]) := by
  have hserved : ∃ ts read, Served beyond account es ts read := served es
  obtain ⟨ts, read, h⟩ := hserved
  have hserial := serial_till account (fun _ : κ => 0)
  rw [← h.locked]
  refine ⟨fun k => ?_, ?_, ?_, fun hall => ?_⟩
  · have hprefix := h.decoded_prefix (hms k) (hes k)
    rw [h.order] at hprefix
    exact (List.prefix_append _ _).trans hprefix
  · obtain ⟨qs, hqs, hseen⟩ := seen_after adjust (f := Till.account) (fun r => (adjust_once r).1) ⟨account, []⟩
      (fun _ : κ => 0) ts
    refine ⟨qs, hqs, ?_⟩
    rw [h.sections, hseen, hserial]
  · obtain ⟨qs, hqs, hseen⟩ := seen_after adjust (f := Till.printed) (fun r => (adjust_once r).2) ⟨account, []⟩
      (fun _ : κ => 0) ts
    refine ⟨qs, hqs, ?_⟩
    rw [h.sections, hseen, hserial]
  · have hall' (k : κ) : ((entries adjust ⟨account, []⟩ (fun _ => 0) ts).filter fun q => q.1 = k).map Prod.snd =
        (ms k).map Message.request := by
      obtain ⟨harrived, hpending, hstatus⟩ := hall k
      have hread := h.split k
      rw [hpending, List.append_nil, harrived] at hread
      have horder := h.order k
      rw [hstatus, ← hread, (decoded_stream beyond (hms k)).2] at horder
      simpa [Status.pending] using horder.symm
    have hfree : (Service.after beyond account es).threads.mutex = none := by
      rw [h.sections]
      by_contra hmutex
      obtain ⟨k, hk⟩ := Option.ne_none_iff_exists'.mp hmutex
      obtain ⟨c, hc⟩ := (guarded_after adjust ⟨account, []⟩ (fun _ => 0) ts k).mp hk
      rw [← h.sections, (hall k).2.2] at hc
      cases hc
    have hsettled := settled_after adjust ⟨account, []⟩ (fun _ : κ => 0) ts
    rw [← h.sections, settled_free hfree] at hsettled
    have hshared : (Service.after beyond account es).threads.shared = _ := congrArg Prod.fst hsettled
    rw [hserial] at hshared
    refine ⟨hall', by rw [hshared], ?_⟩
    rw [hshared]
    have htotal := foldl_apply_modEq account ((entries adjust ⟨account, []⟩ (fun _ : κ => 0) ts).map Prod.snd)
    rw [changes_split, Finset.sum_congr rfl fun k _ => congrArg changes (hall' k)] at htotal
    exact htotal

def twoMessages (k : Bool) : List Message :=
  if k then [⟨.withdraw, lit "-007", -7⟩] else [⟨.deposit, lit "+50", 50⟩]

theorem twoMessages_fit : ∀ k, ∀ m ∈ twoMessages k, m.Fits := by
  intro k m hm
  apply sampleMessages_fit
  cases k with
  | false => exact List.mem_cons.mpr (Or.inl (List.mem_singleton.mp hm))
  | true => exact List.mem_cons_of_mem _ hm

def twoMoves : List (Move Bool) := List.flatten [
  [.arrives false (lit "deposit +5"), .arrives true (lit "withdraw -007\n"), .arrives false (lit "0\n")],
  List.replicate 12 (.reads false), List.replicate 14 (.reads true), [.goes true, .goes false],
  List.replicate 4 (.goes true), List.replicate 5 (.goes false)]

theorem service_balances_two :
    lockOrder [] 100 twoMoves = [(true, .withdraw (-7)), (false, .deposit 50)] ∧
    (Service.after [] 100 twoMoves).threads.shared.printed =
      [lit "After withdraw: 107\n", lit "After deposit: 157\n"] ∧
    (Service.after [] 100 twoMoves).threads.shared.account ≡ 157 [ZMOD 2 ^ 32] := by
  have horder : lockOrder [] 100 twoMoves = [(true, .withdraw (-7)), (false, .deposit 50)] := by decide +kernel
  have hes : ∀ k, arrived k twoMoves = clientStream (twoMessages k) := by decide +kernel
  have hread : ∀ k, (Service.after [] 100 twoMoves).pending k = [] := by decide +kernel
  have hidle : ∀ k, (Service.after [] 100 twoMoves).threads.status k = .idle := by decide +kernel
  have hsum : 100 + ∑ k, changes ((twoMessages k).map Message.request) = 157 := by decide +kernel
  have hprefix : ∀ k, arrived k twoMoves <+: clientStream (twoMessages k) := by
    intro k
    rw [hes k]
  obtain ⟨-, -, -, hall⟩ := service_balances twoMessages_fit [] 100 twoMoves hprefix
  obtain ⟨-, hprinted, haccount⟩ := hall fun k => ⟨hes k, hread k, hidle k⟩
  rw [hsum] at haccount
  rw [horder] at hprinted
  exact ⟨horder, hprinted.trans (by decide +kernel), haccount⟩

end EmbeddedOS.Lab6
