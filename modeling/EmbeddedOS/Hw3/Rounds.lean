import EmbeddedOS.Library.Locks
import EmbeddedOS.Hw3.Framing
import EmbeddedOS.Hw3.Requests
import EmbeddedOS.Hw3.Receiving

/-!
`myclient` of `checker.cpp` and the threads of `mask_server` over their connections: the client sends a
command on each, then reads a reply on each.
-/

namespace EmbeddedOS.Hw3.Rounds

open CText Runs Receiving

/-- The loop that the client is in, with its connection; `purchasing` is the inner loop. -/
inductive Phase where
  | sending (i : ℕ)
  | receiving (i : ℕ)
  | purchasing (i : Fin 30)
  | finished

/-- A thread at its `read`, at the `write`s of a handler that are still to come, or at its end. -/
inductive Thread where
  | reading
  | writing (pending : List Text)
  | ended

/-- A connection with what both ends have of it. `up` and `down` are the bytes that were written and not read. -/
structure Line where
  commands : List Text
  connected : Bool
  up : Text
  down : Text
  thread : Thread
  buf : Text

structure World where
  phase : Phase
  lines : Fin 30 → Line
  closed_fd : ℕ
  total : ℕ
  buy_succ : ℕ
  server : Server

def Line.isOpen (l : Line) : ℤ := if l.connected then 1 else 0

def Line.unsent (l : Line) : ℤ := l.commands.length

def World.put (w : World) (i : Fin 30) (l : Line) : World := { w with lines := Function.update w.lines i l }

def send (w : World) (i : Fin 30) : World :=
  let l := w.lines i
  let w := { w with phase := .sending (i + 1) }
  match l.commands, l.connected with
  | snd :: rest, true => { w.put i { l with commands := rest, up := l.up ++ snd } with total := w.total + 1 }
  | [], true => { w.put i { l with connected := false } with closed_fd := w.closed_fd + 1 }
  | _, false => w

def Line.read (l : Line) : Text × Line := (l.down.take 1024, { l with down := l.down.drop 1024 })

/-- The second loop at connection `i`. No thread closes its connection, so that `read` waits for bytes. -/
def receive (beyond : Text) (w : World) (i : Fin 30) : World :=
  let l := w.lines i
  if l.connected = false then { w with phase := .receiving (i + 1) }
  else if l.down = [] then w
  else
    let msg := rcvText beyond l.read.1
    let w := w.put i l.read.2
    if find disinfecting msg then
      { w with
        buy_succ := w.buy_succ + 1
        phase := if find Receiving.purchase msg then .receiving (i + 1) else .purchasing i }
    else { w with phase := .receiving (i + 1) }

def receiveMore (beyond : Text) (w : World) (i : Fin 30) : World :=
  let l := w.lines i
  if l.down = [] then w
  else { w.put i l.read.2 with
    phase := if find Receiving.purchase (rcvText beyond l.read.1) then .receiving (i + 1) else .purchasing i }

def client (total_con : ℕ) (beyond : Text) (w : World) : World :=
  match w.phase with
  | .sending i => if h : i < 30 then send w ⟨i, h⟩ else { w with phase := .receiving 0 }
  | .receiving i =>
    if h : i < 30 then receive beyond w ⟨i, h⟩
    else { w with phase := if w.closed_fd < total_con then .sending 0 else .finished }
  | .purchasing i => receiveMore beyond w i
  | .finished => w

def serve (w : World) (k : Fin 30) (locals : Locals) (beyond : ℕ → ID) : World × Option Event :=
  let l := w.lines k
  match l.thread with
  | .reading =>
    if l.up = [] then
      (if l.connected then w else w.put k { l with thread := .ended }, none)
    else
      let buf := readInto l.buf (l.up.take 30)
      let e : Event := ⟨k, cstring buf, locals, beyond⟩
      let r := server.step w.server e
      ({ w.put k { l with up := l.up.drop 30, buf := memset30 buf, thread := .writing r.2.writes } with
        server := r.1 }, some e)
  | _ => (w, none)

def emit (w : World) (k : Fin 30) : World :=
  let l := w.lines k
  match l.thread with
  | .writing [] => w.put k { l with thread := .reading }
  | .writing (t :: pending) => w.put k { l with down := l.down ++ t, thread := .writing pending }
  | _ => w

inductive Action where
  | client (beyond : Text)
  | serve (k : Fin 30) (locals : Locals) (beyond : ℕ → ID)
  | emit (k : Fin 30)

def session (total_con : ℕ) : Machine World Action (Option Event) where
  step w
    | .client beyond => (client total_con beyond w, none)
    | .serve k locals beyond => serve w k locals beyond
    | .emit k => (emit w k, none)

structure Script where
  commands : Fin 30 → List Text
  buf : Fin 30 → Text

variable (b : Boot) (p : Script)

def Script.total_con : ℕ := ∑ k, if (p.commands k).isEmpty then 0 else 1

def start : World where
  phase := if 0 < p.total_con then .sending 0 else .finished
  lines k := {
    commands := p.commands k
    connected := !(p.commands k).isEmpty
    up := []
    down := []
    thread := if (p.commands k).isEmpty then .ended else .reading
    buf := p.buf k }
  closed_fd := 0
  total := 0
  buy_succ := 0
  server := b.start

def after (ts : List Action) : World := (session p.total_con).run (start b p) ts

def handled (ts : List Action) : List Event :=
  ((session p.total_con).trace (start b p) ts).filterMap Moment.out

theorem after_snoc (ts : List Action) (t : Action) :
    after b p (ts ++ [t]) = ((session p.total_con).step (after b p ts) t).1 :=
  (session p.total_con).run_snoc (start b p) ts t

inductive View where
  | idle
  | due
  | half

def Phase.view : Phase → ℕ → View
  | .sending i, k => if k < i then .due else .idle
  | .receiving i, k => if k < i then .idle else .due
  | .purchasing i, k => if k < i then .idle else if k = i then .half else .due
  | .finished, _ => .idle

/-- `done` are the `write`s of a reply that have not been read, and `rest` those to come; of a reply that is
`half` the client has read the ones before. -/
inductive Link where
  | quiet
  | asked (c : Text)
  | replying (done rest : List Text)
  | half (done rest : List Text)

def Link.request : Link → List Text
  | .asked c => [c]
  | _ => []

def Link.uncounted : Link → ℤ
  | .replying done rest => if done ++ rest = saleWrites then 1 else 0
  | _ => 0

def Plain (t : Text) : Prop := t ≠ [] ∧ t.length < 1024 ∧ 0 ∉ t ∧ ¬ find disinfecting t

instance (t : Text) : Decidable (Plain t) := inferInstanceAs (Decidable (_ ∧ _))

def Answer (writes : List Text) : Prop := writes = saleWrites ∨ ∃ t, writes = [t] ∧ Plain t

def Thread.Rest (t : Thread) (rest : List Text) : Prop := t = .writing rest ∨ (rest = [] ∧ t = .reading)

inductive Tied (l : Line) : View → Link → Prop
  | closed (v : View) (passed : v ≠ .half) (off : l.connected = false) (sent : l.commands = []) (up : l.up = [])
      (down : l.down = []) (thread : l.thread.Rest [] ∨ l.thread = .ended) : Tied l v .quiet
  | quiet (on : l.connected = true) (up : l.up = []) (down : l.down = []) (thread : l.thread.Rest []) :
      Tied l .idle .quiet
  | asked (c : Text) (on : l.connected = true) (up : l.up = c) (ne : c ≠ []) (down : l.down = [])
      (thread : l.thread.Rest []) : Tied l .due (.asked c)
  | replying (done rest : List Text) (on : l.connected = true) (up : l.up = []) (down : l.down = done.flatten)
      (thread : l.thread.Rest rest) (answer : Answer (done ++ rest)) : Tied l .due (.replying done rest)
  | half (front done rest : List Text) (on : l.connected = true) (up : l.up = []) (down : l.down = done.flatten)
      (thread : l.thread.Rest rest) (begun : front ≠ []) (more : done ++ rest ≠ [])
      (sale : front ++ (done ++ rest) = saleWrites) : Tied l .half (.half done rest)

def textsOn (h : List Event) (k : ℕ) : List Text := (h.filter fun e => e.conn = k).map Event.text

structure Kept (commands : List Text) (texts : List Text) (v : View) (l : Line) (x : Link) : Prop where
  tied : Tied l v x
  flow : texts ++ (x.request ++ l.commands) = commands
  buf : Terminated l.buf (x.request ++ l.commands)

def Phase.sent : Phase → ℕ → ℕ
  | .sending i, k => if k < i then 1 else 0
  | _, _ => 1

def InRound (p : Script) (w : World) (h : List Event) (R : ℕ) : Prop := ∀ k : Fin 30,
  min (p.commands k).length R ≤ (textsOn h k).length ∧
    (p.commands k).length - (w.lines k).commands.length = min (p.commands k).length (R + w.phase.sent k)

structure Invariant (w : World) (h : List Event) (x : Fin 30 → Link) : Prop where
  server : w.server = b.after h
  kept : ∀ k, Kept (p.commands k) (textsOn h k) (w.phase.view k) (w.lines k) (x k)
  closed : (w.closed_fd : ℤ) + ∑ k, (w.lines k).isOpen = p.total_con
  total : (w.total : ℤ) + ∑ k, (w.lines k).unsent = ∑ k, ((p.commands k).length : ℤ)
  bought : (w.buy_succ : ℤ) + ∑ k, (x k).uncounted = (b.history h).countP isSale
  round : ∃ R, InRound p w h R

def Listed : Prop :=
  (∀ i < b.num, ch 'D' ∉ (b.data (100 * i)).type ∧
    ∀ j : ℕ, j < (b.data (100 * i)).type_num →
      ch 'D' ∉ (b.data (100 * i + j)).city ∧ 0 ∉ (b.data (100 * i + j)).city) ∧
  5 + ((List.range b.num).map fun i : ℕ =>
    (b.data (100 * i)).type.length + 1 + 29 * (b.data (100 * i)).type_num.toNat).sum < 1024

theorem snprintf_length_le (size : ℕ) (t : Text) : (snprintf size t).length ≤ size - 1 := by
  rw [snprintf, List.length_take]
  exact Nat.min_le_left ..

theorem cities_length_le (g : Globals) (i : ℕ) :
    ((cities g i).flatMap fun r => snprintf 30 (cityText r ++ [newline])).length ≤
      29 * (g.row i 0).type_num.toNat := by
  rw [List.length_flatMap, cities]
  have hsum := List.sum_le_card_nsmul ((List.map (fun j : ℕ => g.row i j)
    (List.range (g.row i 0).type_num.toNat)).map fun r => (snprintf 30 (cityText r ++ [newline])).length) 29 ?_
  · simpa [mul_comm] using hsum
  · intro n hn
    obtain ⟨r, -, rfl⟩ := List.mem_map.mp hn
    exact snprintf_length_le 30 _

variable {b p}

theorem show_info_length (es : List Event) : (show_info (b.after es).globals).length ≤
    5 + ((List.range b.num).map fun i : ℕ =>
      (b.data (100 * i)).type.length + 1 + 29 * (b.data (100 * i)).type_num.toNat).sum := by
  have hnum : (b.after es).globals.num = b.num := (same_after b es).num
  rw [show_info, List.length_append, List.length_flatMap, hnum]
  apply Nat.add_le_add_left
  apply List.sum_le_sum
  intro i _
  have hcities := cities_length_le (b.after es).globals i
  rw [row_after_type_num] at hcities
  rw [List.length_append, List.length_cons, row_after_type]
  omega

theorem findType_same (es : List Event) (type : Text) :
    findType (b.after es).globals type = findType b.globals type := by
  have hnum : (b.after es).globals.num = b.globals.num := (same_after b es).num
  have htype (i : ℕ) : ((b.after es).globals.row i 0).type = (b.globals.row i 0).type :=
    (row_after_type b es i).trans (row_after_type b [] i).symm
  simp only [findType, hnum, htype]

theorem sum_put (f : Line → ℤ) (lines : Fin 30 → Line) (k : Fin 30) (l : Line) :
    ∑ j, f (Function.update lines k l j) = ∑ j, f (lines j) - f (lines k) + f l := Locks.sum_update f lines k l

theorem sum_links (x : Fin 30 → Link) (k : Fin 30) (y : Link) :
    ∑ j, (Function.update x k y j).uncounted = ∑ j, (x j).uncounted - (x k).uncounted + y.uncounted :=
  Locks.sum_update Link.uncounted x k y

theorem kept_update {v v' : ℕ → View} {lines : Fin 30 → Line} {h h' : List Event} {x : Fin 30 → Link} {k : Fin 30}
    {l : Line} {y : Link} (hkept : ∀ j, Kept (p.commands j) (textsOn h j) (v j) (lines j) (x j))
    (hview : ∀ j : ℕ, j ≠ k → v' j = v j) (htexts : ∀ j : ℕ, j ≠ k → textsOn h' j = textsOn h j)
    (hk : Kept (p.commands k) (textsOn h' k) (v' k) l y) :
    ∀ j, Kept (p.commands j) (textsOn h' j) (v' j) (Function.update lines k l j) (Function.update x k y j) := by
  intro j
  by_cases hj : j = k
  · subst hj
    rw [Function.update_self, Function.update_self]
    exact hk
  · have hval : (j : ℕ) ≠ k := fun he => hj (Fin.ext he)
    rw [Function.update_of_ne hj, Function.update_of_ne hj, hview j hval, htexts j hval]
    exact hkept j

theorem Invariant.move {w w' : World} {h : List Event} {x : Fin 30 → Link} (hinv : Invariant b p w h x)
    {k : Fin 30} {l : Line} {y : Link} (hserver : w'.server = w.server)
    (hlines : w'.lines = Function.update w.lines k l)
    (hview : ∀ j : ℕ, j ≠ k → w'.phase.view j = w.phase.view j)
    (hkept : Kept (p.commands k) (textsOn h k) (w'.phase.view k) l y)
    (hclosed : (w'.closed_fd : ℤ) + l.isOpen = w.closed_fd + (w.lines k).isOpen)
    (htotal : (w'.total : ℤ) + l.unsent = w.total + (w.lines k).unsent)
    (hbought : (w'.buy_succ : ℤ) + y.uncounted = w.buy_succ + (x k).uncounted)
    (hround : ∃ R, InRound p w' h R) : Invariant b p w' h (Function.update x k y) := by
  obtain ⟨server, kept, closed, total, bought, -⟩ := hinv
  refine ⟨hserver.trans server, ?_, ?_, ?_, ?_, hround⟩
  · rw [hlines]
    exact kept_update kept hview (fun _ _ => rfl) hkept
  · rw [hlines, sum_put]
    omega
  · rw [hlines, sum_put]
    omega
  · rw [sum_links]
    omega

theorem InRound.congr {w w' : World} {h h' : List Event} {R : ℕ} (hround : InRound p w h R)
    (htexts : ∀ k : Fin 30, (textsOn h k).length ≤ (textsOn h' k).length)
    (hcommands : ∀ k, (w'.lines k).commands = (w.lines k).commands)
    (hsent : ∀ k : Fin 30, w'.phase.sent k = w.phase.sent k) : InRound p w' h' R := by
  intro k
  obtain ⟨hlow, hcount⟩ := hround k
  rw [hcommands, hsent]
  exact ⟨hlow.trans (htexts k), hcount⟩

theorem commands_put {lines : Fin 30 → Line} {k : Fin 30} {l : Line} (h : l.commands = (lines k).commands)
    (j : Fin 30) : (Function.update lines k l j).commands = (lines j).commands := by
  by_cases hj : j = k
  · subst hj
    rw [Function.update_self, h]
  · rw [Function.update_of_ne hj]

theorem InRound.pass {w w' : World} {h : List Event} {R : ℕ} {k : Fin 30} {l : Line}
    (hround : InRound p w h R) (hphase : w.phase = .sending k) (hphase' : w'.phase = .sending (k + 1))
    (hlines : w'.lines = Function.update w.lines k l)
    (hk : (p.commands k).length - (w.lines k).commands.length = min (p.commands k).length R →
      (p.commands k).length - l.commands.length = min (p.commands k).length (R + 1)) : InRound p w' h R := by
  intro j
  obtain ⟨hlow, hcount⟩ := hround j
  refine ⟨hlow, ?_⟩
  rw [hphase, Phase.sent] at hcount
  rw [hphase', hlines, Phase.sent]
  by_cases hj : j = k
  · subst hj
    rw [Function.update_self, if_pos (Nat.lt_succ_self _)]
    apply hk
    rwa [if_neg (lt_irrefl _)] at hcount
  · have hval : (j : ℕ) ≠ k := fun he => hj (Fin.ext he)
    have hlt : (j : ℕ) < k + 1 ↔ (j : ℕ) < k := by omega
    rw [Function.update_of_ne hj]
    simpa only [hlt] using hcount

end EmbeddedOS.Hw3.Rounds
