import EmbeddedOS.Library.Bytes
import EmbeddedOS.Library.Runs

/-!
Lab 4: `writer.cpp` puts digits into the device of `mydev.c`, `reader.cpp` sends what the device makes of
them over a connection, and `seg.py` shows it on a display of seven segments.
-/

namespace EmbeddedOS.Lab4

open CText Runs

def rbuf_0 : Text := [1, 1, 1, 1, 1, 1, 0]
def rbuf_1 : Text := [0, 1, 1, 0, 0, 0, 0]
def rbuf_2 : Text := [1, 1, 0, 1, 1, 0, 1]
def rbuf_3 : Text := [1, 1, 1, 1, 0, 0, 1]
def rbuf_4 : Text := [0, 1, 1, 0, 0, 1, 1]
def rbuf_5 : Text := [1, 0, 1, 1, 0, 1, 1]
def rbuf_6 : Text := [1, 0, 1, 1, 1, 1, 1]
def rbuf_7 : Text := [1, 1, 1, 0, 0, 0, 0]
def rbuf_8 : Text := [1, 1, 1, 1, 1, 1, 1]
def rbuf_9 : Text := [1, 1, 1, 1, 0, 1, 1]

/-- The seven bytes that `copy_to_user` stores; the call returns 0. -/
def my_read (kbuf : Byte) : Text :=
  match (kbuf.toNat : ℤ) - 48 with
  | 0 => rbuf_0
  | 1 => rbuf_1
  | 2 => rbuf_2
  | 3 => rbuf_3
  | 4 => rbuf_4
  | 5 => rbuf_5
  | 6 => rbuf_6
  | 7 => rbuf_7
  | 8 => rbuf_8
  | 9 => rbuf_9
  | _ => [0, 0, 0, 0, 0, 0, 0]

def wbuf : Text := lit "9876543210"

/-- `reader.cpp` before its `read`, before its `write`, and after the loop; `j` counts the reads. -/
inductive Reader where
  | reading (j : ℕ)
  | writing (j : ℕ)
  | closed

/-- `kbuf` of the device, the bytes that the writer has still to write, `buf` of the reader, the bytes on the
connection, and which of the segments are red. -/
structure World where
  kbuf : Byte
  todo : Text
  reader : Reader
  buf : Text
  stream : Text
  segs : List Bool

def Digit.show : List Bool → Text → List Bool
  | _ :: segs, on :: digits => (on != 0) :: Digit.show segs digits
  | segs, _ => segs

inductive Action where
  | writes
  | reads
  | sends
  | updates
  deriving DecidableEq

/-- The output is the tuple that `update` prints; `clisock.recv(7)` waits while there is nothing to receive. -/
def lab4 : Machine World Action (Option Text) where
  step w e :=
    match e with
    | .writes =>
      match w.todo with
      | [] => (w, none)
      | c :: rest => ({ w with kbuf := c, todo := rest }, none)
    | .reads =>
      match w.reader with
      | .reading j => ({ w with buf := my_read w.kbuf ++ w.buf.drop 7, reader := .writing (j + 1) }, none)
      | _ => (w, none)
    | .sends =>
      match w.reader with
      | .writing j =>
        ({ w with stream := w.stream ++ w.buf.take 7, reader := if j = 10 then .closed else .reading j }, none)
      | _ => (w, none)
    | .updates =>
      if w.stream = [] then (w, none)
      else ({ w with stream := w.stream.drop 7, segs := Digit.show w.segs (w.stream.take 7) }, some (w.stream.take 7))

def start : World := ⟨0, wbuf, .reading 0, List.replicate 8 0, [], List.replicate 7 false⟩

abbrev after (es : List Action) : World := lab4.run start es

def shown (es : List Action) : List Text := (lab4.trace start es).filterMap Moment.out

/-- How many bytes the writer had written when the reader read the device, read after read. -/
def samples (es : List Action) : List ℕ := (lab4.trace start es).filterMap fun q =>
  match q.event, q.pre.reader with
  | .reads, .reading _ => some (wbuf.length - q.pre.todo.length)
  | _, _ => none

def kept (n : ℕ) : Byte := (0 :: wbuf).getD n 0

theorem my_read_length (c : Byte) : (my_read c).length = 7 := by
  unfold my_read
  split <;> rfl

theorem my_read_injective : ∀ m ≤ 10, ∀ n ≤ 10, my_read (kept m) = my_read (kept n) → m = n := by decide

theorem show_frame {segs : List Bool} {frame : Text} (h : segs.length = frame.length) :
    Digit.show segs frame = frame.map (· != 0) := by
  induction frame generalizing segs with
  | nil => simpa [Digit.show] using h
  | cons on digits ih =>
    cases segs with
    | nil => cases h
    | cons x segs => rw [Digit.show, ih (by simpa using h), List.map_cons]

section Snoc

variable (es : List Action) (e : Action)

theorem after_snoc : after (es ++ [e]) = (lab4.step (after es) e).1 := lab4.run_snoc start es e

theorem shown_snoc : shown (es ++ [e]) = shown es ++ (lab4.step (after es) e).2.toList := by
  rw [shown, lab4.trace_snoc, List.filterMap_append, shown]
  cases h : (lab4.step (after es) e).2 <;> simp [Machine.moment, h]

theorem samples_reads {j : ℕ} (h : (after es).reader = .reading j) :
    samples (es ++ [.reads]) = samples es ++ [wbuf.length - (after es).todo.length] := by
  rw [samples, lab4.trace_snoc, List.filterMap_append, samples]
  simp [Machine.moment, h]

theorem samples_other (h : e = .reads → ∀ j, (after es).reader ≠ .reading j) : samples (es ++ [e]) = samples es := by
  rw [samples, lab4.trace_snoc, List.filterMap_append, samples]
  cases e with
  | reads =>
    cases hreader : (after es).reader with
    | reading j => exact absurd hreader (h rfl j)
    | writing j => simp [Machine.moment, hreader]
    | closed => simp [Machine.moment, hreader]
  | writes => simp [Machine.moment]
  | sends => simp [Machine.moment]
  | updates => simp [Machine.moment]

end Snoc

def Reader.count : Reader → ℕ
  | .reading j => j
  | .writing j => j
  | .closed => 10

def World.held (w : World) : List Text :=
  match w.reader with
  | .writing _ => [w.buf.take 7]
  | _ => []

structure Sampled (w : World) (lines : List Text) (samples : List ℕ) (inflight : List Text) (written : ℕ) : Prop where
  frames : lines ++ (inflight ++ w.held) = samples.map fun n => my_read (kept n)
  stream : w.stream = inflight.flatten
  ordered : samples.Pairwise (· ≤ ·)
  past : ∀ n ∈ samples, n ≤ written
  written_le : written ≤ 10
  kbuf : w.kbuf = kept written
  todo : w.todo = wbuf.drop written
  count : samples.length = w.reader.count
  unread : ∀ j, w.reader = .reading j → j < 10
  unsent : ∀ j, w.reader = .writing j → j ≤ 10
  segs : w.segs.length = 7
  screen : ∀ frame, lines.getLast? = some frame → w.segs = frame.map (· != 0)

section Invariant

variable {w : World} {lines : List Text} {samples : List ℕ} {inflight : List Text} {written : ℕ}

theorem sampled_start : Sampled start [] [] [] 0 := by
  refine ⟨rfl, rfl, List.Pairwise.nil, by simp, Nat.zero_le _, rfl, rfl, rfl, ?_, ?_, rfl, by simp⟩
  · intro j hj
    injection hj with hj
    omega
  · intro j hj
    cases hj

theorem Sampled.written_eq (h : Sampled w lines samples inflight written) :
    wbuf.length - w.todo.length = written := by
  have hle := h.written_le
  have hten : wbuf.length = 10 := rfl
  rw [h.todo, List.length_drop]
  omega

theorem Sampled.frame_length (h : Sampled w lines samples inflight written) :
    (∀ frame ∈ lines, frame.length = 7) ∧ (∀ frame ∈ inflight, frame.length = 7) := by
  have hall : ∀ frame ∈ lines ++ (inflight ++ w.held), frame.length = 7 := by
    rw [h.frames]
    intro frame hframe
    obtain ⟨n, -, rfl⟩ := List.mem_map.mp hframe
    exact my_read_length _
  constructor
  · intro frame hframe
    exact hall frame (List.mem_append_left _ hframe)
  · intro frame hframe
    exact hall frame (List.mem_append_right _ (List.mem_append_left _ hframe))

theorem wbuf_step {n : ℕ} {c : Byte} {rest : Text} (h : wbuf.drop n = c :: rest) :
    n < 10 ∧ c = kept (n + 1) ∧ rest = wbuf.drop (n + 1) := by
  have hlen : n < wbuf.length := by
    by_contra hge
    rw [List.drop_eq_nil_of_le (not_lt.mp hge)] at h
    cases h
  rw [List.drop_eq_getElem_cons hlen, List.cons.injEq] at h
  refine ⟨hlen, ?_, h.2.symm⟩
  rw [kept, List.getD_cons_succ, List.getD_eq_getElem _ _ hlen, h.1]

theorem Sampled.writes (h : Sampled w lines samples inflight written) {c : Byte} {rest : Text}
    (htodo : w.todo = c :: rest) :
    Sampled { w with kbuf := c, todo := rest } lines samples inflight (written + 1) := by
  obtain ⟨frames, stream, ordered, past, -, -, todo, count, unread, unsent, segs, screen⟩ := h
  obtain ⟨hlt, hc, hrest⟩ := wbuf_step (todo.symm.trans htodo)
  refine ⟨frames, stream, ordered, ?_, hlt, hc, hrest, count, unread, unsent, segs, screen⟩
  intro n hn
  exact (past n hn).trans (Nat.le_succ _)

theorem Sampled.reads (h : Sampled w lines samples inflight written) {j : ℕ} (hreader : w.reader = .reading j) :
    Sampled { w with buf := my_read w.kbuf ++ w.buf.drop 7, reader := .writing (j + 1) } lines
      (samples ++ [written]) inflight written := by
  obtain ⟨frames, stream, ordered, past, written_le, kbuf, todo, count, unread, unsent, segs, screen⟩ := h
  refine ⟨?_, stream, ?_, ?_, written_le, kbuf, todo, ?_, ?_, ?_, segs, screen⟩
  · have hheld : w.held = [] := by rw [World.held, hreader]
    have htake : (my_read w.kbuf ++ w.buf.drop 7).take 7 = my_read w.kbuf := by
      rw [← my_read_length w.kbuf, List.take_left]
    rw [hheld, List.append_nil] at frames
    change lines ++ (inflight ++ [(my_read w.kbuf ++ w.buf.drop 7).take 7]) = _
    rw [htake, kbuf, ← List.append_assoc, frames, List.map_append, List.map_singleton]
  · rw [List.pairwise_append]
    refine ⟨ordered, List.pairwise_singleton _ _, fun m hm n hn => ?_⟩
    rw [List.mem_singleton.mp hn]
    exact past m hm
  · intro n hn
    rcases List.mem_append.mp hn with hn | hn
    · exact past n hn
    · exact (List.mem_singleton.mp hn).le
  · rw [List.length_append, count, hreader]
    rfl
  · intro i hi
    cases hi
  · intro i hi
    injection hi with hi
    have hlt := unread j hreader
    omega

theorem Sampled.sends (h : Sampled w lines samples inflight written) {j : ℕ} (hreader : w.reader = .writing j) :
    Sampled { w with stream := w.stream ++ w.buf.take 7, reader := if j = 10 then .closed else .reading j } lines
      samples (inflight ++ [w.buf.take 7]) written := by
  obtain ⟨frames, stream, ordered, past, written_le, kbuf, todo, count, unread, unsent, segs, screen⟩ := h
  have hheld : w.held = [w.buf.take 7] := by rw [World.held, hreader]
  have hle := unsent j hreader
  refine ⟨?_, ?_, ordered, past, written_le, kbuf, todo, ?_, ?_, ?_, segs, screen⟩
  · have hnone : ({ w with
        stream := w.stream ++ w.buf.take 7
        reader := if j = 10 then .closed else .reading j } : World).held = [] := by
      by_cases hj : j = 10 <;> simp [World.held, hj]
    rw [hnone, List.append_nil, ← hheld, frames]
  · rw [List.flatten_append, List.flatten_singleton, ← stream]
  · rw [count, hreader]
    by_cases hj : j = 10
    · simp [Reader.count, hj]
    · simp [Reader.count, hj]
  · intro i hi
    by_cases hj : j = 10
    · simp [hj] at hi
    · simp only [hj, ↓reduceIte, Reader.reading.injEq] at hi
      omega
  · intro i hi
    by_cases hj : j = 10 <;> simp [hj] at hi

theorem Sampled.updates (h : Sampled w lines samples inflight written) (hstream : w.stream ≠ []) :
    ∃ rest, Sampled { w with stream := w.stream.drop 7, segs := Digit.show w.segs (w.stream.take 7) }
      (lines ++ [w.stream.take 7]) samples rest written := by
  have hlength := h.frame_length.2
  obtain ⟨frames, stream, ordered, past, written_le, kbuf, todo, count, unread, unsent, segs, screen⟩ := h
  cases inflight with
  | nil => exact absurd stream hstream
  | cons frame rest =>
    have hframe := hlength frame (List.mem_cons_self ..)
    rw [List.flatten_cons] at stream
    have htake : w.stream.take 7 = frame := by rw [stream, ← hframe, List.take_left]
    have hdrop : w.stream.drop 7 = rest.flatten := by rw [stream, ← hframe, List.drop_left]
    have hshow : Digit.show w.segs frame = frame.map (· != 0) := show_frame (segs.trans hframe.symm)
    refine ⟨rest, ?_, hdrop, ordered, past, written_le, kbuf, todo, count, unread, unsent, ?_, ?_⟩
    · rw [htake, ← frames, List.append_assoc]
      rfl
    · rw [htake, hshow, List.length_map, hframe]
    · intro last hlast
      rw [List.getLast?_append_of_ne_nil _ (List.cons_ne_nil _ _), List.getLast?_singleton, Option.some.injEq] at hlast
      rw [← hlast, htake, hshow]

theorem sampled_after (es : List Action) : ∃ inflight written,
    Sampled (after es) (shown es) (Lab4.samples es) inflight written := by
  induction es using List.reverseRecOn with
  | nil => exact ⟨[], 0, sampled_start⟩
  | append_singleton es e ih =>
    obtain ⟨inflight, written, h⟩ := ih
    have hidle (hreads : e = .reads → ∀ j, (after es).reader ≠ .reading j)
        (hstep : lab4.step (after es) e = (after es, none)) : ∃ inflight written,
        Sampled (after (es ++ [e])) (shown (es ++ [e])) (Lab4.samples (es ++ [e])) inflight written := by
      rw [after_snoc, shown_snoc, samples_other es e hreads, hstep, Option.toList_none, List.append_nil]
      exact ⟨inflight, written, h⟩
    cases e with
    | writes =>
      cases htodo : (after es).todo with
      | nil => exact hidle (by simp) (by simp [lab4, htodo])
      | cons c rest =>
        have hstep : lab4.step (after es) .writes = ({ after es with kbuf := c, todo := rest }, none) := by
          simp [lab4, htodo]
        rw [after_snoc, shown_snoc, samples_other es _ (by simp), hstep, Option.toList_none, List.append_nil]
        exact ⟨_, _, h.writes htodo⟩
    | reads =>
      cases hreader : (after es).reader with
      | reading j =>
        have hstep : lab4.step (after es) .reads = ({ after es with
            buf := my_read (after es).kbuf ++ (after es).buf.drop 7, reader := .writing (j + 1) }, none) := by
          simp [lab4, hreader]
        rw [after_snoc, shown_snoc, samples_reads es hreader, h.written_eq, hstep, Option.toList_none, List.append_nil]
        exact ⟨_, _, h.reads hreader⟩
      | writing j => exact hidle (by simp [hreader]) (by simp [lab4, hreader])
      | closed => exact hidle (by simp [hreader]) (by simp [lab4, hreader])
    | sends =>
      cases hreader : (after es).reader with
      | reading j => exact hidle (by simp) (by simp [lab4, hreader])
      | writing j =>
        have hstep : lab4.step (after es) .sends = ({ after es with
            stream := (after es).stream ++ (after es).buf.take 7
            reader := if j = 10 then .closed else .reading j }, none) := by
          simp [lab4, hreader]
        rw [after_snoc, shown_snoc, samples_other es _ (by simp), hstep, Option.toList_none, List.append_nil]
        exact ⟨_, _, h.sends hreader⟩
      | closed => exact hidle (by simp) (by simp [lab4, hreader])
    | updates =>
      by_cases hstream : (after es).stream = []
      · exact hidle (by simp) (by simp [lab4, hstream])
      · have hstep : lab4.step (after es) .updates = ({ after es with
            stream := (after es).stream.drop 7
            segs := Digit.show (after es).segs ((after es).stream.take 7) }, some ((after es).stream.take 7)) := by
          simp [lab4, hstream]
        obtain ⟨rest, hnext⟩ := h.updates hstream
        rw [after_snoc, shown_snoc, samples_other es _ (by simp), hstep, Option.toList_some]
        exact ⟨rest, written, hnext⟩

theorem Sampled.descends (h : Sampled w lines samples inflight written) {i j m n : ℕ} (hij : i ≤ j)
    (hi : lines[i]? = some (my_read (kept m))) (hj : lines[j]? = some (my_read (kept n))) (hm : m ≤ 10)
    (hn : n ≤ 10) : m ≤ n := by
  have hsample {k d : ℕ} (hk : lines[k]? = some (my_read (kept d))) (hd : d ≤ 10) : samples[k]? = some d := by
    have hframe : (lines ++ (inflight ++ w.held))[k]? = lines[k]? :=
      List.getElem?_append_left (List.getElem?_eq_some_iff.mp hk).1
    rw [h.frames, hk, List.getElem?_map] at hframe
    cases hs : samples[k]? with
    | none => simp [hs] at hframe
    | some c =>
      simp only [hs, Option.map_some, Option.some.injEq] at hframe
      have hc := (h.past c (List.mem_of_getElem? hs)).trans h.written_le
      rw [my_read_injective c hc d hd hframe]
  obtain ⟨hi', hm'⟩ := List.getElem?_eq_some_iff.mp (hsample hi hm)
  obtain ⟨hj', hn'⟩ := List.getElem?_eq_some_iff.mp (hsample hj hn)
  rcases Nat.eq_or_lt_of_le hij with rfl | hlt
  · exact (hm'.symm.trans hn').le
  · rw [← hm', ← hn']
    exact List.pairwise_iff_getElem.mp h.ordered i j hi' hj' hlt

end Invariant

theorem display_counts_down (es : List Action) :
    shown es = ((samples es).take (shown es).length).map (fun n => my_read (kept n)) ∧
    (samples es).length ≤ 10 ∧ (samples es).Pairwise (· ≤ ·) ∧
    (∀ i j m n : ℕ, i ≤ j → (shown es)[i]? = some (my_read (kept m)) → (shown es)[j]? = some (my_read (kept n)) →
      m ≤ 10 → n ≤ 10 → m ≤ n) ∧
    (∀ frame, (shown es).getLast? = some frame → (after es).segs = frame.map (· != 0)) ∧
    ((after es).reader = .closed → (after es).stream = [] → (shown es).length = 10) := by
  obtain ⟨inflight, written, h⟩ := sampled_after es
  have hlength := h.frame_length.2
  have hdescends (i j m n : ℕ) := h.descends (i := i) (j := j) (m := m) (n := n)
  obtain ⟨frames, stream, ordered, -, -, -, -, count, unread, unsent, -, screen⟩ := h
  refine ⟨?_, ?_, ordered, hdescends, screen, ?_⟩
  · rw [List.map_take, ← frames, List.take_left]
  · rw [count]
    cases hreader : (after es).reader with
    | reading j => exact (unread j hreader).le
    | writing j => exact unsent j hreader
    | closed => exact le_rfl
  · intro hclosed hempty
    have hinflight : inflight = [] := by
      cases inflight with
      | nil => rfl
      | cons frame rest =>
        have hframe := hlength frame (List.mem_cons_self ..)
        rw [hempty, List.flatten_cons, eq_comm, List.append_eq_nil_iff] at stream
        rw [stream.1] at hframe
        cases hframe
    have hall := congrArg List.length frames
    have hheld : (after es).held = [] := by rw [World.held, hclosed]
    rw [hinflight, hheld, List.append_nil, List.append_nil, List.length_map, count, hclosed] at hall
    exact hall

example : shown [.reads, .sends, .writes, .reads, .sends, .updates, .writes, .writes, .reads, .updates, .sends,
    .updates] = [my_read 0, my_read 57, my_read 55] := by decide

end EmbeddedOS.Lab4
