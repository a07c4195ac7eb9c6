import EmbeddedOS.Hw3.Buffer

/-!
The receive step of `myclient` in `checker.cpp`, for one connection. The pieces in which a reply
arrives are the results of `read`.
-/

namespace EmbeddedOS.Hw3

open CText

namespace Receiving

inductive ReadResult where
  | data (bytes : Text)
  | closed
  | error
  deriving DecidableEq

/-- What the step reads and writes outside its own loop. -/
structure State where
  connected : Bool
  closed_fd : ℕ
  buy_succ : ℕ
  deriving DecidableEq

def State.disconnect (s : State) : State := { s with connected := false, closed_fd := s.closed_fd + 1 }

/-- `waits` is a `read` that has not returned; `leaves` goes on to the next connection, with what was
not read, and `breaks` leaves the loop over the connections. -/
inductive Outcome where
  | waits (s : State)
  | leaves (s : State) (unread : List ReadResult)
  | breaks (s : State) (unread : List ReadResult)
  deriving DecidableEq

def rcvText (beyond bytes : Text) : Text := cstring (bytes ++ List.replicate (1024 - bytes.length) 0 ++ beyond)

def find (w msg : Text) : Prop := w <:+: msg

instance (w msg : Text) : Decidable (find w msg) := inferInstanceAs (Decidable (w <:+: msg))

def disinfecting : Text := lit "Disinfecting"

def purchase : Text := lit "purchase."

variable (beyond : Text)

def untilPurchase (s : State) (msg : Text) (reads : List ReadResult) : Outcome :=
  if find purchase msg then .leaves s reads
  else
    match reads with
    | [] => .waits s
    | .closed :: reads => .leaves s.disconnect reads
    | .error :: reads => .leaves s reads
    | .data bytes :: reads => untilPurchase s (rcvText beyond bytes) reads

def receive (s : State) : List ReadResult → Outcome
  | [] => .waits s
  | .closed :: reads => .breaks s.disconnect reads
  | .error :: reads => .breaks s reads
  | .data bytes :: reads =>
    if find disinfecting (rcvText beyond bytes) then
      untilPurchase beyond { s with buy_succ := s.buy_succ + 1 } (rcvText beyond bytes) reads
    else .leaves s reads

def reply : Text := saleWrites.flatten

theorem rcvText_piece {c : Text} (hc : c <:+: reply) : rcvText beyond c = c := by
  have hlen : c.length < 1024 := Nat.lt_of_le_of_lt hc.length_le (by decide)
  have hnul : 0 ∉ c := fun h => absurd (hc.subset h) (by decide)
  obtain ⟨k, hk⟩ : ∃ k, 1024 - c.length = k + 1 := ⟨1023 - c.length, by omega⟩
  rw [rcvText, List.append_assoc, cstring_of_not_mem hnul, hk]
  simp [cstring]

theorem find_disinfecting {c rest : Text} (h : c ++ rest = reply) : find disinfecting c ↔ 12 ≤ c.length := by
  constructor
  · intro hc
    exact hc.length_le
  · intro hlen
    have htake : c.take 12 = disinfecting :=
      calc c.take 12 = (c ++ rest).take 12 := (List.take_append_of_le_length hlen).symm
        _ = reply.take 12 := by rw [h]
        _ = disinfecting := by decide
    rw [find, ← htake]
    exact (List.take_prefix 12 c).isInfix

theorem find_purchase_last {c front : Text} (h : front ++ c = reply) : find purchase c ↔ 9 ≤ c.length := by
  constructor
  · intro hc
    exact hc.length_le
  · intro hlen
    have hlength : front.length + c.length = 88 := by
      rw [← List.length_append, h]
      decide
    have hdrop : c.drop (c.length - 9) = purchase := by
      have hall : (front ++ c).drop 79 = purchase := by
        rw [h]
        decide
      rw [List.drop_append, List.drop_eq_nil_of_le (by omega), List.nil_append] at hall
      rw [← hall]
      congr 1
      omega
    rw [find, ← hdrop]
    exact (List.drop_suffix _ c).isInfix

set_option maxRecDepth 2000 in
theorem purchase_once : ¬ purchase <:+: reply.dropLast := by decide

theorem not_find_purchase {c front rest : Text} (h : front ++ c ++ rest = reply) (hrest : rest ≠ []) :
    ¬ find purchase c := by
  intro hc
  have hinfix : c <:+: reply.dropLast := by
    rw [← h, List.dropLast_append_of_ne_nil hrest, List.append_assoc]
    exact List.infix_append' _ _ _
  exact purchase_once (hc.trans hinfix)

theorem untilPurchase_found {s : State} {msg : Text} (h : find purchase msg) (reads : List ReadResult) :
    untilPurchase beyond s msg reads = .leaves s reads := by
  rw [untilPurchase.eq_def, if_pos h]

theorem untilPurchase_pieces (s : State) {front msg last : Text} {pieces : List Text}
    (h : front ++ msg ++ (pieces ++ [last]).flatten = reply) (hne : last ≠ []) (more : List ReadResult) :
    untilPurchase beyond s msg ((pieces ++ [last]).map .data ++ more) = untilPurchase beyond s last more := by
  induction pieces generalizing front msg with
  | nil =>
    have hmsg : ¬ find purchase msg := not_find_purchase h (by simpa using hne)
    have hlast : last <:+: reply := by
      rw [← h]
      exact ⟨front ++ msg, [], by simp⟩
    simp [untilPurchase, hmsg, rcvText_piece beyond hlast]
  | cons c pieces ih =>
    have hmsg : ¬ find purchase msg := not_find_purchase h (by simp [hne])
    have hc : c <:+: reply := by
      rw [← h]
      exact ⟨front ++ msg, (pieces ++ [last]).flatten, by simp⟩
    have hnext : (front ++ msg) ++ c ++ (pieces ++ [last]).flatten = reply := by
      rw [← h]
      simp
    rw [List.cons_append, List.map_cons, List.cons_append, untilPurchase, if_neg hmsg]
    simp only [rcvText_piece beyond hc]
    exact ih hnext

def CountsOnce (pieces : List Text) : Prop :=
  ∀ (s : State) (more : List ReadResult),
    receive beyond s (pieces.map .data ++ more) = .leaves { s with buy_succ := s.buy_succ + 1 } more

def KeepsMarkers (pieces : List Text) : Prop := 12 ≤ (pieces.headD []).length ∧ 9 ≤ (pieces.getLastD []).length

instance (pieces : List Text) : Decidable (KeepsMarkers pieces) := inferInstanceAs (Decidable (_ ∧ _))

theorem receive_first (s : State) {c rest : Text} (h : c ++ rest = reply) (reads : List ReadResult) :
    receive beyond s (.data c :: reads) =
      if 12 ≤ c.length then untilPurchase beyond { s with buy_succ := s.buy_succ + 1 } c reads
      else .leaves s reads := by
  have hc : c <:+: reply := by
    rw [← h]
    exact (List.prefix_append c rest).isInfix
  simp only [receive, rcvText_piece beyond hc, find_disinfecting h]

theorem untilPurchase_last (s : State) {front last : Text} (h : front ++ last = reply) :
    (∀ more, untilPurchase beyond s last more = .leaves s more) ↔ 9 ≤ last.length := by
  constructor
  · intro hall
    have hnone := hall []
    rw [← find_purchase_last h]
    by_contra hfind
    simp [untilPurchase, hfind] at hnone
  · intro hlen more
    exact untilPurchase_found beyond ((find_purchase_last h).mpr hlen) more

theorem untilPurchase_counted (s : State) {first : Text} {pieces : List Text} (h : first ++ pieces.flatten = reply)
    (hpieces : ∀ c ∈ pieces, c ≠ []) :
    (∀ more, untilPurchase beyond s first (pieces.map .data ++ more) = .leaves s more) ↔
      9 ≤ ((first :: pieces).getLastD []).length := by
  obtain rfl | ⟨front, last, rfl⟩ := List.eq_nil_or_concat' pieces
  · rw [List.flatten_nil, List.append_nil, ← List.nil_append first] at h
    exact untilPurchase_last beyond s h
  · have hlast : (first ++ front.flatten) ++ last = reply := by
      rw [← h]
      simp
    rw [← List.nil_append first] at h
    have hpass (more : List ReadResult) := untilPurchase_pieces beyond s h (hpieces last (by simp)) more
    simp only [hpass, List.getLastD_cons, List.getLastD_concat]
    exact untilPurchase_last beyond s hlast

theorem countsOnce_iff (pieces : List Text) (hreply : pieces.flatten = reply)
    (hpieces : ∀ c ∈ pieces, 1 ≤ c.length ∧ c.length ≤ 1024) : CountsOnce beyond pieces ↔ KeepsMarkers pieces := by
  cases pieces with
  | nil => cases hreply
  | cons first pieces =>
    rw [List.flatten_cons] at hreply
    have hne : ∀ c ∈ pieces, c ≠ [] := by
      intro c hc
      apply List.ne_nil_of_length_pos
      exact (hpieces c (List.mem_cons_of_mem _ hc)).1
    simp only [CountsOnce, KeepsMarkers, List.map_cons, List.cons_append, receive_first beyond _ hreply,
      List.headD_cons]
    by_cases h12 : 12 ≤ first.length
    · simp only [h12, ↓reduceIte, true_and]
      constructor
      · intro h
        exact (untilPurchase_counted beyond ⟨true, 0, 1⟩ hreply hne).mp (h ⟨true, 0, 0⟩)
      · intro h s
        exact (untilPurchase_counted beyond _ hreply hne).mpr h
    · simp only [h12, ↓reduceIte, false_and, iff_false]
      intro h
      have hcount := h ⟨true, 0, 0⟩ []
      rw [Outcome.leaves.injEq, State.mk.injEq] at hcount
      omega

theorem countsOnce_writes : saleWrites.flatten = reply ∧ CountsOnce [] saleWrites :=
  ⟨rfl, (countsOnce_iff [] saleWrites rfl (by decide)).mpr (by decide)⟩

set_option maxRecDepth 4000 in
theorem receive_cut :
    [reply.take 80, reply.drop 80].flatten = reply ∧
      receive [] ⟨true, 0, 0⟩ ([reply.take 80, reply.drop 80].map .data) = .waits ⟨true, 0, 1⟩ ∧
      ¬ CountsOnce [] [reply.take 80, reply.drop 80] := by
  have hreply : [reply.take 80, reply.drop 80].flatten = reply := by decide
  have hwaits : receive [] ⟨true, 0, 0⟩ ([reply.take 80, reply.drop 80].map .data) = .waits ⟨true, 0, 1⟩ := by
    decide
  refine ⟨hreply, hwaits, ?_⟩
  intro h
  have hleaves := h ⟨true, 0, 0⟩ []
  rw [List.append_nil, hwaits] at hleaves
  cases hleaves

end Receiving

end EmbeddedOS.Hw3
