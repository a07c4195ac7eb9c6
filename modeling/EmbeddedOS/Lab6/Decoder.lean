import EmbeddedOS.Lab6.Bank

/-!
The connection of one client: the bytes that arrive in pieces, the buffer that `money` fills byte by
byte, and the requests it performs.
-/

namespace EmbeddedOS.Lab6

open CText Runs

/-- The locals `buf` and `i` of `money`. A store behind `buf` is lost. -/
structure Receiver where
  buf : Vector Byte 16
  i : ℕ

def Receiver.empty : Receiver := ⟨Vector.replicate 16 0, 0⟩

def Receiver.stringAt (beyond : Text) (r : Receiver) (k : ℕ) : Text :=
  (r.buf.toList.drop k ++ beyond).takeWhile fun b => b != 0

def Receiver.request (beyond : Text) (r : Receiver) : Option Request :=
  if startsWith (lit "deposit") r.buf.toList then some (.deposit (atoi (r.stringAt beyond 8)))
  else if startsWith (lit "withdraw") r.buf.toList then some (.withdraw (atoi (r.stringAt beyond 9)))
  else none

variable (beyond : Text)

def decoder : Machine Receiver Byte (Option Request) where
  step r ch :=
    if ch ≠ newline then (⟨r.buf.setIfInBounds r.i ch, r.i + 1⟩, none)
    else (Receiver.empty, r.request beyond)

structure Connection where
  receiver : Receiver
  account : ℤ
  pending : Text

inductive Arrival where
  | arrives (piece : Text)
  | reads

def perform (account : ℤ) : Option Request → ℤ
  | none => account
  | some r => r.apply account

/-- Pieces arrive, and the loop reads one byte at a time; a `read` waits while nothing has arrived. -/
def connection : Machine Connection Arrival (Option Request) where
  step s e :=
    match e with
    | .arrives piece => ({ s with pending := s.pending ++ piece }, none)
    | .reads =>
      match s.pending with
      | [] => (s, none)
      | ch :: rest =>
        let r := (decoder beyond).step s.receiver ch
        (⟨r.1, perform s.account r.2, rest⟩, r.2)

def Connection.start (account : ℤ) : Connection := ⟨.empty, account, []⟩

abbrev Connection.after (account : ℤ) (es : List Arrival) : Connection :=
  (connection beyond).run (Connection.start account) es

abbrev Connection.history (account : ℤ) (es : List Arrival) :
    List (Moment Connection Arrival (Option Request)) :=
  (connection beyond).trace (Connection.start account) es

def performed (account : ℤ) (es : List Arrival) : List Request :=
  (Connection.history beyond account es).filterMap Moment.out

def delivered (es : List Arrival) : Text := es.flatMap fun e =>
  match e with
  | .arrives piece => piece
  | .reads => []

def decoded (r : Receiver) (t : Text) : List Request := ((decoder beyond).trace r t).filterMap Moment.out

theorem decoded_append (r : Receiver) (t t' : Text) :
    decoded beyond r (t ++ t') = decoded beyond r t ++ decoded beyond ((decoder beyond).run r t) t' := by
  rw [decoded, Machine.trace_append, List.filterMap_append]
  rfl

structure Receiver.Stores (r : Receiver) (t : Text) : Prop where
  i : r.i = t.length
  buf : r.buf.toList = t ++ List.replicate (16 - t.length) 0

theorem stores_empty : Receiver.empty.Stores [] := ⟨rfl, rfl⟩

theorem Receiver.Stores.byte {r : Receiver} {t : Text} (h : r.Stores t) (ht : t.length < 16) {ch : Byte}
    (hch : ch ≠ newline) :
    ((decoder beyond).step r ch).1.Stores (t ++ [ch]) ∧ ((decoder beyond).step r ch).2 = none := by
  have hstep : (decoder beyond).step r ch = (⟨r.buf.setIfInBounds r.i ch, r.i + 1⟩, none) := by
    simp only [decoder, hch, ne_eq, not_false_eq_true, ↓reduceIte]
  obtain ⟨k, hk⟩ : ∃ k, 16 - t.length = k + 1 := ⟨15 - t.length, by omega⟩
  have hrest : 16 - (t ++ [ch]).length = k := by
    rw [List.length_append, List.length_singleton]
    omega
  rw [hstep]
  refine ⟨⟨by simp [h.i], ?_⟩, rfl⟩
  rw [Vector.toList_setIfInBounds, h.buf, h.i, hk, hrest, List.replicate_succ, List.set_append_right _ _ le_rfl,
    Nat.sub_self, List.set_cons_zero, List.append_assoc, List.singleton_append]

theorem Receiver.Stores.line {r : Receiver} {t line : Text} (h : r.Stores t) (hline : newline ∉ line)
    (hlen : (t ++ line).length ≤ 16) :
    ((decoder beyond).run r line).Stores (t ++ line) ∧ decoded beyond r line = [] := by
  induction line generalizing r t with
  | nil =>
    rw [List.append_nil]
    exact ⟨h, rfl⟩
  | cons ch line ih =>
    have hroom : t.length < 16 := by
      simp only [List.length_append, List.length_cons] at hlen
      omega
    have hch : ch ≠ newline := by
      rintro rfl
      exact hline (List.mem_cons_self ..)
    obtain ⟨hstores, hout⟩ := h.byte beyond hroom hch
    obtain ⟨hrun, hnone⟩ := ih hstores (fun hm => hline (by simp [hm])) (by simpa using hlen)
    rw [List.append_assoc, List.singleton_append] at hrun
    refine ⟨hrun, ?_⟩
    rw [decoded] at hnone
    simp only [decoded, Machine.trace, List.filterMap_cons, Machine.moment, hout, hnone]

theorem startsWith_zeros {w : Text} (hw : 0 ∉ w) (t : Text) (k : ℕ) :
    startsWith w (t ++ List.replicate k 0) = startsWith w t := by
  induction w generalizing t with
  | nil => simp [startsWith]
  | cons b w ih =>
    have hb : b ≠ 0 := fun h => hw (by simp [h])
    cases t with
    | nil =>
      have hfirst : (b == 0) = false := by simpa using hb
      cases k with
      | zero => rfl
      | succ k => simp [startsWith, List.replicate_succ, List.isPrefixOf, hfirst]
    | cons c t =>
      have hrest := ih (fun h => hw (by simp [h])) t
      simp only [startsWith] at hrest
      simp only [startsWith, List.cons_append, List.isPrefixOf_cons_cons, hrest]

theorem Receiver.Stores.stringAt {r : Receiver} {t : Text} (h : r.Stores t) (ht : t.length < 16) (h0 : 0 ∉ t)
    {k : ℕ} (hk : k < 16) : r.stringAt beyond k = t.drop k := by
  have hzero : 0 ∉ t.drop k := fun hm => h0 (List.mem_of_mem_drop hm)
  obtain ⟨n, hn⟩ : ∃ n, 16 - t.length - (k - t.length) = n + 1 := ⟨15 - t.length - (k - t.length), by omega⟩
  rw [Receiver.stringAt, h.buf, List.drop_append, List.drop_replicate, hn, List.replicate_succ, List.append_assoc,
    List.takeWhile_append_of_pos]
  · simp
  · intro b hb
    simp only [bne_iff_ne]
    rintro rfl
    exact hzero hb

theorem Receiver.Stores.request {r : Receiver} {t : Text} (h : r.Stores t) (ht : t.length < 16) (h0 : 0 ∉ t) :
    r.request beyond = readRequest t := by
  rw [Receiver.request, h.stringAt beyond ht h0 (by norm_num), h.stringAt beyond ht h0 (by norm_num), h.buf,
    startsWith_zeros (by decide), startsWith_zeros (by decide)]
  rfl

theorem decoded_line {line : Text} (hline : newline ∉ line) (h0 : 0 ∉ line) (hlen : line.length < 16) :
    (decoder beyond).run .empty (line ++ [newline]) = .empty ∧
      decoded beyond .empty (line ++ [newline]) = (readRequest line).toList := by
  obtain ⟨hstores, hnone⟩ := stores_empty.line beyond hline (by simpa using hlen.le)
  rw [List.nil_append] at hstores
  have hstep : (decoder beyond).step ((decoder beyond).run .empty line) newline = (.empty, readRequest line) := by
    rw [← hstores.request beyond hlen h0]
    rfl
  constructor
  · rw [Machine.run_snoc, hstep]
  · rw [decoded_append, hnone, List.nil_append, decoded]
    simp only [Machine.trace, Machine.moment, hstep]
    cases readRequest line <;> rfl

def asLines (ls : List Text) : Text := ls.flatMap fun l => l ++ [newline]

theorem decoded_lines {ls : List Text} (h : ∀ l ∈ ls, newline ∉ l ∧ 0 ∉ l ∧ l.length < 16) :
    (decoder beyond).run .empty (asLines ls) = .empty ∧
      decoded beyond .empty (asLines ls) = ls.flatMap fun l => (readRequest l).toList := by
  induction ls with
  | nil => exact ⟨rfl, rfl⟩
  | cons l ls ih =>
    obtain ⟨hline, h0, hlen⟩ := h l (by simp)
    obtain ⟨hrun, hout⟩ := decoded_line beyond hline h0 hlen
    obtain ⟨hrest, houts⟩ := ih fun l hm => h l (by simp [hm])
    have htext : asLines (l :: ls) = (l ++ [newline]) ++ asLines ls := rfl
    rw [htext]
    constructor
    · rw [Machine.run_append, hrun, hrest]
    · rw [decoded_append, hrun, hout, houts, List.flatMap_cons]

inductive Action where
  | deposit
  | withdraw
  deriving DecidableEq

def Action.text : Action → Text
  | .deposit => lit "deposit"
  | .withdraw => lit "withdraw"

def Action.request (amount : ℤ) : Action → Request
  | .deposit => .deposit amount
  | .withdraw => .withdraw amount

structure Message where
  action : Action
  amount : Text
  number : ℤ

def Message.line (m : Message) : Text := m.action.text ++ 32 :: m.amount

/-- `"%s %s\n"` fills `action_amount` with its NUL at most. -/
structure Message.Fits (m : Message) : Prop where
  numeral : Numeral m.number m.amount
  int : IsInt32 m.number
  room : (m.line ++ [newline]).length < 16

def Message.request (m : Message) : Request := m.action.request m.number

def clientStream (ms : List Message) : Text := asLines (ms.map Message.line)

theorem newline_not_mem_action (a : Action) : newline ∉ a.text := by cases a <;> decide

theorem nul_not_mem_action (a : Action) : 0 ∉ a.text := by cases a <;> decide

theorem nul_not_mem_numeral {n : ℤ} {w : Text} (h : Numeral n w) : 0 ∉ w := by
  obtain ⟨sign, ds, hs, -, hd, rfl, -⟩ := h
  intro h0
  rcases List.mem_append.mp h0 with h0 | h0
  · rcases hs with rfl | rfl | rfl <;> simp at h0
  · exact absurd (hd 0 h0) (by decide)

theorem Message.Fits.line {m : Message} (h : m.Fits) : newline ∉ m.line ∧ 0 ∉ m.line ∧ m.line.length < 16 := by
  obtain ⟨hnumeral, -, hroom⟩ := h
  refine ⟨message_newline (newline_not_mem_action m.action) hnumeral, ?_, ?_⟩
  · have hblank : (0 : Byte) ≠ 32 := by decide
    simp only [Message.line, List.mem_append, List.mem_cons, not_or]
    exact ⟨nul_not_mem_action m.action, hblank, nul_not_mem_numeral hnumeral⟩
  · rw [List.length_append, List.length_singleton] at hroom
    omega

theorem Message.Fits.request {m : Message} (h : m.Fits) : readRequest m.line = some m.request := by
  obtain ⟨action, amount, number⟩ := m
  cases action with
  | deposit => exact readRequest_deposit h.numeral h.int
  | withdraw => exact readRequest_withdraw h.numeral h.int

theorem decoded_stream {ms : List Message} (h : ∀ m ∈ ms, m.Fits) :
    (decoder beyond).run .empty (clientStream ms) = .empty ∧
      decoded beyond .empty (clientStream ms) = ms.map Message.request := by
  have hlines : ∀ l ∈ ms.map Message.line, newline ∉ l ∧ 0 ∉ l ∧ l.length < 16 := by
    intro l hl
    obtain ⟨m, hm, rfl⟩ := List.mem_map.mp hl
    exact (h m hm).line
  obtain ⟨hrun, houts⟩ := decoded_lines beyond hlines
  refine ⟨hrun, ?_⟩
  rw [clientStream, houts, List.flatMap_map, List.map_eq_flatMap]
  apply List.flatMap_congr
  intro m hm
  rw [(h m hm).request]
  rfl

section Snoc

variable (account : ℤ) (es : List Arrival) (e : Arrival)

theorem after_snoc : Connection.after beyond account (es ++ [e]) =
    ((connection beyond).step (Connection.after beyond account es) e).1 := (connection beyond).run_snoc _ es e

theorem history_snoc : Connection.history beyond account (es ++ [e]) =
    Connection.history beyond account es ++ [(connection beyond).moment (Connection.after beyond account es) e] :=
  (connection beyond).trace_snoc _ es e

theorem performed_snoc : performed beyond account (es ++ [e]) =
    performed beyond account es ++ ((connection beyond).step (Connection.after beyond account es) e).2.toList := by
  rw [performed, history_snoc, List.filterMap_append, performed]
  congr 1

end Snoc

structure Follows (account : ℤ) (es : List Arrival) (read : Text) : Prop where
  split : delivered es = read ++ (Connection.after beyond account es).pending
  receiver : (Connection.after beyond account es).receiver = (decoder beyond).run .empty read
  requests : performed beyond account es = decoded beyond .empty read
  balance : (Connection.after beyond account es).account =
    (performed beyond account es).foldl Request.apply account
  emptied : ∀ q ∈ Connection.history beyond account es, ∀ r, q.out = some r → q.post.receiver = .empty

theorem decoder_out {r : Receiver} {ch : Byte} {q : Request} (h : ((decoder beyond).step r ch).2 = some q) :
    ((decoder beyond).step r ch).1 = .empty := by
  by_cases hch : ch = newline
  · simp [decoder, hch]
  · simp [decoder, hch] at h

theorem perform_foldl (account : ℤ) (rs : List Request) (o : Option Request) :
    perform (rs.foldl Request.apply account) o = (rs ++ o.toList).foldl Request.apply account := by
  cases o <;> simp [perform]

theorem Follows.waits {account : ℤ} {es : List Arrival} {read : Text} (hf : Follows beyond account es read)
    {e : Arrival} {pending : Text}
    (hstep : (connection beyond).step (Connection.after beyond account es) e =
      ({ Connection.after beyond account es with pending := pending }, none))
    (hsplit : delivered (es ++ [e]) = read ++ pending) : Follows beyond account (es ++ [e]) read := by
  have hperformed : performed beyond account (es ++ [e]) = performed beyond account es := by
    rw [performed_snoc, hstep]
    simp
  constructor
  · rw [after_snoc, hstep, hsplit]
  · rw [after_snoc, hstep, ← hf.receiver]
  · rw [hperformed, hf.requests]
  · rw [after_snoc, hstep, hperformed, ← hf.balance]
  · intro q hq r hr
    rw [history_snoc] at hq
    rcases List.mem_append.mp hq with hq | hq
    · exact hf.emptied q hq r hr
    · rw [List.mem_singleton.mp hq, Machine.moment, hstep] at hr
      cases hr

theorem Follows.byte {account : ℤ} {es : List Arrival} {read : Text} (hf : Follows beyond account es read)
    {ch : Byte} {rest : Text} (hpending : (Connection.after beyond account es).pending = ch :: rest) :
    Follows beyond account (es ++ [.reads]) (read ++ [ch]) := by
  have hstep : (connection beyond).step (Connection.after beyond account es) .reads =
      (⟨((decoder beyond).step ((decoder beyond).run .empty read) ch).1,
        perform (Connection.after beyond account es).account
          ((decoder beyond).step ((decoder beyond).run .empty read) ch).2, rest⟩,
        ((decoder beyond).step ((decoder beyond).run .empty read) ch).2) := by
    rw [← hf.receiver]
    simp only [connection, hpending]
  have hperformed : performed beyond account (es ++ [.reads]) = performed beyond account es ++
      ((decoder beyond).step ((decoder beyond).run .empty read) ch).2.toList := by
    rw [performed_snoc, hstep]
  constructor
  · have hsplit := hf.split
    rw [hpending] at hsplit
    rw [after_snoc, hstep]
    simp only [delivered, List.flatMap_append, List.flatMap_singleton, List.append_nil] at hsplit ⊢
    rw [hsplit]
    simp
  · rw [after_snoc, hstep, Machine.run_snoc]
  · rw [hperformed, hf.requests, decoded_append]
    congr 1
  · rw [after_snoc, hstep, hperformed, ← perform_foldl, ← hf.balance]
  · intro q hq r hr
    rw [history_snoc] at hq
    rcases List.mem_append.mp hq with hq | hq
    · exact hf.emptied q hq r hr
    · rw [List.mem_singleton.mp hq, Machine.moment, hstep] at hr ⊢
      exact decoder_out beyond hr

theorem follows (account : ℤ) (es : List Arrival) : ∃ read, Follows beyond account es read := by
  induction es using List.reverseRecOn with
  | nil => exact ⟨[], rfl, rfl, rfl, rfl, by simp⟩
  | append_singleton es e ih =>
    obtain ⟨read, hf⟩ := ih
    cases e with
    | arrives piece =>
      refine ⟨read, hf.waits beyond rfl ?_⟩
      have hsplit := hf.split
      simp only [delivered, List.flatMap_append, List.flatMap_singleton] at hsplit ⊢
      rw [hsplit, List.append_assoc]
    | reads =>
      cases hpending : (Connection.after beyond account es).pending with
      | nil =>
        have hwaits : (connection beyond).step (Connection.after beyond account es) .reads =
            ({ Connection.after beyond account es with pending := [] }, none) := by
          have hsame : { Connection.after beyond account es with pending := [] } =
              Connection.after beyond account es := by
            rw [← hpending]
          rw [hsame]
          simp only [connection, hpending]
        refine ⟨read, hf.waits beyond hwaits ?_⟩
        have hsplit := hf.split
        rw [hpending] at hsplit
        simp only [delivered, List.flatMap_append, List.flatMap_singleton, List.append_nil] at hsplit ⊢
        exact hsplit
      | cons ch rest => exact ⟨read ++ [ch], hf.byte beyond hpending⟩

theorem money_performs (ms : List Message) (h : ∀ m ∈ ms, m.Fits) (account : ℤ) (es : List Arrival)
    (hes : delivered es <+: clientStream ms) :
    performed beyond account es <+: ms.map Message.request ∧
      (Connection.after beyond account es).account = (performed beyond account es).foldl Request.apply account ∧
      (∀ q ∈ Connection.history beyond account es, ∀ r, q.out = some r → q.post.receiver = .empty) ∧
      (delivered es = clientStream ms → (Connection.after beyond account es).pending = [] →
        performed beyond account es = ms.map Message.request ∧
          (Connection.after beyond account es).receiver = .empty) := by
  obtain ⟨read, hf⟩ := follows beyond account es
  obtain ⟨hrun, houts⟩ := decoded_stream beyond h
  refine ⟨?_, hf.balance, hf.emptied, fun hall hpending => ?_⟩
  · obtain ⟨rest, hrest⟩ := hes
    rw [hf.split, List.append_assoc] at hrest
    rw [hf.requests, ← houts, ← hrest, decoded_append]
    exact List.prefix_append _ _
  · have hread := hf.split
    rw [hpending, List.append_nil, hall] at hread
    rw [hf.requests, hf.receiver, ← hread]
    exact ⟨houts, hrun⟩

def sampleMessages : List Message := [⟨.deposit, lit "+50", 50⟩, ⟨.withdraw, lit "-007", -7⟩]

theorem sampleMessages_fit : ∀ m ∈ sampleMessages, m.Fits := by
  intro m hm
  simp only [sampleMessages, List.mem_cons, List.not_mem_nil, or_false] at hm
  rcases hm with rfl | rfl
  · exact ⟨⟨[43], lit "50", by decide, by decide, by simp [lit, isdigit], rfl, by decide⟩, by decide, by decide⟩
  · exact ⟨⟨[45], lit "007", by decide, by decide, by simp [lit, isdigit], rfl, by decide⟩, by decide, by decide⟩

def sampleArrivals : List Arrival :=
  .arrives ((clientStream sampleMessages).take 9) :: (List.replicate 10 .reads ++
    .arrives ((clientStream sampleMessages).drop 9) :: List.replicate 20 .reads)

theorem money_performs_sample :
    performed [] 100 sampleArrivals = [.deposit 50, .withdraw (-7)] ∧
      (Connection.after [] 100 sampleArrivals).receiver = .empty := by
  have hall : delivered sampleArrivals = clientStream sampleMessages := by decide
  exact (money_performs [] sampleMessages sampleMessages_fit 100 sampleArrivals (hall ▸ List.prefix_refl _)).2.2.2
    hall (by decide)

end EmbeddedOS.Lab6
