import EmbeddedOS.Library.Lines
import EmbeddedOS.Hw3.Counters

namespace EmbeddedOS.Hw3

open CText Runs

def commandText (k : Kind) (buf : Text) : Text :=
  match k with
  | .display => lit "show"
  | .login => buf
  | .logout => lit "logout"
  | .buy => buf
  | .statics => lit "statics"
  | .invalid => lit "exit"

def recordSize : Kind → ℕ
  | .login => 50
  | .buy => 50
  | _ => 30

/-- `server_statics` prints the whole record into `tmp`, the others only what precedes the result. -/
def recordText (g : Globals) (fd : ℤ) (k : Kind) (o : Outcome) : Text :=
  if k = .statics then snprintf 30 (recordPrefix g fd ++ (o.command ++ comma :: o.result))
  else recordHead (recordSize k) g fd o.command ++ o.result

section Record

variable (l : Locals) (beyond : ℕ → ID) (g : Globals) (c : Conn) (buf : Text)

theorem mask_server_log : (mask_server l beyond g c buf).globals.writeToResult =
    g.writeToResult ++ recordText g c.fd (kind buf) (mask_server l beyond g c buf) := by
  rw [mask_server_eq]
  cases kind buf with
  | display => rfl
  | logout => simp only [server_logout]; split_ifs <;> rfl
  | statics => rfl
  | invalid => rfl
  | login => simp only [server_login]; split_ifs <;> rfl
  | buy =>
    simp only [server_buy_eq]
    split_ifs
    · cases verdict g (scanRequest l buf) with
      | refuse => rfl
      | unknown => simp [unanswered, recordText, recordSize]
      | sell i => simp [sold, purchase_log, recordText, recordSize]
    · rfl

theorem mask_server_command : (mask_server l beyond g c buf).command = commandText (kind buf) buf := by
  rw [mask_server_eq]
  cases kind buf with
  | display => rfl
  | logout => simp only [server_logout]; split_ifs <;> rfl
  | statics => rfl
  | invalid => rfl
  | login => simp only [server_login]; split_ifs <;> rfl
  | buy =>
    simp only [server_buy_eq]
    split_ifs
    · cases verdict g (scanRequest l buf) <;> rfl
    · rfl

end Record

def Printable (g : Globals) : Prop := ∀ i < g.num,
  (∀ x ∈ (g.row i 0).type, isspace x = false) ∧ ∀ r ∈ cities g i, ∀ x ∈ r.city, isspace x = false

theorem printable_after (b : Boot) (es : List Event) : Printable (b.after es).globals := by
  intro i hi
  rw [(same_after b es).num] at hi
  have hlabel := (same_after b es).label
  simp only [Inv.label, Prod.mk.injEq] at hlabel
  constructor
  · rw [Globals.row, (hlabel _).2.2.2.1, add_zero]
    exact (b.type_name i hi).1.2
  · intro r hr
    obtain ⟨j, hj, rfl⟩ := List.mem_map.mp hr
    rw [List.mem_range, Globals.row, (hlabel _).2.1, add_zero] at hj
    rw [Globals.row, (hlabel _).2.2.2.2]
    have hj' : (j : ℤ) < (b.data (100 * i)).type_num := Int.lt_toNat.mp hj
    exact (b.city_name i hi j hj').1.2

theorem mem_cityText {r : Inv} (hr : ∀ x ∈ r.city, isspace x = false) {x : Byte}
    (hx : x ∈ cityText r) : x = 32 ∨ isspace x = false := by
  have hd (n : ℤ) (h : x ∈ decimal n) : isspace x = false := (decimal_isWord n).2 x h
  simp only [cityText, List.mem_append, List.mem_cons] at hx
  rcases hx with h | h | h | h | h | h | h | h | h
  · exact Or.inr (hd _ h)
  · exact Or.inl h
  · exact Or.inr (hr x h)
  · exact Or.inl h
  · exact Or.inr (hd _ h)
  · exact Or.inl h
  · exact Or.inr (hd _ h)
  · exact Or.inl h
  · exact Or.inr (hd _ h)

theorem mem_write_info {g : Globals} (hg : Printable g) {x : Byte} (hx : x ∈ write_info g) :
    x = 32 ∨ isspace x = false := by
  obtain ⟨i, hi, hx⟩ := List.mem_flatMap.mp hx
  obtain ⟨htype, hcity⟩ := hg i (List.mem_range.mp hi)
  rcases List.mem_append.mp hx with hx | hx
  · split_ifs at hx
    · exact Or.inr (htype x hx)
    · rcases List.mem_cons.mp hx with hx | hx
      · exact Or.inl hx
      · exact Or.inr (htype x hx)
  · obtain ⟨r, hr, hx⟩ := List.mem_flatMap.mp hx
    rcases List.mem_cons.mp (List.mem_of_mem_take hx) with hx | hx
    · exact Or.inl hx
    · exact mem_cityText (hcity r hr) hx

theorem not_mem_write_info {g : Globals} (hg : Printable g) {x : Byte}
    (hx : x ≠ 32 ∧ isspace x = true) : x ∉ write_info g := by
  intro h
  rcases mem_write_info hg h with h | h
  · exact hx.1 h
  · rw [hx.2] at h
    cases h

def EndsLine (t : Text) : Prop := ∃ r, t = r ++ [newline] ∧ newline ∉ r

/-- An eligible buy whose type is not in the inventory. -/
def Unanswered (l : Locals) (beyond : ℕ → ID) (g : Globals) (c : Conn) (buf : Text) : Prop :=
  kind buf = .buy ∧ (c.iflogin = true ∧ check_day_of_week g beyond c.ID = true) ∧
    verdict g (scanRequest l buf) = .unknown

instance (l : Locals) (beyond : ℕ → ID) (g : Globals) (c : Conn) (buf : Text) :
    Decidable (Unanswered l beyond g c buf) := inferInstanceAs (Decidable (_ ∧ _ ∧ _))

def answers : List Text := [login_succ, login_fail, logout_succ, logout_fail, buy_fail]

inductive Replied (l : Locals) (beyond : ℕ → ID) (g : Globals) (c : Conn) (buf : Text) (o : Outcome) : Prop
  | answer (t : Text) (known : t ∈ answers) (result : o.result = t) (writes : o.writes = [t])
  | sale (result : o.result = purchaseInfo) (writes : o.writes = saleWrites)
  | silent (unknown : Unanswered l beyond g c buf) (result : o.result = []) (writes : o.writes = [])
  | display (result : o.result = write_info g ++ [newline]) (writes : o.writes = [show_info g])
  | statics (result : o.result = decimal g.alcohol ++ [newline])
      (writes : o.writes = [snprintf 10 (decimal g.alcohol ++ [newline])])
  | unrecognised (command : kind buf = .invalid) (result : o.result = invalid) (writes : o.writes = [invalid])

theorem mask_server_replied (l : Locals) (beyond : ℕ → ID) (g : Globals) (c : Conn) (buf : Text) :
    Replied l beyond g c buf (mask_server l beyond g c buf) := by
  rw [mask_server_eq]
  cases hk : kind buf with
  | display => exact .display rfl rfl
  | statics => exact .statics rfl rfl
  | invalid => exact .unrecognised hk rfl rfl
  | login =>
    simp only [server_login]
    split_ifs
    · exact .answer login_succ (by simp [answers]) rfl rfl
    · exact .answer login_fail (by simp [answers]) rfl rfl
    · exact .answer login_fail (by simp [answers]) rfl rfl
  | logout =>
    simp only [server_logout]
    split_ifs
    · exact .answer logout_fail (by simp [answers]) rfl rfl
    · exact .answer logout_succ (by simp [answers]) rfl rfl
  | buy =>
    simp only [server_buy_eq]
    split_ifs with hd
    · cases hv : verdict g (scanRequest l buf) with
      | refuse => exact .answer buy_fail (by simp [answers]) rfl rfl
      | unknown => exact .silent ⟨hk, hd, hv⟩ rfl rfl
      | sell i => exact .sale rfl rfl
    · exact .answer buy_fail (by simp [answers]) rfl rfl

theorem endsLine_iff (t : Text) : EndsLine t ↔ t.getLast? = some newline ∧ newline ∉ t.dropLast := by
  constructor
  · rintro ⟨r, rfl, hr⟩
    simpa using hr
  · rintro ⟨hlast, hr⟩
    obtain ⟨r, rfl⟩ := List.getLast?_eq_some_iff.mp hlast
    exact ⟨r, rfl, by simpa using hr⟩

theorem answers_endsLine : ∀ t ∈ purchaseInfo :: invalid :: answers, EndsLine t := by
  simp only [endsLine_iff]
  decide

theorem decimal_endsLine (n : ℤ) : EndsLine (decimal n ++ [newline]) :=
  ⟨decimal n, rfl, newline_not_mem_decimal n⟩

theorem statics_reply_ne_nil (n : ℤ) : snprintf 10 (decimal n ++ [newline]) ≠ [] := by
  obtain ⟨x, t, ht⟩ := List.exists_cons_of_ne_nil (decimal_ne_nil n)
  simp [snprintf, ht]

theorem answered {l : Locals} {beyond : ℕ → ID} {g : Globals} {c : Conn} {buf : Text}
    (hg : Printable g) (h : ¬ Unanswered l beyond g c buf) :
    EndsLine (mask_server l beyond g c buf).result ∧
      (mask_server l beyond g c buf).writes.flatten ≠ [] := by
  have hsent (t : Text) (ht : EndsLine t) : [t].flatten ≠ [] := by
    obtain ⟨r, rfl, -⟩ := ht
    simp
  cases mask_server_replied l beyond g c buf with
  | answer t known result writes =>
    have ht := answers_endsLine t (by simp [known])
    rw [result, writes]
    exact ⟨ht, hsent t ht⟩
  | sale result writes =>
    rw [result, writes]
    exact ⟨answers_endsLine _ (by simp), by simp [saleWrites, disinfect, lit]⟩
  | silent unknown result writes => exact absurd unknown h
  | display result writes =>
    rw [result, writes]
    exact ⟨⟨write_info g, rfl, not_mem_write_info hg (by decide)⟩, by simp [show_info, lit]⟩
  | statics result writes =>
    rw [result, writes]
    exact ⟨decimal_endsLine _, by simpa using statics_reply_ne_nil g.alcohol⟩
  | unrecognised command result writes =>
    have ht := answers_endsLine invalid (by simp)
    rw [result, writes]
    exact ⟨ht, hsent _ ht⟩

theorem unanswered_writes {l : Locals} {beyond : ℕ → ID} {g : Globals} {c : Conn} {buf : Text}
    (h : Unanswered l beyond g c buf) : (mask_server l beyond g c buf).writes = [] := by
  obtain ⟨hk, hd, hv⟩ := h
  rw [mask_server_eq, hk]
  simp only [server_buy_eq, if_pos hd, hv, unanswered]

def Overruns (s : Server) (e : Event) : Prop :=
  Records e.locals e.beyond s.globals (s.conns e.conn) e.text ∧ BUY_ID_NUM ≤ s.globals.buied_num

instance (s : Server) (e : Event) : Decidable (Overruns s e) := inferInstanceAs (Decidable (_ ∧ _))

structure Recorded (s s' : Server) (o : Outcome) : Prop where
  reply : o.writes.flatten ≠ []
  index : s'.globals.result_index = s.globals.result_index + 1
  record : ∃ t, s'.globals.writeToResult = s.globals.writeToResult ++ t ∧ EndsLine t

def recordOf (q : Handled) : Text :=
  recordText q.pre.globals (q.pre.conns q.event.conn).fd (kind q.event.text) q.out

theorem log_after (b : Boot) (es : List Event) :
    (b.after es).globals.writeToResult = (b.history es).flatMap recordOf := by
  induction es using List.reverseRecOn with
  | nil => rfl
  | append_singleton es e ih =>
    rw [Boot.after, Machine.run_snoc, Boot.history, Machine.trace_snoc, List.flatMap_append,
      ← Boot.history, ← ih, server_step, mask_server_log]
    simp [recordOf, Machine.moment, server_step]

theorem history_getElem? (b : Boot) (es : List Event) (k : ℕ) :
    (b.history es)[k]? = es[k]?.map fun e => server.moment (b.after (es.take k)) e :=
  server.trace_getElem? b.start es k

theorem take_concat_initial {es : List Event} {k : ℕ} {e : Event} (h : es[k]? = some e) :
    es.take k ++ [e] <+: es := by
  have htake : es.take (k + 1) = es.take k ++ [e] := by rw [List.take_add_one, h, Option.toList_some]
  rw [← htake]
  exact List.take_prefix (k + 1) es

end EmbeddedOS.Hw3
