import EmbeddedOS.Hw3.Records

namespace EmbeddedOS.Hw3

open CText Runs

def exit_handler (g : Globals) : Text := g.writeToResult

structure Log_file where
  index : ℤ
  day : ℤ
  connfd : ℤ
  command : Text
  results : Text
  deriving DecidableEq

def readLine (line : Text) : Log_file :=
  let f0 := getline comma (some line) line
  let f1 := getline comma f0.2 f0.1
  let f2 := getline comma f1.2 f1.1
  let f3 := getline comma f2.2 []
  let f4 := getline 13 f3.2 []
  { index := atoi f0.1, day := atoi f1.1, connfd := atoi f2.1, command := f3.1, results := f4.1 }

def read_log_file (file : Text) : List Log_file := (fileLines file).map readLine

namespace Log_file

def line (e : Log_file) : Text :=
  decimal e.index ++ comma :: (decimal e.day ++ comma :: (decimal e.connfd ++ comma ::
    (e.command ++ comma :: e.results)))

structure WellFormed (e : Log_file) : Prop where
  index : IsInt32 e.index
  day : IsInt32 e.day
  connfd : IsInt32 e.connfd
  command : comma ∉ e.command ∧ newline ∉ e.command
  results : newline ∉ e.results ∧ 13 ∉ e.results

variable {e : Log_file}

theorem WellFormed.line_newline (h : e.WellFormed) : newline ∉ e.line := by
  have hd := newline_not_mem_decimal
  have hc : newline ≠ comma := by decide
  simp [line, hd, hc, h.command.2, h.results.1]

theorem WellFormed.readLine (h : e.WellFormed) : readLine e.line = e := by
  have hd := comma_not_mem_decimal
  have h0 := getline_field (hd e.index) (decimal e.day ++ comma :: (decimal e.connfd ++ comma ::
    (e.command ++ comma :: e.results))) e.line
  have h1 := getline_field (hd e.day) (decimal e.connfd ++ comma :: (e.command ++ comma :: e.results))
    (decimal e.index)
  have h2 := getline_field (hd e.connfd) (e.command ++ comma :: e.results) (decimal e.day)
  have h3 := getline_field h.command.1 e.results []
  have h4 := getline_last h.results.2 []
  rw [← line] at h0
  simp only [Hw3.readLine, h0, h1, h2, h3, h4, atoi_decimal h.index, atoi_decimal h.day,
    atoi_decimal h.connfd]

end Log_file

theorem read_log_file_lines {es : List Log_file} (h : ∀ e ∈ es, e.WellFormed) :
    read_log_file (es.flatMap fun e => e.line ++ [newline]) = es := by
  have hlines : (es.flatMap fun e => e.line ++ [newline]) =
      (es.map Log_file.line).flatMap fun l => l ++ [newline] := by
    rw [List.flatMap_map]
  have hnewline : ∀ l ∈ es.map Log_file.line, newline ∉ l := by
    intro l hl
    obtain ⟨e, he, rfl⟩ := List.mem_map.mp hl
    exact (h e he).line_newline
  rw [read_log_file, hlines, fileLines_flatten hnewline, List.map_map]
  exact (List.map_congr_left fun e he => (h e he).readLine).trans (List.map_id es)

def entryOf (q : Handled) : Log_file where
  index := q.pre.globals.result_index
  day := q.pre.globals.day
  connfd := (q.pre.conns q.event.conn).fd
  command := q.out.command
  results := q.out.result.dropLast

def tmpText (q : Handled) : Text :=
  recordPrefix q.pre.globals (q.pre.conns q.event.conn).fd ++
    (q.out.command ++ comma :: if kind q.event.text = .statics then q.out.result else [])

def FitsBuffer (q : Handled) : Prop := (tmpText q).length < recordSize (kind q.event.text)

instance (q : Handled) : Decidable (FitsBuffer q) := inferInstanceAs (Decidable (_ < _))

theorem recordOf_fits {q : Handled} (h : FitsBuffer q) (hline : EndsLine q.out.result) :
    recordOf q = (entryOf q).line ++ [newline] := by
  obtain ⟨r, hr, -⟩ := hline
  have hwhole : recordOf q = recordPrefix q.pre.globals (q.pre.conns q.event.conn).fd ++
      (q.out.command ++ comma :: q.out.result) := by
    unfold FitsBuffer tmpText at h
    unfold recordOf recordText recordHead snprintf
    split_ifs at h ⊢ with hk
    · have hsize : recordSize (kind q.event.text) = 30 := by rw [hk]; rfl
      exact List.take_of_length_le (by omega)
    · rw [List.take_of_length_le (by omega)]
      simp
  rw [hwhole]
  simp [entryOf, Log_file.line, recordPrefix, hr]

theorem result_no_cr (l : Locals) (beyond : ℕ → ID) {g : Globals} (hg : Printable g) (c : Conn)
    (buf : Text) : 13 ∉ (mask_server l beyond g c buf).result := by
  have hmsg : ∀ w ∈ purchaseInfo :: invalid :: answers, 13 ∉ w := by decide
  have hline (t : Text) (ht : 13 ∉ t) : 13 ∉ t ++ [newline] := by
    simp only [List.mem_append, ht, List.mem_singleton, false_or]
    decide
  cases mask_server_replied l beyond g c buf with
  | answer t known result writes =>
    rw [result]
    exact hmsg t (by simp [known])
  | sale result writes =>
    rw [result]
    exact hmsg purchaseInfo (by simp)
  | silent unknown result writes => simp [result]
  | display result writes =>
    rw [result]
    exact hline _ (not_mem_write_info hg (by decide))
  | statics result writes =>
    rw [result]
    exact hline _ (not_mem_decimal (by decide) _)
  | unrecognised command result writes =>
    rw [result]
    exact hmsg invalid (by simp)

def separators : List Byte := [comma, newline, 13, 0]

/-- The type of a buy, as its city field leaves it, is one of the inventory or begins with `XXX`. -/
def NamesType (b : Boot) (t : Text) : Prop :=
  kind t = .buy → ∃ w, wordAt (sscanf buyFormat t) 1 = some w ∧
    let type := spillString 17 ((wordAt (sscanf buyFormat t) 2).getD []) w
    (startsWith (lit "XXX") type = true ∨ ∃ i < b.num, type = (b.data (100 * i)).type)

structure Boot.Loggable (b : Boot) (es : List Event) : Prop where
  texts : ∀ e ∈ es, ∀ x ∈ separators, x ∉ e.text
  types : ∀ e ∈ es, NamesType b e.text
  fits : ∀ q ∈ b.history es, FitsBuffer q
  room : b.RecordsInRoom es

theorem commandText_free {k : Kind} {buf : Text} {x : Byte} (hx : x ∈ separators) (h : x ∉ buf) :
    x ∉ commandText k buf := by
  have hlits : ∀ w ∈ [lit "show", lit "logout", lit "statics", lit "exit"], x ∉ w := by
    have hall : ∀ w ∈ [lit "show", lit "logout", lit "statics", lit "exit"],
        ∀ x ∈ separators, x ∉ w := by decide +kernel
    exact fun w hw => hall w hw x hx
  cases k with
  | display => exact hlits (lit "show") (by simp)
  | login => exact h
  | logout => exact hlits (lit "logout") (by simp)
  | buy => exact h
  | statics => exact hlits (lit "statics") (by simp)
  | invalid => exact hlits (lit "exit") (by simp)

theorem answered_of_namesType {b : Boot} {es : List Event} {e : Event} (h : NamesType b e.text) :
    ¬ Unanswered e.locals e.beyond (b.after es).globals ((b.after es).conns e.conn) e.text := by
  rintro ⟨hk, -, hv⟩
  obtain ⟨w, hw, hname⟩ := h hk
  obtain ⟨hx, -, hf⟩ := verdict_eq_unknown.mp hv
  have htype : (scanRequest e.locals e.text).type =
      spillString 17 ((wordAt (sscanf buyFormat e.text) 2).getD []) w := by simp [scanRequest, hw]
  rw [htype] at hx hf
  rcases hname with hname | ⟨i, hi, hname⟩
  · rw [hname] at hx
    cases hx
  · refine findType_eq_none.mp hf i ?_ ?_
    · rw [(same_after b es).num]
      exact hi
    · rw [hname]
      have hlabel := (same_after b es).label (100 * i)
      simp only [Inv.label, Prod.mk.injEq] at hlabel
      rw [Globals.row, add_zero, hlabel.2.2.2.1]
      rfl

theorem entryOf_wellFormed {b : Boot} {es : List Event} (h : b.Loggable es) {q : Handled}
    (hq : q ∈ b.history es) : (entryOf q).WellFormed ∧ EndsLine q.out.result := by
  obtain ⟨fs, e, gs, rfl, rfl⟩ := mem_history_iff.mp hq
  have he : e ∈ fs ++ e :: gs := by simp
  have htypes := h.types e he
  have htexts := h.texts e he
  have hg := printable_after b fs
  have hans : ¬ Unanswered e.locals e.beyond (b.after fs).globals ((b.after fs).conns e.conn) e.text :=
    answered_of_namesType htypes
  have hline := (answered hg hans).1
  have hcr := result_no_cr e.locals e.beyond hg ((b.after fs).conns e.conn) e.text
  have hfd : ((b.after fs).conns e.conn).fd = b.fd e.conn := (same_after b fs).fd e.conn
  have hcommand := mask_server_command e.locals e.beyond (b.after fs).globals
    ((b.after fs).conns e.conn) e.text
  refine ⟨⟨?_, day_isInt32 b fs, ?_, ?_, ?_⟩, hline⟩
  · change IsInt32 (b.after fs).globals.result_index
    rw [result_index_eq]
    exact int32_isInt32 _
  · change IsInt32 ((b.after fs).conns e.conn).fd
    rw [hfd]
    exact (b.fd_int e.conn).2
  · change comma ∉ (mask_server ..).command ∧ newline ∉ (mask_server ..).command
    rw [hcommand]
    exact ⟨commandText_free (by decide) (htexts comma (by decide)),
      commandText_free (by decide) (htexts newline (by decide))⟩
  · obtain ⟨r, hr, hn⟩ := hline
    change newline ∉ (mask_server e.locals e.beyond _ _ e.text).result.dropLast ∧
      13 ∉ (mask_server e.locals e.beyond _ _ e.text).result.dropLast
    rw [hr] at hcr ⊢
    rw [List.dropLast_concat]
    exact ⟨hn, fun h13 => hcr (List.mem_append_left _ h13)⟩

theorem read_log_file_history {b : Boot} {es : List Event} (h : b.Loggable es) :
    read_log_file (exit_handler (b.after es).globals) = (b.history es).map entryOf := by
  have hlog : (b.after es).globals.writeToResult =
      ((b.history es).map entryOf).flatMap fun e => e.line ++ [newline] := by
    rw [log_after, List.flatMap_map]
    exact List.flatMap_congr fun q hq => recordOf_fits (h.fits q hq) (entryOf_wellFormed h hq).2
  rw [exit_handler, hlog]
  apply read_log_file_lines
  intro e he
  obtain ⟨q, hq, rfl⟩ := List.mem_map.mp he
  exact (entryOf_wellFormed h hq).1

-- a city field of 17 characters empties `type`: the buy gets no result, and two records share a line
example : (read_log_file (exit_handler (sampleShop.after
    [loginEvent, ask 0 (lit "buy S1 1xxxxxxxxxxxxxxxx 1 0 0"), ask 0 (lit "x")]).globals)).length = 2 := by
  decide +kernel

end EmbeddedOS.Hw3
