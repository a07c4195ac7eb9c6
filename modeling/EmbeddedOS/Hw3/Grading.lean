import EmbeddedOS.Hw3.Expected
import EmbeddedOS.Hw3.Loading

namespace EmbeddedOS.Hw3

open CText Runs

def grade (u : Loading.Fresh) (us us' : ℕ → Scratch) (day alcohol : ℤ) (inventory result : Text) :
    List (Option Report) :=
  let mydata : DB := ⟨day, alcohol, alcohol, (Loading.read_file u inventory).2, ∅⟩
  let log_files := read_log_file result
  reports (check_2 us') ((firstPass us mydata log_files).again mydata) log_files

theorem count_shrinks (b : Boot) (es : List Event) {a : ℤ} (h : ∀ j, 0 ≤ (b.data a).count j) :
    ∀ j, 0 ≤ ((b.after es).globals.data a).count j ∧
      ((b.after es).globals.data a).count j ≤ (b.data a).count j := by
  refine server.run_invariant (P := fun s => ∀ j, 0 ≤ (s.globals.data a).count j ∧
    (s.globals.data a).count j ≤ (b.data a).count j) (fun s e hs => ?_) (fun j => ⟨h j, le_refl _⟩) es
  have hdid := mask_server_did e.locals e.beyond s.globals (s.conns e.conn) e.text
  rw [server_step]
  generalize mask_server e.locals e.beyond s.globals (s.conns e.conn) e.text = o at hdid ⊢
  cases hdid with
  | nothing t rejects globals conn quiet => simpa [globals] using hs
  | login t command out valid globals conn answer => simpa [globals] using hs
  | logout t command login globals conn answer => simpa [globals] using hs
  | buy i t command login day sells globals conn answer =>
    obtain ⟨-, hvalid, -, -, hstocked⟩ := verdict_eq_sell.mp sells
    intro j
    simp only [globals, record_data, purchase_count]
    by_cases ha : a = (scanRequest e.locals e.text).article i
    · subst ha
      have hnow := hs j
      have hask := hvalid.1 j
      have hstock := hstocked j
      change _ ≤ (s.globals.data ((scanRequest e.locals e.text).article i)).count j at hstock
      rw [Function.update_self, Pi.sub_apply]
      omega
    · rw [Function.update_of_ne ha]
      exact hs j

theorem decimal_length_mono {m n : ℤ} (hm : 0 ≤ m) (h : m ≤ n) : (decimal m).length ≤ (decimal n).length := by
  rw [decimal, decimal, if_neg (by omega), if_neg (by omega), digits, digits, List.length_map, List.length_map,
    Nat.length_toDigits_le_iff (by norm_num) Nat.length_toDigits_pos]
  calc m.natAbs
    _ ≤ n.natAbs := by omega
    _ < 10 ^ (Nat.toDigits 10 n.natAbs).length :=
      (Nat.length_toDigits_le_iff (by norm_num) Nat.length_toDigits_pos).mp (le_refl _)

def Inventory.Counted (v : Inventory) : Prop := ∀ i < v.num, ∀ j : ℕ, j < (v.data (100 * i)).type_num →
  ∀ k, 0 ≤ (v.data (100 * i + j)).count k

theorem fits30_after {b : Boot} (hcounts : b.Counted) (h : Fits30 b.globals) (es : List Event) :
    Fits30 (b.after es).globals := by
  have hs := same_after b es
  intro i hi r hr
  rw [num_after] at hi
  obtain ⟨j, hj, rfl⟩ := List.mem_map.mp hr
  rw [List.mem_range, hs.type_num] at hj
  have hj' : (j : ℤ) < (b.data (100 * i)).type_num := Int.lt_toNat.mp hj
  have hfirst : (cityText (b.data (100 * i + j))).length ≤ 28 := by
    apply h i hi
    refine List.mem_map.mpr ⟨j, List.mem_range.mpr ?_, rfl⟩
    simpa [Globals.row, Boot.globals] using hj
  have hshrinks := count_shrinks b es (hcounts i hi j hj')
  have hlen (k : Fin 3) := decimal_length_mono (hshrinks k).1 (hshrinks k).2
  have h0 := hlen 0
  have h1 := hlen 1
  have h2 := hlen 2
  obtain ⟨hline, -, -, hcity⟩ := hs.row i j
  change (decimal ((b.after es).globals.row i j).a).length ≤ (decimal (b.data (100 * i + j)).a).length at h0
  change (decimal ((b.after es).globals.row i j).b).length ≤ (decimal (b.data (100 * i + j)).b).length at h1
  change (decimal ((b.after es).globals.row i j).c).length ≤ (decimal (b.data (100 * i + j)).c).length at h2
  simp only [cityText, List.length_append, List.length_cons, hline, hcity] at hfirst ⊢
  omega

theorem buyFields_buyText {type : Text} {c : ℕ} {X : Fin 3 → Text} {m : Fin 3 → ℤ} (ht : IsWord type) (hc : c ≤ 9)
    (hX : ∀ j, Numeral (m j) (X j)) (hm : ∀ j, IsInt32 (m j)) : BuyFields (buyText type (decimal c) X) := by
  have hb : Blanks [32] := blanks_blank
  have hi : IsInt32 c := by simp only [IsInt32]; omega
  have hdrop : (buyText type (decimal c) X).drop 4 =
      type ++ 32 :: (decimal c ++ 32 :: (X 0 ++ 32 :: (X 1 ++ 32 :: X 2))) := rfl
  have h0 := @getWord_word [] type (32 :: (decimal c ++ 32 :: (X 0 ++ 32 :: (X 1 ++ 32 :: X 2))))
    (by simp) ht (stops_blank _) []
  have h1 := getInt_numeral hb (decimal_numeral c) hi (stops_blank' (X 0 ++ 32 :: (X 1 ++ 32 :: X 2))) 0
  have h2 := getInt_numeral hb (hX 0) (hm 0) (stops_blank' (X 1 ++ 32 :: X 2)) 0
  have h3 := getInt_numeral hb (hX 1) (hm 1) (stops_blank' (X 2)) 0
  have h4 := getInt_numeral hb (hX 2) (hm 2) (stops_nil _) 0
  simp only [List.nil_append, List.singleton_append, List.append_nil] at h0 h1 h2 h3 h4
  simp only [BuyFields, hdrop, h0, skipInt, h1, h2, h3, h4, Option.isSome_some]

section Script

variable {b : Boot} {es : List Event}

theorem command_legible (h : b.Script es) {e : Event} (he : e ∈ es) :
    let command := commandText (kind e.text) e.text
    (startsWith (lit "login ") command = true → 10 ≤ (command.drop 6).length) ∧
      (startsWith (lit "buy ") command = true → BuyFields command) := by
  have htext := h.text e he
  generalize e.text = w at htext
  cases htext with
  | login x ds letter length digits =>
    refine ⟨fun _ => ?_, fun hbuy => by cases hbuy⟩
    change 10 ≤ (x :: ds).length
    rw [List.length_cons, length]
  | logout => exact ⟨by decide, by decide⟩
  | statics => exact ⟨by decide, by decide⟩
  | display => exact ⟨by decide, by decide⟩
  | other t unknown =>
    have hexit : commandText .invalid w = lit "exit" := rfl
    rw [unknown, hexit]
    exact ⟨by decide, by decide⟩
  | buy type c X m name digit numerals int sum =>
    refine ⟨fun hlogin => (by cases hlogin), fun _ => ?_⟩
    rcases name with rfl | ⟨i, hi, rfl⟩
    · exact buyFields_buyText (by simp [IsWord, lit, isspace]) digit.2 numerals int
    · exact buyFields_buyText (b.type_name i hi).1 digit.2 numerals int

theorem command_show_iff (h : b.Script es) {e : Event} (he : e ∈ es) :
    commandText (kind e.text) e.text = lit "show" ↔ kind e.text = .display := by
  have htext := h.text e he
  generalize e.text = w at htext
  cases htext with
  | login x ds letter length digits => exact iff_of_false (fun hc => by cases hc) (fun hc => by cases hc)
  | logout => decide
  | statics => decide
  | display => decide
  | other t unknown =>
    have hexit : commandText .invalid w = lit "exit" := rfl
    rw [unknown, hexit]
    decide
  | buy type c X m name digit numerals int sum =>
    exact iff_of_false (fun hc => by cases hc) (fun hc => by cases hc)

def entryAt (b : Boot) (es : List Event) (k : ℕ) (e : Event) : Log_file :=
  entryOf (server.moment (b.after (es.take k)) e)

theorem entryAt_connfd (k : ℕ) (e : Event) : (entryAt b es k e).connfd = b.fd e.conn :=
  (same_after b (es.take k)).fd e.conn

theorem entryAt_command (k : ℕ) (e : Event) :
    (entryAt b es k e).command = commandText (kind e.text) e.text :=
  mask_server_command e.locals e.beyond (b.after (es.take k)).globals ((b.after (es.take k)).conns e.conn) e.text

theorem entries_getElem? (k : ℕ) : ((b.history es).map entryOf)[k]? = es[k]?.map (entryAt b es k) := by
  rw [List.getElem?_map, history_getElem?, Option.map_map]
  rfl

theorem entries_take (k : ℕ) : ((b.history es).map entryOf).take k = (b.history (es.take k)).map entryOf := by
  have hsplit := server.trace_append b.start (es.take k) (es.drop k)
  rw [List.take_append_drop] at hsplit
  rw [← List.map_take, Boot.history, Boot.history, hsplit]
  by_cases hk : k ≤ es.length
  · rw [List.take_left' (by rw [server.trace_length, List.length_take, min_eq_left hk])]
  · rw [List.drop_of_length_le (by omega), Machine.trace_nil, List.append_nil, List.take_of_length_le]
    rw [server.trace_length, List.length_take]
    omega

theorem entries_snoc (k : ℕ) (e : Event) : (b.history (es.take k ++ [e])).map entryOf =
    (b.history (es.take k)).map entryOf ++ [entryAt b es k e] := by
  rw [Boot.history, Machine.trace_snoc, List.map_append]
  rfl

theorem replayed_length {k : ℕ} (hk : k ≤ es.length) (us : ℕ → Scratch) (area_start area_end : List ℕ) :
    (b.replayed us area_start area_end (es.take k)).log_files.length = k := by
  rw [Boot.replayed, check_2_run, run_log_files us rfl, List.length_map, Machine.trace_length, List.length_take,
    min_eq_left hk]

theorem entries_legible (h : b.Script es) : ∀ x ∈ (b.history es).map entryOf, x.Legible := by
  intro x hx
  obtain ⟨k, hk⟩ := List.getElem?_of_mem hx
  rw [entries_getElem?, Option.map_eq_some_iff] at hk
  obtain ⟨e, he, rfl⟩ := hk
  have hmem := List.mem_of_getElem? he
  have hlegible := command_legible h hmem
  rw [← entryAt_command k e] at hlegible
  refine ⟨?_, hlegible.1, hlegible.2⟩
  rw [entryAt_connfd]
  exact ⟨(b.fd_int e.conn).1, h.fd_lt e hmem⟩

end Script

theorem sold_iff_day {s : Server} (hday : 1 ≤ s.globals.day ∧ s.globals.day ≤ 7) (e : Event) :
    (server.step s e).2.Sold ↔ (server.step s e).1.globals.day ≠ s.globals.day := by
  have hdid := mask_server_did e.locals e.beyond s.globals (s.conns e.conn) e.text
  rw [server_step]
  generalize mask_server e.locals e.beyond s.globals (s.conns e.conn) e.text = o at hdid ⊢
  cases hdid with
  | nothing t rejects globals conn quiet =>
    apply iff_of_false quiet.2.2
    simp [globals]
  | login t command out valid globals conn answer =>
    apply iff_of_false answer.not_sold
    simp [globals]
  | logout t command login globals conn answer =>
    apply iff_of_false answer.not_sold
    simp [globals]
  | buy i t command login day sells globals conn answer =>
    apply iff_of_true answer
    simp only [globals, record_day, purchase_day]
    generalize s.globals.day = d at hday
    obtain ⟨hl, hu⟩ := hday
    interval_cases d <;> decide

theorem accepts_iff_day {u : Scratch} {t : Checker} {e : Log_file} (hday : 1 ≤ t.mydata.day ∧ t.mydata.day ≤ 7) :
    t.Accepts u e ↔ (check_entry u t e).1.mydata.day ≠ t.mydata.day := by
  have hfst : (check_entry u t e).1 = (check_entry_1 u t e).1 := by
    rw [check_entry, check_entry_1]
    split_ifs <;> rfl
  have hmoves := check_entry_1_moves u t e
  rw [hfst]
  generalize (check_entry_1 u t e).1 = t' at hmoves
  cases hmoves with
  | login rejected _ _ => exact iff_of_false rejected (not_not.mpr rfl)
  | logout rejected => exact iff_of_false rejected (not_not.mpr rfl)
  | still rejected => exact iff_of_false rejected (not_not.mpr rfl)
  | sale accepted st ptr _ _ =>
    apply iff_of_true accepted
    simp only [Checker.sold, sell_day]
    generalize t.mydata.day = d at hday
    obtain ⟨hl, hu⟩ := hday
    interval_cases d <;> decide

section Run

variable {b : Boot} {es : List Event} (h : b.Script es) (hfit : b.RunFits es) (us : ℕ → Scratch)
  (area_start area_end : List ℕ)
include h hfit

theorem accepted_iff_sold {k : ℕ} {e : Event} (he : es[k]? = some e) :
    AcceptedBy (check_2 us) us (b.checker area_start area_end) ((b.history es).map entryOf) k ↔
      (server.step (b.after (es.take k)) e).2.Sold := by
  have htake : es.take k ++ [e] <+: es := take_concat_initial he
  have htake' : es.take k <+: es := (List.prefix_append _ _).trans htake
  obtain ⟨hk, -⟩ := List.getElem?_eq_some_iff.mp he
  have hnow := (tracks_run h hfit htake' us area_start area_end).1.day
  have hnext := (tracks_run h hfit htake us area_start area_end).1.day
  have hday := (ready_after h (hfit.initial htake')).day
  rw [Boot.replayed, entries_snoc, Machine.run_snoc] at hnext
  change (check_entry (us (b.replayed us area_start area_end (es.take k)).log_files.length)
    (b.replayed us area_start area_end (es.take k)) (entryAt b es k e)).1.mydata.day = _ at hnext
  rw [replayed_length hk.le] at hnext
  have hafter : b.after (es.take k ++ [e]) = (server.step (b.after (es.take k)) e).1 :=
    server.run_snoc b.start (es.take k) e
  rw [AcceptedBy, entries_getElem?, he, Option.map_some, entries_take]
  simp only [Option.some.injEq, exists_eq_left']
  change (b.replayed us area_start area_end (es.take k)).Accepts (us k) (entryAt b es k e) ↔ _
  rw [accepts_iff_day (by rw [hnow]; exact hday), hnext, hnow, sold_iff_day hday, hafter]

end Run

/-- The `k`-th command lies between a purchase and the command before it on the same connection. -/
def Boot.Exempt (b : Boot) (es : List Event) (k : ℕ) : Prop :=
  ∃ i j e f, i < k ∧ k < j ∧ es[i]? = some e ∧ es[j]? = some f ∧ e.conn = f.conn ∧
    (∀ l g, i < l → l < j → es[l]? = some g → g.conn ≠ f.conn) ∧ (server.step (b.after (es.take j)) f).2.Sold

theorem connfdAt_entries {b : Boot} {es : List Event} (k : ℕ) :
    connfdAt ((b.history es).map entryOf) k = es[k]?.map fun e => b.fd e.conn := by
  rw [connfdAt, entries_getElem?, Option.map_map]
  congr 1
  funext e
  exact entryAt_connfd k e

section Windows

variable {b : Boot} {es : List Event} (h : b.Script es)
include h

theorem fd_eq_iff {e f : Event} (he : e ∈ es) (hf : f ∈ es) : b.fd e.conn = b.fd f.conn ↔ e.conn = f.conn :=
  ⟨h.fd_inj e he f hf, fun hc => by rw [hc]⟩

theorem connfdAt_eq_iff {k : ℕ} {f : Event} (hf : f ∈ es) :
    connfdAt ((b.history es).map entryOf) k = some (b.fd f.conn) ↔ ∃ e, es[k]? = some e ∧ e.conn = f.conn := by
  rw [connfdAt_entries, Option.map_eq_some_iff]
  apply exists_congr
  intro e
  apply and_congr_right
  intro he
  exact fd_eq_iff h (List.mem_of_getElem? he) hf

theorem exempt_iff (hfit : b.RunFits es) (us : ℕ → Scratch) (k : ℕ) :
    (∃ start finish, Window ((b.history es).map entryOf)
      (Accepted us (b.checker [] []).mydata ((b.history es).map entryOf)) start finish ∧ start < k ∧ k < finish) ↔
      b.Exempt es k := by
  have haccepted (j : ℕ) : Accepted us (b.checker [] []).mydata ((b.history es).map entryOf) j ↔
      AcceptedBy (check_2 us) us (b.checker [] []) ((b.history es).map entryOf) j := by
    simp only [Accepted, AcceptedBy, check_2_run]
    rfl
  constructor
  · rintro ⟨i, j, hw, hi, hj⟩
    obtain ⟨fd, hfi, hfj, hbetween⟩ := hw.same
    have hj' := hfj
    rw [connfdAt_entries, Option.map_eq_some_iff] at hj'
    obtain ⟨f, hf, rfl⟩ := hj'
    have hmem := List.mem_of_getElem? hf
    obtain ⟨e, he, hconn⟩ := (connfdAt_eq_iff h hmem).mp hfi
    refine ⟨i, j, e, f, hi, hj, he, hf, hconn, ?_, ?_⟩
    · intro l g hil hlj hg hc
      exact hbetween l hil hlj ((connfdAt_eq_iff h hmem).mpr ⟨g, hg, hc⟩)
    · exact (accepted_iff_sold h hfit us [] [] hf).mp ((haccepted j).mp hw.accepted)
  · rintro ⟨i, j, e, f, hi, hj, he, hf, hconn, hbetween, hsold⟩
    have hmem := List.mem_of_getElem? hf
    refine ⟨i, j, ⟨by omega, ⟨b.fd f.conn, ?_, ?_, ?_⟩, ?_⟩, hi, hj⟩
    · exact (connfdAt_eq_iff h hmem).mpr ⟨e, he, hconn⟩
    · exact (connfdAt_eq_iff h hmem).mpr ⟨f, hf, rfl⟩
    · intro l hil hlj hc
      obtain ⟨g, hg, hgc⟩ := (connfdAt_eq_iff h hmem).mp hc
      exact hbetween l g hil hlj hg hgc
    · exact (haccepted j).mpr ((accepted_iff_sold h hfit us [] [] hf).mpr hsold)

end Windows

/-- One verdict for each command; the only commands that are reported are those `show` that no window
exempts, and these only where the file does not list its types in the order of the map. -/
structure Boot.Graded (b : Boot) (es : List Event) (verdicts : List (Option Report)) : Prop where
  length : verdicts.length = es.length
  reported : ∀ k e, es[k]? = some e →
    ((∃ r, verdicts[k]? = some (some r)) ↔ kind e.text = .display ∧ ¬ b.InMapOrder ∧ ¬ b.Exempt es k)

structure Session (stock : List Loading.Shelf) (l : Loading.Loader) (b : Boot) (es : List Event) : Prop where
  fits : Loading.Fits stock
  file : l.fp = Loading.layout stock
  loaded : b.toInventory = Loading.inventory fits (Loading.load_layout fits l file)
  counted : b.Counted
  rows : Fits30 b.globals
  script : b.Script es
  loggable : b.Loggable es

theorem Session.mydata {stock : List Loading.Shelf} {l : Loading.Loader} {b : Boot} {es : List Event}
    (h : Session stock l b es) (u : Loading.Fresh) :
    DB.mk b.day b.capacity b.capacity (Loading.read_file u (Loading.layout stock)).2 ∅ = (b.checker [] []).mydata := by
  rw [Loading.read_file_table u h.fits (Loading.load_layout h.fits l h.file), ← h.loaded]
  rfl

section Passes

variable {b : Boot} {es : List Event} (h : b.Script es) (hfit : b.RunFits es) (us us' : ℕ → Scratch)
include h hfit

theorem second_pass : ∃ area_start area_end,
    (firstPass us (b.checker [] []).mydata ((b.history es).map entryOf)).again (b.checker [] []).mydata =
      b.checker area_start area_end ∧
        ∀ k, check_flag (b.replayed us' area_start area_end (es.take k)) k = false ↔ b.Exempt es k := by
  have hlegible := entries_legible h
  refine ⟨_, _, again_eq_checker b us hlegible, fun k => ?_⟩
  obtain ⟨htiled, hmem⟩ := again_tiled us us' (b.checker [] []).mydata hlegible k
  have hflag := (htiled.windows hmem).flag k
  rw [again_eq_checker b us hlegible, entries_take] at hflag
  rw [← exempt_iff h hfit us k]
  exact hflag

theorem quiet_at {k : ℕ} {e : Event} (he : es[k]? = some e) (hshow : kind e.text ≠ .display)
    (area_start area_end : List ℕ) :
    ((check_2 us).step (b.replayed us area_start area_end (es.take k)) (entryAt b es k e)).2 = none := by
  have hquiet := (tracks_run h hfit (take_concat_initial he) us area_start area_end).2
  rw [entries_snoc, Machine.trace_snoc] at hquiet
  apply hquiet _ (List.mem_append_right _ (List.mem_singleton_self _))
  change (entryAt b es k e).command ≠ lit "show"
  rw [entryAt_command]
  exact mt (command_show_iff h (List.mem_of_getElem? he)).mp hshow

theorem show_reported_iff {k : ℕ} (hrows : Fits30 (b.after (es.take k)).globals) {e : Event} (he : es[k]? = some e)
    (hshow : kind e.text = .display) (area_start area_end : List ℕ) :
    (∃ r, ((check_2 us).step (b.replayed us area_start area_end (es.take k)) (entryAt b es k e)).2 = some r) ↔
      ¬ b.InMapOrder ∧ check_flag (b.replayed us area_start area_end (es.take k)) k = true := by
  have hmem := List.mem_of_getElem? he
  obtain ⟨hk, -⟩ := List.getElem?_eq_some_iff.mp he
  have hprefix : es.take k <+: es := List.take_prefix k es
  have hcommand : (entryAt b es k e).command = lit "show" := by
    rw [entryAt_command]
    exact (command_show_iff h hmem).mpr hshow
  have hstep : ((check_2 us).step (b.replayed us area_start area_end (es.take k)) (entryAt b es k e)).2 =
      check_show (b.replayed us area_start area_end (es.take k)) (entryAt b es k e) := by
    change (check_entry _ _ _).2 = _
    rw [check_entry, hcommand]
    rfl
  have hresults : (entryAt b es k e).results = write_info (b.after (es.take k)).globals := by
    change (server.step (b.after (es.take k)) e).2.result.dropLast = _
    rw [server_step, mask_server_eq, hshow]
    exact List.dropLast_concat
  have hstock := same_stock_after h hfit hprefix us area_start area_end
  have hlength := text_length h.distinct h.numbered (same_after b (es.take k)) hrows hstock
  have htext := text_eq_iff h.distinct h.numbered (same_after b (es.take k)) hrows hstock
  rw [hstep, check_show, hresults, List.take_of_length_le hlength.le, replayed_length hk.le]
  split_ifs with hc
  · exact iff_of_true ⟨_, rfl⟩ ⟨mt htext.mpr hc.1, hc.2⟩
  · apply iff_of_false
    · rintro ⟨r, hr⟩
      cases hr
    · rintro ⟨horder, hflag⟩
      exact hc ⟨mt htext.mp horder, hflag⟩

end Passes

theorem session_graded {stock : List Loading.Shelf} {l : Loading.Loader} {b : Boot} {es : List Event}
    (h : Session stock l b es) (u : Loading.Fresh) (us us' : ℕ → Scratch) : b.Graded es
      (grade u us us' b.day b.capacity (Loading.layout stock) (exit_handler (b.after es).globals)) := by
  have hfit := (runFits_iff b es).mpr h.loggable.room
  obtain ⟨area_start, area_end, hagain, hflag⟩ := second_pass h.script hfit us us'
  rw [grade, h.mydata, read_log_file_history h.loggable]
  simp only [hagain]
  constructor
  · rw [reports, List.length_map, Machine.trace_length, List.length_map, Machine.trace_length]
  intro k e he
  have hmem := List.mem_of_getElem? he
  have hreport : (reports (check_2 us') (b.checker area_start area_end) ((b.history es).map entryOf))[k]? =
      some ((check_2 us').step (b.replayed us' area_start area_end (es.take k)) (entryAt b es k e)).2 := by
    rw [reports_getElem?, entries_getElem?, he, entries_take]
    rfl
  rw [hreport]
  simp only [Option.some.injEq]
  by_cases hshow : kind e.text = .display
  · rw [show_reported_iff h.script hfit us' (fits30_after h.counted h.rows _) he hshow, ← hflag k,
      Bool.not_eq_false]
    exact ⟨fun hr => ⟨hshow, hr⟩, fun hr => hr.2⟩
  · refine iff_of_false ?_ (fun hr => hshow hr.1)
    rintro ⟨r, hr⟩
    rw [quiet_at h.script hfit us' he hshow] at hr
    cases hr

def plainStock : List Loading.Shelf := [⟨lit "S1", [⟨1, lit "C1", ![5, 6, 7]⟩]⟩]

def plainLoader : Loading.Loader := ⟨0, fun _ => ⟨0, 0, 0, 0, 0, 0, [], []⟩, [], Loading.layout plainStock⟩

theorem plainStock_fits : Loading.Fits plainStock := by
  have hname : ∀ w ∈ [lit "S1", lit "C1"], w ∈ ["S2", "S1", "C3", "C1"].map lit := by decide
  refine ⟨by decide, by decide, fun sh hsh => ?_⟩
  obtain rfl := List.mem_singleton.mp hsh
  refine ⟨Loading.isName_two (by norm_num) (hname _ (by decide)), by decide, by decide, fun c hc => ?_⟩
  obtain rfl := List.mem_singleton.mp hc
  exact ⟨Loading.isName_two (by norm_num) (hname _ (by decide)), by decide, by decide⟩

def plainShop : Boot where
  toInventory := Loading.inventory plainStock_fits (Loading.load_layout plainStock_fits plainLoader rfl)
  day := 1
  capacity := 50
  fd := sampleShop.fd
  ID := sampleShop.ID
  day_int := sampleShop.day_int
  capacity_int := sampleShop.capacity_int
  fd_int := sampleShop.fd_int

theorem plainShop_holds : Loading.Holds plainShop.data (100 * (0 : ℕ)) ⟨lit "S1", [⟨1, lit "C1", ![5, 6, 7]⟩]⟩ :=
  (Loading.load_layout plainStock_fits plainLoader rfl).holds 0 _ rfl

theorem plainShop_row {P : ℕ → ℕ → Prop} (h : P 0 0) :
    ∀ i < plainShop.num, ∀ j : ℕ, j < (plainShop.data (100 * (i : ℕ))).type_num → P i j := by
  intro i hi j hj
  obtain rfl : i = 0 := Nat.lt_one_iff.mp hi
  rw [plainShop_holds.type_num] at hj
  obtain rfl : j = 0 := Nat.lt_one_iff.mp (Int.ofNat_lt.mp hj)
  exact h

theorem plainShop_city : Loading.cityOf (plainShop.data (100 * (0 : ℕ) + (0 : ℕ))) = ⟨1, lit "C1", ![5, 6, 7]⟩ :=
  plainShop_holds.row 0 _ rfl

theorem plainShop_only {P : ℕ → Prop} (h : P 0) : ∀ i < plainShop.num, P i := by
  intro i hi
  obtain rfl : i = 0 := Nat.lt_one_iff.mp hi
  exact h

theorem plainShop_script : plainShop.Script [ask 0 (lit "show")] where
  distinct := plainShop_only (plainShop_only fun _ => rfl)
  names := by
    apply plainShop_only
    rw [plainShop_holds.type]
    decide
  numbered := plainShop_row (congrArg City.id plainShop_city)
  day := by decide
  fd_lt := by decide
  fd_inj := by decide
  text := by
    intro e he
    obtain rfl := List.mem_singleton.mp he
    exact .display

set_option maxRecDepth 4000 in
theorem plainShop_session : Session plainStock plainLoader plainShop [ask 0 (lit "show")] where
  fits := plainStock_fits
  file := rfl
  loaded := rfl
  counted := by
    apply plainShop_row
    have hcount : (plainShop.data (100 * (0 : ℕ) + (0 : ℕ))).count = ![5, 6, 7] := congrArg City.mask plainShop_city
    rw [hcount]
    decide
  rows := by
    have hline : (plainShop.data (100 * (0 : ℕ) + (0 : ℕ))).line = 1 := congrArg City.id plainShop_city
    have hcity : (plainShop.data (100 * (0 : ℕ) + (0 : ℕ))).city = lit "C1" := congrArg City.name plainShop_city
    have hcount : (plainShop.data (100 * (0 : ℕ) + (0 : ℕ))).count = ![5, 6, 7] := congrArg City.mask plainShop_city
    apply plainShop_only
    intro r hr
    obtain ⟨j, hj, rfl⟩ := List.mem_map.mp hr
    have hnum : (plainShop.globals.row 0 0).type_num = 1 := plainShop_holds.type_num
    rw [List.mem_range, hnum] at hj
    obtain rfl : j = 0 := Nat.lt_one_iff.mp hj
    have ha : (plainShop.data (100 * (0 : ℕ) + (0 : ℕ))).a = 5 := congrFun hcount 0
    have hb : (plainShop.data (100 * (0 : ℕ) + (0 : ℕ))).b = 6 := congrFun hcount 1
    have hc : (plainShop.data (100 * (0 : ℕ) + (0 : ℕ))).c = 7 := congrFun hcount 2
    change (cityText (plainShop.data (100 * (0 : ℕ) + (0 : ℕ)))).length ≤ 28
    rw [cityText, hline, hcity, ha, hb, hc]
    decide
  script := plainShop_script
  loggable := by
    refine ⟨?_, ?_, ?_, (runFits_iff _ _).mp (withinRecord_of_length (by decide)).fits⟩
    · intro e he
      obtain rfl := List.mem_singleton.mp he
      decide
    · intro e he hk
      obtain rfl := List.mem_singleton.mp he
      cases hk
    · intro q hq
      obtain rfl := List.mem_singleton.mp hq
      decide

theorem session_graded_show : plainShop.Graded [ask 0 (lit "show")]
    (grade ⟨0, 0, fun _ => 0⟩ blankScratch blankScratch 1 50 (Loading.layout plainStock)
      (exit_handler (plainShop.after [ask 0 (lit "show")]).globals)) :=
  session_graded plainShop_session ⟨0, 0, fun _ => 0⟩ blankScratch blankScratch

end EmbeddedOS.Hw3
