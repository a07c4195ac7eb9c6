import EmbeddedOS.Hw3.Grading

namespace EmbeddedOS.Hw3

open CText Runs

def Log_file.key (e : Log_file) : ℤ × Text := (e.connfd, e.command)

structure Mirrors (s t : Checker) : Prop where
  log_static : s.log_static = t.log_static
  my_id : s.my_id = t.my_id
  mydata : s.mydata = t.mydata
  area_start : s.area_start = t.area_start
  area_end : s.area_end = t.area_end
  keys : s.log_files.map Log_file.key = t.log_files.map Log_file.key

section Pair

variable {s t : Checker} (h : Mirrors s t) {e e' : Log_file} (he : e.key = e'.key) (u : Scratch)
include h

theorem Mirrors.length : s.log_files.length = t.log_files.length := by
  have hlen := congrArg List.length h.keys
  rwa [List.length_map, List.length_map] at hlen

theorem Mirrors.lastEntry (connfd : ℤ) : Hw3.lastEntry s connfd = Hw3.lastEntry t connfd := by
  have hat (k : ℕ) : s.log_files[k]?.map Log_file.connfd = t.log_files[k]?.map Log_file.connfd := by
    have hkey := congrArg (fun l => (l[k]?).map Prod.fst) h.keys
    simpa [Option.map_map, Function.comp_def, Log_file.key] using hkey
  simp only [Hw3.lastEntry, h.length, hat]

theorem Mirrors.flag (i : ℕ) : check_flag s i = check_flag t i := by
  rw [check_flag, check_flag, h.area_start, h.area_end]

include he

theorem Mirrors.login : Mirrors (check_login u s e).1 (check_login u t e').1 ∧ ∃ answer,
    (check_login u s e).2 = compare_results e answer ∧ (check_login u t e').2 = compare_results e' answer := by
  obtain ⟨hfd, hcommand⟩ := Prod.mk.inj he
  simp only [check_login, h.log_static, h.my_id, hfd, hcommand]
  split_ifs
  · exact ⟨⟨rfl, rfl, h.mydata, h.area_start, h.area_end, h.keys⟩, _, rfl, rfl⟩
  · exact ⟨h, _, rfl, rfl⟩

theorem Mirrors.logout : Mirrors (check_logout s e).1 (check_logout t e').1 ∧ ∃ answer,
    (check_logout s e).2 = compare_results e answer ∧ (check_logout t e').2 = compare_results e' answer := by
  obtain ⟨hfd, hcommand⟩ := Prod.mk.inj he
  simp only [check_logout, h.log_static, h.my_id, h.mydata, hfd]
  split_ifs
  · exact ⟨h, _, rfl, rfl⟩
  · exact ⟨⟨rfl, rfl, rfl, h.area_start, h.area_end, h.keys⟩, _, rfl, rfl⟩

theorem Mirrors.buy : Mirrors (check_buy u s e).1 (check_buy u t e').1 ∧ ∃ answer,
    (check_buy u s e).2 = compare_results e answer ∧ (check_buy u t e').2 = compare_results e' answer := by
  obtain ⟨hfd, hcommand⟩ := Prod.mk.inj he
  simp only [check_buy, h.log_static, h.my_id, h.mydata, hfd, hcommand]
  split_ifs
  · cases t.mydata.stores_map[(scanBuy u e'.command).store]? with
    | none => exact ⟨h, _, rfl, rfl⟩
    | some st =>
      cases hptr : st.cities_map[(scanBuy u e'.command).city_idx]? with
      | none =>
        simp only [hptr]
        exact ⟨h, _, rfl, rfl⟩
      | some ptr =>
        simp only [hptr, h.lastEntry, h.area_start, h.area_end, h.length]
        split_ifs
        · exact ⟨⟨rfl, rfl, rfl, rfl, rfl, h.keys⟩, _, rfl, rfl⟩
        · exact ⟨h, _, rfl, rfl⟩
  · exact ⟨h, _, rfl, rfl⟩
  · exact ⟨h, _, rfl, rfl⟩

theorem Mirrors.entry : Mirrors (check_entry u s e).1 (check_entry u t e').1 ∧
    (¬ e.Query → ∃ answer, (check_entry u s e).2 = compare_results e answer ∧
      (check_entry u t e').2 = compare_results e' answer) := by
  obtain ⟨hfd, hcommand⟩ := Prod.mk.inj he
  unfold check_entry
  rw [hcommand]
  split_ifs with hlogin hlogout hbuy hshow hstatics
  · exact ⟨(h.login he u).1, fun _ => (h.login he u).2⟩
  · exact ⟨(h.logout he).1, fun _ => (h.logout he).2⟩
  · exact ⟨(h.buy he u).1, fun _ => (h.buy he u).2⟩
  · exact ⟨h, fun hq => absurd (Or.inl (hcommand.trans hshow)) hq⟩
  · exact ⟨h, fun hq => absurd (Or.inr (hcommand.trans hstatics)) hq⟩
  · exact ⟨h, fun _ => ⟨_, rfl, rfl⟩⟩

end Pair

theorem Mirrors.refl (t : Checker) : Mirrors t t := ⟨rfl, rfl, rfl, rfl, rfl, rfl⟩

theorem Mirrors.run {s t : Checker} (h : Mirrors s t) {xs ys : List Log_file}
    (hkeys : xs.map Log_file.key = ys.map Log_file.key) (us : ℕ → Scratch) :
    Mirrors ((check_2 us).run s xs) ((check_2 us).run t ys) := by
  induction xs generalizing ys s t with
  | nil =>
    obtain rfl := List.map_eq_nil_iff.mp hkeys.symm
    exact h
  | cons x xs ih =>
    cases ys with
    | nil => cases hkeys
    | cons y ys =>
      obtain ⟨hkey, hrest⟩ := List.cons.inj hkeys
      apply ih _ hrest
      have hentry := (h.entry hkey (us t.log_files.length)).1
      change Mirrors { (check_entry (us s.log_files.length) s x).1 with log_files := s.log_files ++ [x] }
        { (check_entry (us t.log_files.length) t y).1 with log_files := t.log_files ++ [y] }
      rw [h.length]
      refine ⟨hentry.log_static, hentry.my_id, hentry.mydata, hentry.area_start, hentry.area_end, ?_⟩
      rw [List.map_append, List.map_append, h.keys, List.map_singleton, List.map_singleton, hkey]

theorem Mirrors.again {s t : Checker} (h : Mirrors s t) (temp : DB) : Mirrors (s.again temp) (t.again temp) := by
  refine ⟨?_, ?_, rfl, h.area_start, h.area_end, rfl⟩
  · simp only [Checker.again, clear, h.log_static]
  · simp only [Checker.again, clear, h.my_id]

/-- The log names the commands of the run and their connections; the rest is anything. -/
def Claims (b : Boot) (es : List Event) (log : List Log_file) : Prop :=
  log.map Log_file.key = ((b.history es).map entryOf).map Log_file.key

structure Boot.Audited (b : Boot) (es : List Event) (log : List Log_file) (verdicts : List (Option Report)) : Prop where
  length : verdicts.length = es.length
  answered : ∀ k e x, es[k]? = some e → log[k]? = some x → kind e.text ≠ .display → kind e.text ≠ .statics →
    ((∃ r, verdicts[k]? = some (some r)) ↔ x.results ≠ (server.step (b.after (es.take k)) e).2.result.dropLast)
  statics : ∀ k e x, es[k]? = some e → log[k]? = some x → kind e.text = .statics →
    ((∃ r, verdicts[k]? = some (some r)) ↔
      atoi x.results ≠ (b.after (es.take k)).globals.alcohol ∧ ¬ b.Exempt es k)
  display : b.InMapOrder → ∀ k e x, es[k]? = some e → log[k]? = some x → kind e.text = .display →
    ((∃ r, verdicts[k]? = some (some r)) ↔
      ¬ write_info (b.after (es.take k)).globals <+: x.results ∧ ¬ b.Exempt es k)

theorem compare_results_iff (e : Log_file) (answer : Text) :
    (∃ r, compare_results e answer = some r) ↔ e.results ≠ answer := by
  rw [compare_results]
  split_ifs with h
  · exact iff_of_false (fun ⟨r, hr⟩ => by cases hr) (not_not.mpr h)
  · exact iff_of_true ⟨_, rfl⟩ h

theorem query_iff {b : Boot} {es : List Event} (h : b.Script es) {e : Event} (he : e ∈ es) (k : ℕ) :
    (entryAt b es k e).Query ↔ kind e.text = .display ∨ kind e.text = .statics := by
  have htext := h.text e he
  rw [Log_file.Query, entryAt_command]
  generalize e.text = w at htext
  cases htext with
  | login x ds letter length digits =>
    refine iff_of_false ?_ ?_
    · rintro (hc | hc) <;> cases hc
    · rintro (hc | hc) <;> cases hc
  | logout => decide
  | statics => decide
  | display => decide
  | other t unknown =>
    have hexit : commandText .invalid w = lit "exit" := rfl
    rw [unknown, hexit]
    decide
  | buy type c X m name digit numerals int sum =>
    refine iff_of_false ?_ ?_
    · rintro (hc | hc) <;> cases hc
    · rintro (hc | hc) <;> cases hc

section Audit

variable {b : Boot} {es : List Event} (h : b.Script es) (hfit : b.RunFits es) {log : List Log_file}
  (hlog : Claims b es log) (us us' : ℕ → Scratch)
include hlog

theorem claims_key {k : ℕ} {e : Event} {x : Log_file} (he : es[k]? = some e) (hx : log[k]? = some x) :
    x.key = (entryAt b es k e).key := by
  have hat := congrArg (fun l => l[k]?) hlog
  simp only [List.getElem?_map, hx, Option.map_some] at hat
  rw [← List.getElem?_map, entries_getElem?, he, Option.map_some, Option.map_some, Option.some.injEq] at hat
  exact hat

theorem claims_take (k : ℕ) : (log.take k).map Log_file.key =
    (((b.history es).map entryOf).take k).map Log_file.key := by
  rw [List.map_take, List.map_take, hlog]

include h hfit

theorem audit_mirrors : ∃ area_start area_end,
    (∀ k, check_flag (b.replayed us' area_start area_end (es.take k)) k = false ↔ b.Exempt es k) ∧
      ∀ k, Mirrors ((check_2 us').run ((firstPass us (b.checker [] []).mydata log).again (b.checker [] []).mydata)
        (log.take k)) (b.replayed us' area_start area_end (es.take k)) := by
  obtain ⟨area_start, area_end, hagain, hflag⟩ := second_pass h hfit us us'
  refine ⟨area_start, area_end, hflag, fun k => ?_⟩
  have hfirst : Mirrors (firstPass us (b.checker [] []).mydata log)
      (firstPass us (b.checker [] []).mydata ((b.history es).map entryOf)) := by
    rw [firstPass, firstPass, ← check_2_run, ← check_2_run]
    exact (Mirrors.refl _).run hlog us
  have hrun := (hfirst.again (b.checker [] []).mydata).run (claims_take hlog k) us'
  rw [hagain, entries_take] at hrun
  exact hrun

theorem log_audited (hcounts : b.Counted) (hrows : Fits30 b.globals) : b.Audited es log
    (reports (check_2 us') ((firstPass us (b.checker [] []).mydata log).again (b.checker [] []).mydata) log) := by
  obtain ⟨area_start, area_end, hflag, hmirrors⟩ := audit_mirrors h hfit hlog us us'
  have hlength := congrArg List.length hlog
  rw [List.length_map, List.length_map, List.length_map, Machine.trace_length] at hlength
  generalize (firstPass us (b.checker [] []).mydata log).again (b.checker [] []).mydata = start at hmirrors ⊢
  have hverdict (k : ℕ) (x : Log_file) (hx : log[k]? = some x) :
      (reports (check_2 us') start log)[k]? =
        some (check_entry (us' k) ((check_2 us').run start (log.take k)) x).2 := by
    obtain ⟨hk, -⟩ := List.getElem?_eq_some_iff.mp hx
    have hlen := (hmirrors k).length
    rw [replayed_length (by omega)] at hlen
    rw [reports_getElem?, hx, Option.map_some]
    change some (check_entry (us' ((check_2 us').run start (log.take k)).log_files.length) _ x).2 = _
    rw [hlen]
  constructor
  · rw [reports, List.length_map, Machine.trace_length, hlength]
  · intro k e x he hx hshow hstatics
    obtain ⟨hk, -⟩ := List.getElem?_eq_some_iff.mp he
    have hkey := claims_key hlog he hx
    have hquery : ¬ x.Query := by
      rw [Log_file.Query, (Prod.mk.inj hkey).2]
      exact mt (query_iff h (List.mem_of_getElem? he) k).mp (not_or.mpr ⟨hshow, hstatics⟩)
    obtain ⟨answer, hclaim, htrue⟩ := ((hmirrors k).entry hkey (us' k)).2 hquery
    have hquiet := quiet_at h hfit us' he hshow area_start area_end
    change (check_entry (us' (b.replayed us' area_start area_end (es.take k)).log_files.length) _ _).2 = none at hquiet
    rw [replayed_length hk.le, htrue] at hquiet
    have hanswer : (entryAt b es k e).results = answer := by
      by_contra hne
      obtain ⟨r, hr⟩ := (compare_results_iff _ _).mpr hne
      rw [hquiet] at hr
      cases hr
    rw [hverdict k x hx, hclaim]
    simp only [Option.some.injEq]
    rw [compare_results_iff, ← hanswer]
    rfl
  · intro k e x he hx hkind
    obtain ⟨hk, -⟩ := List.getElem?_eq_some_iff.mp he
    have hm := hmirrors k
    have hcommand : x.command = lit "statics" := by
      rw [(Prod.mk.inj (claims_key hlog he hx)).2, entryAt_command, hkind]
      rfl
    have hentry (t : Checker) : (check_entry (us' k) t x).2 = check_statics t x := by
      rw [check_entry, hcommand]
      rfl
    have halcohol := (tracks_run h hfit (List.take_prefix k es) us' area_start area_end).1.alcohol
    rw [hverdict k x hx, hentry, check_statics, hm.length, replayed_length hk.le, hm.flag, hm.mydata, halcohol,
      ← hflag k, Bool.not_eq_false]
    simp only [Option.some.injEq]
    split_ifs with hc
    · exact iff_of_true ⟨_, rfl⟩ hc
    · apply iff_of_false _ hc
      rintro ⟨r, hr⟩
      cases hr
  · intro horder k e x he hx hkind
    obtain ⟨hk, -⟩ := List.getElem?_eq_some_iff.mp he
    have hm := hmirrors k
    have hcommand : x.command = lit "show" := by
      rw [(Prod.mk.inj (claims_key hlog he hx)).2, entryAt_command, hkind]
      rfl
    have hentry (t : Checker) : (check_entry (us' k) t x).2 = check_show t x := by
      rw [check_entry, hcommand]
      rfl
    have hstock := same_stock_after h hfit (List.take_prefix k es) us' area_start area_end
    have htext := (text_eq_iff h.distinct h.numbered (same_after b (es.take k)) (fits30_after hcounts hrows _)
      hstock).mpr horder
    rw [hverdict k x hx, hentry, check_show, hm.length, replayed_length hk.le, hm.flag, hm.mydata, ← htext,
      ← hflag k, Bool.not_eq_false, List.prefix_iff_eq_take, eq_comm (a := write_info _)]
    simp only [Option.some.injEq]
    split_ifs with hc
    · exact iff_of_true ⟨_, rfl⟩ hc
    · apply iff_of_false _ hc
      rintro ⟨r, hr⟩
      cases hr

end Audit

def wrongLog : List Log_file := [⟨0, 1, 4, lit "show", lit "S1 1 C1 5 6 8"⟩]

theorem wrongLog_claims : Claims plainShop [ask 0 (lit "show")] wrongLog := rfl

theorem log_audited_wrong : plainShop.Audited [ask 0 (lit "show")] wrongLog (reports (check_2 blankScratch)
    ((firstPass blankScratch (plainShop.checker [] []).mydata wrongLog).again (plainShop.checker [] []).mydata)
      wrongLog) :=
  log_audited plainShop_script ((runFits_iff _ _).mpr plainShop_session.loggable.room) wrongLog_claims blankScratch blankScratch
    plainShop_session.counted plainShop_session.rows

end EmbeddedOS.Hw3
