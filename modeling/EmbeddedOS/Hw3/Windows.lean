import EmbeddedOS.Hw3.Passes

namespace EmbeddedOS.Hw3

open CText Runs

def connfdAt (log : List Log_file) (k : ℕ) : Option ℤ := log[k]?.map Log_file.connfd

def AcceptedBy (M : Machine Checker Log_file (Option Report)) (us : ℕ → Scratch) (t : Checker) (log : List Log_file)
    (k : ℕ) : Prop :=
  ∃ e, log[k]? = some e ∧ (M.run t (log.take k)).Accepts (us k) e

def Accepted (us : ℕ → Scratch) (temp : DB) : List Log_file → ℕ → Prop :=
  AcceptedBy (check_1 us) us (.initial temp)

structure Window (log : List Log_file) (accepted : ℕ → Prop) (start finish : ℕ) : Prop where
  lt : start < finish
  same : ∃ fd, connfdAt log start = some fd ∧ connfdAt log finish = some fd ∧
    ∀ j, start < j → j < finish → connfdAt log j ≠ some fd
  accepted : accepted finish

structure Windows (log : List Log_file) (accepted : ℕ → Prop) (t : Checker) : Prop where
  length : t.area_start.length = t.area_end.length
  window : ∀ (k start finish : ℕ), t.area_start[k]? = some start → t.area_end[k]? = some finish →
    Window log accepted start finish
  flag : ∀ i, check_flag t i = false ↔ ∃ start finish, Window log accepted start finish ∧ start < i ∧ i < finish

theorem Window.start_unique {log : List Log_file} {accepted : ℕ → Prop} {s s' f : ℕ} (h : Window log accepted s f)
    (h' : Window log accepted s' f) : s = s' := by
  obtain ⟨fd, hs, hf, hbetween⟩ := h.same
  obtain ⟨fd', hs', hf', hbetween'⟩ := h'.same
  obtain rfl : fd = fd' := Option.some.inj (hf.symm.trans hf')
  rcases lt_trichotomy s s' with hlt | heq | hlt
  · exact absurd hs' (hbetween s' hlt h'.lt)
  · exact heq
  · exact absurd hs (hbetween' s hlt h.lt)

theorem find?_reverse_range {p : ℕ → Bool} {n j : ℕ} : (List.range n).reverse.find? p = some j ↔
    j < n ∧ p j = true ∧ ∀ i, j < i → i < n → p i = false := by
  induction n with
  | zero => simp
  | succ n ih =>
    rw [List.range_succ, List.reverse_append, List.reverse_singleton, List.singleton_append, List.find?_cons]
    cases hn : p n with
    | true =>
      simp only [Option.some.injEq]
      constructor
      · rintro rfl
        exact ⟨Nat.lt_succ_self n, hn, fun i hi hi' => by omega⟩
      · rintro ⟨hj, -, hlast⟩
        by_contra hne
        rw [hlast n (by omega) (Nat.lt_succ_self n)] at hn
        cases hn
    | false =>
      simp only [ih]
      constructor
      · rintro ⟨hj, hp, hlast⟩
        refine ⟨by omega, hp, fun i hi hi' => ?_⟩
        by_cases hin : i = n
        · rwa [hin]
        · exact hlast i hi (by omega)
      · rintro ⟨hj, hp, hlast⟩
        have hne : j ≠ n := by
          rintro rfl
          rw [hn] at hp
          cases hp
        exact ⟨by omega, hp, fun i hi hi' => hlast i hi (by omega)⟩

theorem lastEntry_eq_some {t : Checker} {fd : ℤ} {j : ℕ} : lastEntry t fd = some j ↔
    j < t.log_files.length ∧ connfdAt t.log_files j = some fd ∧
      ∀ i, j < i → i < t.log_files.length → connfdAt t.log_files i ≠ some fd := by
  simp only [lastEntry, find?_reverse_range, beq_iff_eq, beq_eq_false_iff_ne, connfdAt, ne_eq]

theorem exists_lastEntry {t : Checker} {fd : ℤ} (h : ∃ e ∈ t.log_files, e.connfd = fd) :
    ∃ j, lastEntry t fd = some j := by
  obtain ⟨e, he, rfl⟩ := h
  obtain ⟨k, hk, rfl⟩ := List.getElem_of_mem he
  apply Option.isSome_iff_exists.mp
  rw [lastEntry, List.find?_isSome]
  refine ⟨k, List.mem_reverse.mpr (List.mem_range.mpr hk), ?_⟩
  simp [List.getElem?_eq_getElem hk]

structure Tiled (log : List Log_file) (accepted : ℕ → Prop) (t : Checker) : Prop where
  passed : t.log_files <+: log
  linked : ∀ fd, t.log_static fd = true → ∃ e ∈ t.log_files, e.connfd = fd
  paired : List.Forall₂ (Window log accepted) t.area_start t.area_end

theorem connfdAt_initial {l log : List Log_file} (h : l <+: log) {k : ℕ} (hk : k < l.length) :
    connfdAt log k = connfdAt l k := by
  obtain ⟨rest, rfl⟩ := h
  rw [connfdAt, connfdAt, List.getElem?_append_left hk]

section Entry

variable {log : List Log_file} {accepted : ℕ → Prop} {t : Checker} {u : Scratch} {e : Log_file}

theorem Tiled.window (ht : Tiled log accepted t) (hnext : t.log_files ++ [e] <+: log) (ha : t.Accepts u e)
    (hk : accepted t.log_files.length) :
    ∃ j, lastEntry t e.connfd = some j ∧ Window log accepted j t.log_files.length := by
  obtain ⟨-, ⟨hlogin, -⟩, -⟩ := ha
  obtain ⟨j, hj⟩ := exists_lastEntry (ht.linked e.connfd hlogin)
  obtain ⟨hlt, hfd, hlast⟩ := lastEntry_eq_some.mp hj
  have hend : connfdAt log t.log_files.length = some e.connfd := by
    rw [connfdAt_initial hnext (by simp), connfdAt]
    simp
  refine ⟨j, hj, hlt, ⟨e.connfd, ?_, hend, fun i hi hi' => ?_⟩, hk⟩
  · rwa [connfdAt_initial ht.passed hlt]
  · rw [connfdAt_initial ht.passed hi']
    exact hlast i hi hi'

theorem Tiled.entry (ht : Tiled log accepted t) (hnext : t.log_files ++ [e] <+: log)
    (hk : t.Accepts u e → accepted t.log_files.length) :
    let t' := { (check_entry_1 u t e).1 with log_files := t.log_files ++ [e] }
    Tiled log accepted t' ∧ t.area_end ⊆ t'.area_end ∧ (t.Accepts u e → t.log_files.length ∈ t'.area_end) := by
  have hmoves := check_entry_1_moves u t e
  have hlinked (fd : ℤ) (h : t.log_static fd = true) : ∃ x ∈ t.log_files ++ [e], x.connfd = fd := by
    obtain ⟨x, hx, hfd⟩ := ht.linked fd h
    exact ⟨x, List.mem_append_left _ hx, hfd⟩
  have hupdate (b : Bool) (fd : ℤ) (h : Function.update t.log_static e.connfd b fd = true) :
      ∃ x ∈ t.log_files ++ [e], x.connfd = fd := by
    by_cases hc : fd = e.connfd
    · exact ⟨e, by simp, hc.symm⟩
    · rw [Function.update_of_ne hc] at h
      exact hlinked fd h
  generalize (check_entry_1 u t e).1 = t' at hmoves
  cases hmoves with
  | login rejected _ _ =>
    exact ⟨⟨hnext, hupdate true, ht.paired⟩, List.Subset.refl _, fun ha => absurd ha rejected⟩
  | logout rejected => exact ⟨⟨hnext, hupdate false, ht.paired⟩, List.Subset.refl _, fun ha => absurd ha rejected⟩
  | sale ha st ptr _ _ =>
    obtain ⟨j, hj, hwindow⟩ := ht.window hnext ha (hk ha)
    refine ⟨⟨hnext, hupdate false, ?_⟩, List.subset_append_left _ _, fun _ => ?_⟩
    · simp only [Checker.sold, hj, Option.toList_some]
      exact List.rel_append ht.paired (.cons hwindow .nil)
    · simp [Checker.sold]
  | still rejected => exact ⟨⟨hnext, hlinked, ht.paired⟩, List.Subset.refl _, fun ha => absurd ha rejected⟩

end Entry

theorem Tiled.windows {log : List Log_file} {accepted : ℕ → Prop} {t : Checker} (ht : Tiled log accepted t)
    (hall : ∀ k, accepted k → k ∈ t.area_end) : Windows log accepted t := by
  have hlength := ht.paired.length_eq
  have hwindow (k start finish : ℕ) (hs : t.area_start[k]? = some start) (hf : t.area_end[k]? = some finish) :
      Window log accepted start finish := by
    obtain ⟨hks, rfl⟩ := List.getElem?_eq_some_iff.mp hs
    obtain ⟨hkf, rfl⟩ := List.getElem?_eq_some_iff.mp hf
    exact List.forall₂_iff_get.mp ht.paired |>.2 k hks hkf
  refine ⟨hlength, hwindow, fun i => ?_⟩
  rw [check_flag, List.all_eq_false]
  constructor
  · rintro ⟨⟨start, finish⟩, ha, hi⟩
    obtain ⟨k, hk⟩ := List.getElem?_of_mem ha
    obtain ⟨hs, hf⟩ := List.getElem?_zip_eq_some.mp hk
    refine ⟨start, finish, hwindow k start finish hs hf, ?_⟩
    simpa using hi
  · rintro ⟨start, finish, hw, hi⟩
    obtain ⟨k, hf⟩ := List.getElem?_of_mem (hall finish hw.accepted)
    obtain ⟨hkf, -⟩ := List.getElem?_eq_some_iff.mp hf
    have hks : k < t.area_start.length := by omega
    have hs := List.getElem?_eq_getElem hks
    have hstart := (hwindow k _ finish hs hf).start_unique hw
    rw [hstart] at hs
    refine ⟨(start, finish), List.mem_of_getElem? (List.getElem?_zip_eq_some.mpr ⟨hs, hf⟩), ?_⟩
    simpa using hi

theorem check_2_run (us : ℕ → Scratch) (t : Checker) (log : List Log_file) :
    (check_2 us).run t log = (check_1 us).run t log := by
  have hstep (t : Checker) (e : Log_file) : ((check_2 us).step t e).1 = ((check_1 us).step t e).1 := by
    simp only [check_1, check_2, check_entry, check_entry_1]
    split_ifs <;> rfl
  exact ((check_2 us).lockstep (R := Eq) (Q := fun _ _ => True)
    (fun s t e h => ⟨h ▸ hstep s e, trivial⟩) rfl log).1

theorem run_log_files (us : ℕ → Scratch) {t : Checker} (ht : t.log_files = []) (log : List Log_file) :
    ((check_1 us).run t log).log_files = log := by
  induction log using List.reverseRecOn with
  | nil => exact ht
  | append_singleton log e ih =>
    rw [(check_1 us).run_snoc]
    change ((check_1 us).run t log).log_files ++ [e] = log ++ [e]
    rw [ih]

theorem run_tiled {us : ℕ → Scratch} {log : List Log_file} {accepted : ℕ → Prop} {t : Checker}
    (hempty : t.log_files = []) (ht : Tiled log accepted t)
    (hacc : ∀ k, AcceptedBy (check_1 us) us t log k → accepted k)
    {fs : List Log_file} (hfs : fs <+: log) :
    let t' := (check_1 us).run t fs
    Tiled log accepted t' ∧ t.area_end ⊆ t'.area_end ∧ ∀ k, AcceptedBy (check_1 us) us t fs k → k ∈ t'.area_end := by
  induction fs using List.reverseRecOn with
  | nil =>
    refine ⟨ht, List.Subset.refl _, ?_⟩
    rintro k ⟨e, he, -⟩
    cases he
  | append_singleton fs e ih =>
    obtain ⟨htiled, hold, hmem⟩ := ih ((List.prefix_append _ _).trans hfs)
    have hfiles := run_log_files us hempty fs
    have hlen := congrArg List.length hfiles
    have hat : (fs ++ [e]).take fs.length = fs := List.take_left
    have hnext : ((check_1 us).run t fs).log_files ++ [e] <+: log := by rwa [hfiles]
    have haccepted (ha : ((check_1 us).run t fs).Accepts (us ((check_1 us).run t fs).log_files.length) e) :
        accepted ((check_1 us).run t fs).log_files.length := by
      rw [hfiles] at ha ⊢
      obtain ⟨rest, rfl⟩ := hfs
      refine hacc _ ⟨e, by simp, ?_⟩
      rwa [List.append_assoc, List.take_left]
    rw [(check_1 us).run_snoc]
    obtain ⟨htiled', hold', hlast⟩ := htiled.entry hnext haccepted
    refine ⟨htiled', fun k hk => hold' (hold hk), ?_⟩
    rintro k ⟨x, hx, ha⟩
    by_cases hk : k < fs.length
    · rw [List.getElem?_append_left hk] at hx
      rw [List.take_append_of_le_length (by omega)] at ha
      exact hold' (hmem k ⟨x, hx, ha⟩)
    · obtain ⟨hlt, -⟩ := List.getElem?_eq_some_iff.mp hx
      obtain rfl : k = fs.length := by
        rw [List.length_append, List.length_singleton] at hlt
        omega
      obtain rfl : e = x := by simpa using hx
      rw [hat, ← hlen] at ha
      rw [← hlen]
      exact hlast ha

theorem accepts_alike {s t : Checker} (h : Alike s t) (hs : Identified s) {e : Log_file} (he : e.Legible)
    (u u' : Scratch) : t.Accepts u' e ↔ s.Accepts u e := by
  have hadmits : t.Admits u' e.connfd ↔ s.Admits u e.connfd := by
    rw [← admits_scratch hs u' u, Checker.Admits, Checker.Admits, h.log_static, h.my_id, h.mydata]
  unfold Checker.Accepts
  apply and_congr_right
  intro hbuy
  rw [hadmits, scanBuy_scratch (he.buy hbuy) u' u, h.mydata]

section Log

variable (us us' : ℕ → Scratch) (temp : DB) {log : List Log_file}

theorem accepted_again (hlog : ∀ e ∈ log, e.Legible) (k : ℕ) :
    AcceptedBy (check_2 us') us' ((firstPass us temp log).again temp) log k ↔ Accepted us temp log k := by
  obtain ⟨halike, hid⟩ := passes_alike us us' temp hlog k
  refine exists_congr fun e => and_congr_right fun he => ?_
  exact accepts_alike halike hid (hlog e (List.mem_of_getElem? he)) _ _

theorem first_tiled (log : List Log_file) :
    Tiled log (Accepted us temp log) (firstPass us temp log) ∧
      ∀ k, Accepted us temp log k → k ∈ (firstPass us temp log).area_end := by
  have hinitial : Tiled log (Accepted us temp log) (.initial temp) := by
    refine ⟨List.nil_prefix, fun fd hfd => ?_, .nil⟩
    cases hfd
  obtain ⟨htiled, -, hmem⟩ := run_tiled rfl hinitial (fun k hk => hk) (List.prefix_refl log)
  exact ⟨htiled, hmem⟩

theorem again_tiled (hlog : ∀ e ∈ log, e.Legible) (n : ℕ) :
    let t := (check_2 us').run ((firstPass us temp log).again temp) (log.take n)
    Tiled log (Accepted us temp log) t ∧ ∀ k, Accepted us temp log k → k ∈ t.area_end := by
  obtain ⟨htiled, hmem⟩ := first_tiled us temp log
  have hstart : Tiled log (Accepted us temp log) ((firstPass us temp log).again temp) := by
    refine ⟨List.nil_prefix, fun fd hfd => ?_, htiled.paired⟩
    rw [← (again_alike us temp hlog).log_static] at hfd
    cases hfd
  have hacc (k : ℕ) (hk : AcceptedBy (check_1 us') us' ((firstPass us temp log).again temp) log k) :
      Accepted us temp log k := by
    rw [AcceptedBy, ← check_2_run] at hk
    exact (accepted_again us us' temp hlog k).mp hk
  rw [check_2_run]
  obtain ⟨htiled', hold, -⟩ := run_tiled rfl hstart hacc (List.take_prefix n log)
  exact ⟨htiled', fun k hk => hold (hmem k hk)⟩

end Log

theorem windows_hold (us us' : ℕ → Scratch) (temp : DB) (log : List Log_file) (hlog : ∀ e ∈ log, e.Legible) :
    Windows log (Accepted us temp log) (firstPass us temp log) ∧
      (∀ k, AcceptedBy (check_2 us') us' ((firstPass us temp log).again temp) log k ↔ Accepted us temp log k) ∧
        ∀ n, Windows log (Accepted us temp log)
          ((check_2 us').run ((firstPass us temp log).again temp) (log.take n)) := by
  refine ⟨?_, accepted_again us us' temp hlog, fun n => ?_⟩
  · obtain ⟨htiled, hmem⟩ := first_tiled us temp log
    exact htiled.windows hmem
  · obtain ⟨htiled, hmem⟩ := again_tiled us us' temp hlog n
    exact htiled.windows hmem

theorem windows_hold_visit :
    Windows visitLog (Accepted blankScratch (sampleShop.checker [] []).mydata visitLog)
      (firstPass blankScratch (sampleShop.checker [] []).mydata visitLog) :=
  (windows_hold blankScratch blankScratch _ visitLog visitLog_legible).1

end EmbeddedOS.Hw3
