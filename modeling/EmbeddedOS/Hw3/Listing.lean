import EmbeddedOS.Library.Lines
import EmbeddedOS.Hw3.Records

namespace EmbeddedOS.Hw3

open CText Runs

def cityFormat : List Conversion := [.int, .word none, .int, .int, .int]

def ReadsAs (r : Inv) (l : Text) : Prop :=
  sscanf cityFormat l = [.int r.line, .word r.city, .int r.a, .int r.b, .int r.c]

def cityFields (r : Inv) : List Text := [decimal r.line, r.city, decimal r.a, decimal r.b, decimal r.c]

def listingFields (g : Globals) : List Text :=
  (List.range g.num).flatMap fun i => (g.row i 0).type :: (cities g i).flatMap cityFields

/-- The reply to `show` can be read back line by line, and the log has the same data. -/
structure Lossless (g : Globals) : Prop where
  reply : ∃ lines : ℕ → List Text, fileLines (show_info g) =
      lit "show" :: (List.range g.num).flatMap (fun i => (g.row i 0).type :: lines i) ∧
    ∀ i < g.num, List.Forall₂ ReadsAs (cities g i) (lines i)
  log : write_info g = [32].intercalate (listingFields g)

def Fits30 (g : Globals) : Prop := ∀ i < g.num, ∀ r ∈ cities g i, (cityText r).length ≤ 28

structure Readable (r : Inv) : Prop where
  line : IsInt32 r.line
  city : IsWord r.city
  count : ∀ j, IsInt32 (r.count j)

theorem cityText_reads {r : Inv} (h : Readable r) : ReadsAs r (cityText r) := by
  obtain ⟨hline, hcity, hcount⟩ := h
  have ha : IsInt32 r.a := hcount 0
  have hb : IsInt32 r.b := hcount 1
  have hc : IsInt32 r.c := hcount 2
  rw [ReadsAs, cityFormat, cityText, sscanf_first (reads_decimal hline) (stops_blank _),
    sscanf_next (.word hcity) (stops_blank _), sscanf_next (reads_decimal ha) (stops_blank _),
    sscanf_next (reads_decimal hb) (stops_blank _), ← List.append_nil (decimal r.c),
    sscanf_next (reads_decimal hc) (stops_nil _), sscanf]

theorem snprintf_whole {n : ℕ} {t : Text} (h : t.length ≤ n - 1) : snprintf n t = t := List.take_of_length_le h

theorem show_info_lines {g : Globals} (h : Fits30 g) : show_info g =
    (lit "show" :: (List.range g.num).flatMap fun i => (g.row i 0).type :: (cities g i).map cityText).flatMap
      fun l => l ++ [newline] := by
  rw [List.flatMap_cons, List.flatMap_assoc]
  change lit "show\n" ++ _ = lit "show\n" ++ _
  congr 1
  apply List.flatMap_congr
  intro i hi
  rw [List.flatMap_cons, List.append_assoc, List.flatMap_map]
  change (g.row i 0).type ++ newline :: _ = (g.row i 0).type ++ newline :: _
  congr 2
  apply List.flatMap_congr
  intro r hr
  have hlen := h i (List.mem_range.mp hi) r hr
  apply snprintf_whole
  rw [List.length_append, List.length_singleton]
  omega

theorem intercalate_cons (sep : Byte) (x : Text) (xs : List Text) :
    [sep].intercalate (x :: xs) = x ++ xs.flatMap fun y => sep :: y := by
  induction xs generalizing x with
  | nil => simp
  | cons y xs ih =>
    rw [List.intercalate_cons_cons, ih]
    simp

def fullInfo (g : Globals) : Text :=
  (List.range g.num).flatMap fun i =>
    (if i = 0 then (g.row i 0).type else 32 :: (g.row i 0).type) ++ (cities g i).flatMap fun r => 32 :: cityText r

theorem fullInfo_eq (g : Globals) : fullInfo g = [32].intercalate (listingFields g) := by
  have hcity (rs : List Inv) :
      ((rs.flatMap cityFields).flatMap fun y => 32 :: y) = rs.flatMap fun r => 32 :: cityText r := by
    rw [List.flatMap_assoc]
    apply List.flatMap_congr
    intro r _
    simp [cityFields, cityText]
  unfold fullInfo listingFields
  cases g.num with
  | zero => rfl
  | succ n =>
    rw [List.range_succ_eq_map, List.flatMap_cons, List.flatMap_cons, List.cons_append, intercalate_cons,
      List.flatMap_append, hcity, List.flatMap_map, List.flatMap_map, List.flatMap_assoc, if_pos rfl, List.append_assoc]
    congr 2
    apply List.flatMap_congr
    intro i _
    rw [if_neg (Nat.succ_ne_zero i), List.flatMap_cons, hcity]

theorem pieces_eq {α : Type*} {f g : α → Text} {l : List α} (hle : ∀ x ∈ l, (f x).length ≤ (g x).length)
    (h : l.flatMap f = l.flatMap g) : ∀ x ∈ l, f x = g x := by
  have hrest (l : List α) (hle : ∀ x ∈ l, (f x).length ≤ (g x).length) :
      (l.flatMap f).length ≤ (l.flatMap g).length := by
    rw [List.length_flatMap, List.length_flatMap]
    exact List.sum_le_sum hle
  induction l with
  | nil =>
    intro x hx
    cases hx
  | cons y l ih =>
    have hy := hle y (List.mem_cons_self ..)
    have hl := hrest l fun x hx => hle x (List.mem_cons_of_mem _ hx)
    rw [List.flatMap_cons, List.flatMap_cons] at h
    have hlen := congrArg List.length h
    rw [List.length_append, List.length_append] at hlen
    obtain ⟨hhead, htail⟩ := List.append_inj h (by omega)
    intro x hx
    rcases List.mem_cons.mp hx with rfl | hx
    · exact hhead
    · exact ih (fun x hx => hle x (List.mem_cons_of_mem _ hx)) htail x hx

theorem write_info_full_iff (g : Globals) : write_info g = fullInfo g ↔ Fits30 g := by
  have hcut (r : Inv) : (snprintf 30 (32 :: cityText r)).length ≤ (32 :: cityText r).length := by
    rw [snprintf, List.length_take]
    exact min_le_right _ _
  have hcities (i : ℕ) : ((cities g i).flatMap fun r => snprintf 30 (32 :: cityText r)).length ≤
      ((cities g i).flatMap fun r => 32 :: cityText r).length := by
    rw [List.length_flatMap, List.length_flatMap]
    exact List.sum_le_sum fun r _ => hcut r
  constructor
  · intro h i hi r hr
    have htypes := pieces_eq (fun i _ => by simpa using hcities i) h i (List.mem_range.mpr hi)
    have hrow := pieces_eq (fun r _ => hcut r) (List.append_cancel_left htypes) r hr
    have hlen := congrArg List.length hrow
    rw [snprintf, List.length_take, List.length_cons] at hlen
    omega
  · intro h
    apply List.flatMap_congr
    intro i hi
    congr 1
    apply List.flatMap_congr
    intro r hr
    have hlen := h i (List.mem_range.mp hi) r hr
    apply snprintf_whole
    rw [List.length_cons]
    omega

theorem count_isInt32 (b : Boot) (es : List Event) {a : ℤ} (h : ∀ j, IsInt32 ((b.data a).count j)) :
    ∀ j, IsInt32 (((b.after es).globals.data a).count j) := by
  refine server.run_invariant (P := fun s => ∀ j, IsInt32 ((s.globals.data a).count j)) (fun s e hs => ?_) h es
  have hdid := mask_server_did e.locals e.beyond s.globals (s.conns e.conn) e.text
  rw [server_step]
  generalize mask_server e.locals e.beyond s.globals (s.conns e.conn) e.text = o at hdid ⊢
  cases hdid with
  | nothing t rejects globals conn quiet => simpa [globals] using hs
  | login t command out valid globals conn answer => simpa [globals] using hs
  | logout t command login globals conn answer => simpa [globals] using hs
  | buy i t command login day sells globals conn answer =>
    obtain ⟨-, hvalid, -, -, hstocked⟩ := verdict_eq_sell.mp sells
    intro j
    simp only [globals, record_data, purchase_count]
    by_cases ha : a = (scanRequest e.locals e.text).article i
    · subst ha
      have hmax := hs j
      have hask := hvalid.1 j
      have hstock := hstocked j
      change _ ≤ (s.globals.data ((scanRequest e.locals e.text).article i)).count j at hstock
      rw [Function.update_self, Pi.sub_apply]
      constructor
      · have := hmax.1
        omega
      · have := hmax.2
        omega
    · rw [Function.update_of_ne ha]
      exact hs j

theorem listing_free {g : Globals} (hg : Printable g) :
    ∀ l ∈ lit "show" :: (List.range g.num).flatMap fun i => (g.row i 0).type :: (cities g i).map cityText,
      newline ∉ l := by
  have hspace : isspace newline = true := by decide
  intro l hl
  rcases List.mem_cons.mp hl with rfl | hl
  · decide
  · obtain ⟨i, hi, hl⟩ := List.mem_flatMap.mp hl
    obtain ⟨htype, hcity⟩ := hg i (List.mem_range.mp hi)
    rcases List.mem_cons.mp hl with rfl | hl
    · intro hmem
      cases hspace.symm.trans (htype _ hmem)
    · obtain ⟨r, hr, rfl⟩ := List.mem_map.mp hl
      intro hmem
      rcases mem_cityText (hcity r hr) hmem with hblank | hno
      · exact absurd hblank (by decide)
      · cases hspace.symm.trans hno

def Boot.IntRows (b : Boot) : Prop := ∀ i < b.num, ∀ j : ℕ, j < (b.data (100 * i)).type_num →
  IsInt32 (b.data (100 * i + j)).line ∧ ∀ k, IsInt32 ((b.data (100 * i + j)).count k)

theorem readable_after {b : Boot} (h : b.IntRows) (es : List Event) {i : ℕ} (hi : i < b.num) :
    ∀ r ∈ cities (b.after es).globals i, Readable r := by
  intro r hr
  obtain ⟨j, hj, rfl⟩ := List.mem_map.mp hr
  have hlabel := (same_after b es).label
  simp only [Inv.label, Prod.mk.injEq] at hlabel
  rw [List.mem_range, Globals.row, (hlabel _).2.1, add_zero] at hj
  have hj' : (j : ℤ) < (b.data (100 * i)).type_num := Int.lt_toNat.mp hj
  obtain ⟨hline, hcount⟩ := h i hi j hj'
  constructor
  · rw [Globals.row, (hlabel _).1]
    exact hline
  · rw [Globals.row, (hlabel _).2.2.2.2]
    exact (b.city_name i hi j hj').1
  · exact count_isInt32 b es hcount

theorem lossless_iff (b : Boot) (hint : b.IntRows) (es : List Event) :
    Lossless (b.after es).globals ↔ Fits30 (b.after es).globals := by
  constructor
  · intro h
    rw [← write_info_full_iff, fullInfo_eq]
    exact h.log
  · intro h
    have hprint := printable_after b es
    constructor
    · refine ⟨fun i => (cities (b.after es).globals i).map cityText, ?_, fun i hi => ?_⟩
      · rw [show_info_lines h, fileLines_flatten]
        exact listing_free hprint
      · rw [List.forall₂_map_right_iff, List.forall₂_same]
        intro r hr
        rw [(same_after b es).num] at hi
        exact cityText_reads (readable_after hint es hi r hr)
    · rw [← fullInfo_eq]
      exact (write_info_full_iff _).mpr h

theorem lossless_iff_sample : Lossless (sampleShop.after []).globals := by
  have hrows : ∀ i < sampleShop.num, ∀ j : ℕ, j < (sampleShop.data (100 * i)).type_num → i = 0 ∧ j < 2 := by
    intro i hi j hj
    obtain rfl : i = 0 := Nat.lt_one_iff.mp hi
    have h2 : (sampleShop.data (100 * (0 : ℕ))).type_num = 2 := by decide
    omega
  refine (lossless_iff sampleShop (fun i hi j hj => ?_) []).mpr fun i hi r hr => ?_
  · obtain ⟨rfl, hj2⟩ := hrows i hi j hj
    interval_cases j <;> decide
  · obtain rfl : i = 0 := Nat.lt_one_iff.mp hi
    have hall : ∀ r ∈ cities (sampleShop.after []).globals 0, (cityText r).length = 10 := by decide
    rw [hall r hr]
    norm_num

def longData (a : ℤ) : Inv :=
  if a = 0 then ⟨1, 9, 9, 9, 1, 27, lit "S1", lit "abcdefghijklmnopqrstuvwxyz"⟩ else ⟨0, 0, 0, 0, 0, 0, [], []⟩

theorem long_num_le : 1 ≤ 15 := by decide

theorem long_type_num_le : ∀ i < 1, (longData (100 * (i : ℕ))).type_num ≤ 100 := by decide

theorem long_type_name : ∀ i < 1, IsName 20 (longData (100 * (i : ℕ))).type := by
  intro i hi
  obtain rfl : i = 0 := by omega
  exact sampleShop.type_name 0 (by decide)

theorem long_city_name : ∀ i < 1, ∀ j : ℕ, j < (longData (100 * (i : ℕ))).type_num →
    IsName 50 (longData (100 * (i : ℕ) + j)).city := by
  intro i hi j hj
  obtain rfl : i = 0 := by omega
  obtain rfl : j = 0 := by
    have h1 : (longData (100 * (0 : ℕ))).type_num = 1 := by decide
    omega
  have hname : IsName 50 (lit "abcdefghijklmnopqrstuvwxyz") := by simp [IsName, IsWord, lit, isspace]
  exact hname

def longShop : Boot where
  num := 1
  data := longData
  num_le := long_num_le
  type_num_le := long_type_num_le
  type_name := long_type_name
  city_name := long_city_name
  day := 1
  capacity := 50
  fd := sampleShop.fd
  ID := sampleShop.ID
  day_int := sampleShop.day_int
  capacity_int := sampleShop.capacity_int
  fd_int := sampleShop.fd_int

theorem lossless_fails : show_info (longShop.after []).globals = lit "show\nS1\n1 abcdefghijklmnopqrstuvwxyz " ∧
    ¬ Lossless (longShop.after []).globals := by
  constructor
  · decide
  · intro h
    have hfull := h.log
    rw [← fullInfo_eq, write_info_full_iff] at hfull
    have hlen := hfull 0 (by decide) (longData 0) (List.mem_singleton.mpr rfl)
    exact absurd hlen (by decide)

end EmbeddedOS.Hw3
