import EmbeddedOS.Hw1.Inventory

namespace EmbeddedOS.Hw1

open CText Runs

def cityAt (types : Types) (i j : ℕ) : Option City := types[i]?.bind fun cs => cs[j]?

def cityNames (types : Types) : List (List Text) := types.map fun cs => cs.map City.name

structure Order.Names (o : Order) (types : Types) (i j : ℕ) : Prop where
  type : o.type = typeLetter i
  type_n : o.type_n = j + 1
  listed : ∃ c, cityAt types i j = some c

def Order.Named (o : Order) (types : Types) : Prop := ∃ i j, o.Names types i j

def City.sell (c : City) (o : Order) : City where
  name := c.name
  count := ![clamped (c.count 0) (o.mask 0), clamped (c.count 1) (o.mask 1), int32 (c.count 2 - o.mask 2)]

def sellAt (types : Types) (i j : ℕ) (o : Order) : Types :=
  types.modify i fun cs => cs.modify j fun c => c.sell o

theorem sell_row (c : City) (j : ℕ) (o : Order) : sell (c.row j) o = (c.sell o).row j := rfl

theorem isInt32_clamped (x q : ℤ) : IsInt32 (clamped x q) := by
  unfold clamped
  split_ifs
  · simp [IsInt32]
  · exact int32_isInt32 _

theorem City.Fits.sell {c : City} (h : c.Fits) (o : Order) : (c.sell o).Fits := by
  obtain ⟨hname, hlen, -⟩ := h
  refine ⟨hname, hlen, fun k => ?_⟩
  fin_cases k
  · exact isInt32_clamped _ _
  · exact isInt32_clamped _ _
  · exact int32_isInt32 _

theorem cityAt_eq_some {types : Types} {i j : ℕ} {c : City} :
    cityAt types i j = some c ↔ ∃ cs, types[i]? = some cs ∧ cs[j]? = some c := Option.bind_eq_some_iff

theorem mem_iff_cityAt {types : Types} {c : City} :
    (∃ cs ∈ types, c ∈ cs) ↔ ∃ i j, cityAt types i j = some c := by
  constructor
  · rintro ⟨cs, hcs, hc⟩
    obtain ⟨i, hi⟩ := List.mem_iff_getElem?.mp hcs
    obtain ⟨j, hj⟩ := List.mem_iff_getElem?.mp hc
    exact ⟨i, j, cityAt_eq_some.mpr ⟨cs, hi, hj⟩⟩
  · rintro ⟨i, j, h⟩
    obtain ⟨cs, hi, hj⟩ := cityAt_eq_some.mp h
    exact ⟨cs, List.mem_of_getElem? hi, List.mem_of_getElem? hj⟩

theorem FitsArrays.bounds {types : Types} (h : FitsArrays types) {i j : ℕ} {c : City}
    (hc : cityAt types i j = some c) : i < 5 ∧ j < 100 ∧ c.Fits := by
  obtain ⟨cs, hi, hj⟩ := cityAt_eq_some.mp hc
  have hcs := List.mem_of_getElem? hi
  obtain ⟨hilt, -⟩ := List.getElem?_eq_some_iff.mp hi
  obtain ⟨hjlt, -⟩ := List.getElem?_eq_some_iff.mp hj
  have htypes := h.types_le
  have hcities := h.cities_le cs hcs
  exact ⟨by omega, by omega, h.city cs hcs c (List.mem_of_getElem? hj)⟩

theorem names_cityAt {types types' : Types} (h : cityNames types = cityNames types') {i j : ℕ} {c : City}
    (hc : cityAt types i j = some c) : ∃ c', cityAt types' i j = some c' ∧ c'.name = c.name := by
  have hmap (ts : Types) : ((cityNames ts)[i]?.bind fun ns => ns[j]?) = (cityAt ts i j).map City.name := by
    simp only [cityNames, cityAt, List.getElem?_map]
    cases ts[i]? <;> simp
  have hboth := hmap types
  rw [h, hmap types', hc, Option.map_some, Option.map_eq_some_iff] at hboth
  exact hboth

theorem names_getElem? {types types' : Types} (h : cityNames types = cityNames types') {i : ℕ} {cs : List City}
    (hi : types[i]? = some cs) : ∃ cs', types'[i]? = some cs' ∧ cs'.length = cs.length := by
  have hmap (ts : Types) : (cityNames ts)[i]? = ts[i]?.map fun cs => cs.map City.name := List.getElem?_map ..
  have hboth := hmap types
  rw [h, hmap types', hi, Option.map_some, Option.map_eq_some_iff] at hboth
  obtain ⟨cs', hcs', hn⟩ := hboth
  exact ⟨cs', hcs', by simpa using congrArg List.length hn⟩

theorem names_length {types types' : Types} (h : cityNames types = cityNames types') :
    types.length = types'.length := by
  simpa [cityNames] using congrArg List.length h

theorem cityAt_sellAt (types : Types) (i j : ℕ) (o : Order) (k l : ℕ) : cityAt (sellAt types i j o) k l =
    if i = k ∧ j = l then (cityAt types k l).map (fun c => c.sell o) else cityAt types k l := by
  simp only [cityAt, sellAt, List.getElem?_modify]
  cases types[k]? with
  | none => simp
  | some cs =>
    by_cases hi : i = k
    · by_cases hj : j = l <;> simp [hi, hj]
    · simp [hi]

theorem cityNames_sellAt (types : Types) (i j : ℕ) (o : Order) :
    cityNames (sellAt types i j o) = cityNames types := by
  apply List.ext_getElem?
  intro k
  simp only [cityNames, sellAt, List.getElem?_map, List.getElem?_modify]
  cases types[k]? with
  | none => rfl
  | some cs =>
    by_cases hi : i = k
    · simp only [hi, ↓reduceIte, Option.map_eq_map, Option.map_some, Option.some.injEq]
      apply List.ext_getElem?
      intro l
      simp only [List.getElem?_map, List.getElem?_modify]
      by_cases hj : j = l
      · cases cs[l]? <;> simp [hj, City.sell]
      · cases cs[l]? <;> simp [hj]
    · simp [hi]

theorem fitsArrays_sellAt {types : Types} (h : FitsArrays types) (i j : ℕ) (o : Order) :
    FitsArrays (sellAt types i j o) := by
  have hnames := cityNames_sellAt types i j o
  refine ⟨?_, fun cs hcs => ?_, fun cs hcs c hc => ?_⟩
  · rw [names_length hnames]
    exact h.types_le
  · obtain ⟨k, hk⟩ := List.mem_iff_getElem?.mp hcs
    obtain ⟨cs', hcs', hlen⟩ := names_getElem? hnames hk
    rw [← hlen]
    exact h.cities_le cs' (List.mem_of_getElem? hcs')
  · obtain ⟨k, l, hkl⟩ := mem_iff_cityAt.mp ⟨cs, hcs, hc⟩
    rw [cityAt_sellAt] at hkl
    split_ifs at hkl
    · obtain ⟨c', hc', rfl⟩ := Option.map_eq_some_iff.mp hkl
      exact (h.bounds hc').2.2.sell o
    · exact (h.bounds hkl).2.2

theorem Agrees.row {g : Globals} {types : Types} (h : Agrees g types) {i j : ℕ} {c : City}
    (hc : cityAt types i j = some c) : g.data (place i j) = c.row j := by
  obtain ⟨cs, hi, hj⟩ := cityAt_eq_some.mp hc
  simpa using (h.2 i cs hi).2 j c hj

theorem agrees_of_rows {g : Globals} {types : Types} (hnum : g.num = types.length)
    (hin : ∀ i cs, types[i]? = some cs → g.in_num i = cs.length)
    (hrow : ∀ i j c, cityAt types i j = some c → g.data (place i j) = c.row j) : Agrees g types := by
  refine ⟨hnum, fun k cs hk => ⟨?_, fun j c hj => ?_⟩⟩
  · rw [Nat.zero_add]
    exact hin k cs hk
  · rw [Nat.zero_add]
    exact hrow k j c (cityAt_eq_some.mpr ⟨cs, hk, hj⟩)

theorem Order.Names.place_eq {o : Order} {types : Types} {i j : ℕ} (h : o.Names types i j)
    (hfits : FitsArrays types) : o.place = Hw1.place i j := by
  obtain ⟨c, hc⟩ := h.listed
  obtain ⟨hi, -, -⟩ := hfits.bounds hc
  have hletter : ∀ i < 5, chr (typeLetter i) = (i : ℤ) + 65 := by decide
  rw [Order.place, h.type, h.type_n, hletter i hi, Hw1.place]
  omega

theorem agrees_purchase {g : Globals} {types : Types} (h : Agrees g types) (hfits : FitsArrays types)
    {i j : ℕ} (hn : (order g).Names types i j) :
    Agrees (purchase g) (sellAt types i j (order g)) ∧
      Lists (purchase g).file (sellAt types i j (order g)) := by
  have hnames := cityNames_sellAt types i j (order g)
  have hplace := hn.place_eq hfits
  have hdata : (purchase g).data = Function.update g.data (place i j) (sell (g.data (place i j)) (order g)) := by
    rw [← hplace]
    rfl
  have hagrees : Agrees (purchase g) (sellAt types i j (order g)) := by
    apply agrees_of_rows
    · rw [names_length hnames]
      exact h.1
    · intro k cs hk
      obtain ⟨cs', hcs', hlen⟩ := names_getElem? hnames hk
      have hin := (h.2 k cs' hcs').1
      rw [Nat.zero_add] at hin
      rw [← hlen]
      exact hin
    · intro k l c' hc'
      rw [cityAt_sellAt] at hc'
      rw [hdata]
      split_ifs at hc' with hkl
      · obtain ⟨rfl, rfl⟩ := hkl
        obtain ⟨c, hc, rfl⟩ := Option.map_eq_some_iff.mp hc'
        rw [Function.update_self, h.row hc, sell_row]
      · obtain ⟨c, hc⟩ := hn.listed
        obtain ⟨-, hj, -⟩ := hfits.bounds hc
        obtain ⟨-, hl, -⟩ := hfits.bounds hc'
        have hne : place k l ≠ place i j := place_ne hl hj (by omega)
        rw [Function.update_of_ne hne, h.row hc']
  exact ⟨hagrees, lists_inventoryText (g := { purchase g with file := g.file }) hagrees
    (fitsArrays_sellAt hfits i j (order g))⟩

inductive Tabled (g : Globals) (e : Press) (g' : Globals) (d : Display) : Prop
  | keeps (data : g'.data = g.data) (in_num : g'.in_num = g.in_num) (num : g'.num = g.num)
      (file : g'.file = g.file) (index : g.i_ID < 10 → g'.i_ID < 10)
      (shown : d ≠ .inventory ∧ ∀ supplement, d ≠ .purchased supplement)
  | loads (post : g' = readInventory g) (shown : d = .inventory)
  | sells (sale : Completes g e) (post : g' = purchase g) (supplement : Bool) (shown : d = .purchased supplement)

theorem Display.Quiet.keeps_table {d : Display} (h : d.Quiet) :
    d ≠ .inventory ∧ ∀ supplement, d ≠ .purchased supplement := by
  cases d <;> simp [Display.Quiet] at h ⊢

theorem recordLogin_index (g : Globals) : (recordLogin g).i_ID < 10 := by
  simp only [recordLogin]
  split_ifs <;> omega

theorem tabled {g : Globals} {e : Press} (hc : spills g e = false) :
    Tabled g e (machine.step g e).1 (machine.step g e).2 := by
  cases stepped hc with
  | idles post shown =>
    rw [post]
    exact .keeps rfl rfl rfl rfl id shown.keeps_table
  | shows mode post shown => exact .loads post shown
  | begins mode out post shown =>
    rw [post, shown]
    exact .keeps rfl rfl rfl rfl id (by simp)
  | leaves mode inside post shown =>
    rw [post, shown]
    exact .keeps rfl rfl rfl rfl id (by simp)
  | refuses mode inside sold recorded post shown =>
    rw [post, shown]
    exact .keeps rfl rfl rfl rfl id (by simp)
  | orders mode inside clear post shown =>
    rw [post, shown]
    exact .keeps rfl rfl rfl rfl id (by simp)
  | stops mode post shown =>
    rw [post, shown]
    exact .keeps rfl rfl rfl rfl id (by simp)
  | types i mode post shown =>
    rw [post, shown]
    exact .keeps rfl rfl rfl rfl id (by simp)
  | accepts i mode valid post shown =>
    rw [post, shown]
    exact .keeps rfl rfl rfl rfl (fun _ => recordLogin_index _) (by simp)
  | rejects i mode invalid post shown =>
    rw [post, shown]
    exact .keeps rfl rfl rfl rfl id (by simp)
  | keys i mode post shown =>
    rw [post, shown]
    exact .keeps rfl rfl rfl rfl id (by simp)
  | spoils i mode post shown =>
    rw [post, shown]
    exact .keeps rfl rfl rfl rfl id (by simp)
  | again mode bought post shown =>
    rw [post, shown]
    exact .keeps rfl rfl rfl rfl id (by simp)
  | sells sale post supplement shown => exact .sells sale post supplement shown

def Loaded (h : List Handled) : Prop := ∃ q ∈ h, q.out = .inventory

def SoldAt (L : Types) (h : List Handled) (i j : ℕ) : Prop := ∃ q ∈ h, Purchased q ∧ (order q.pre).Names L i j

def Intact (L : Types) (h : List Handled) (g : Globals) : Prop :=
  ∃ types, Lists g.file types ∧ cityNames types = cityNames L ∧
    ∀ i j, ¬ SoldAt L h i j → cityAt types i j = cityAt L i j

structure Follows (L types : Types) (h : List Handled) (g : Globals) : Prop where
  fits : FitsArrays types
  names : cityNames types = cityNames L
  unsold : ∀ i j, ¬ SoldAt L h i j → cityAt types i j = cityAt L i j
  file : Lists g.file types
  table : Loaded h → Agrees g types

theorem loaded_snoc {h : List Handled} {q : Handled} :
    Loaded (h ++ [q]) ↔ Loaded h ∨ q.out = .inventory := by
  simp only [Loaded, List.mem_append, List.mem_singleton]
  constructor
  · rintro ⟨r, hr | rfl, ho⟩
    · exact Or.inl ⟨r, hr, ho⟩
    · exact Or.inr ho
  · rintro (⟨r, hr, ho⟩ | ho)
    · exact ⟨r, Or.inl hr, ho⟩
    · exact ⟨q, Or.inr rfl, ho⟩

theorem SoldAt.snoc {L : Types} {h : List Handled} {i j : ℕ} (hs : SoldAt L h i j) (q : Handled) :
    SoldAt L (h ++ [q]) i j := by
  obtain ⟨r, hr, hp⟩ := hs
  exact ⟨r, by simp [hr], hp⟩

theorem Order.Names.congr {o : Order} {L types : Types} (h : cityNames types = cityNames L) {i j : ℕ}
    (hn : o.Names L i j) : o.Names types i j := by
  obtain ⟨c, hc⟩ := hn.listed
  obtain ⟨c', hc', -⟩ := names_cityAt h.symm hc
  exact ⟨hn.type, hn.type_n, c', hc'⟩

theorem Agrees.congr {g g' : Globals} {types : Types} (h : Agrees g types) (hdata : g'.data = g.data)
    (hin : g'.in_num = g.in_num) (hnum : g'.num = g.num) : Agrees g' types := by
  refine ⟨hnum.trans h.1, fun k cs hk => ?_⟩
  rw [hdata, hin]
  exact h.2 k cs hk

theorem follows_keeps {L types : Types} {h : List Handled} {g g' : Globals} (hf : Follows L types h g)
    {q : Handled} (hdata : g'.data = g.data) (hin : g'.in_num = g.in_num) (hnum : g'.num = g.num)
    (hfile : g'.file = g.file) (hq : q.out ≠ .inventory) : Follows L types (h ++ [q]) g' := by
  refine ⟨hf.fits, hf.names, fun i j hs => hf.unsold i j fun hs' => hs (hs'.snoc q), ?_, fun hl => ?_⟩
  · rw [hfile]
    exact hf.file
  · rcases loaded_snoc.mp hl with hl | ho
    · exact (hf.table hl).congr hdata hin hnum
    · exact absurd ho hq

theorem follows_loads {L types : Types} {h : List Handled} {g : Globals} (hf : Follows L types h g)
    (q : Handled) : Follows L types (h ++ [q]) (readInventory g) := by
  refine ⟨hf.fits, hf.names, fun i j hs => hf.unsold i j fun hs' => hs (hs'.snoc q), ?_,
    fun _ => agrees_readInventory hf.file hf.fits⟩
  obtain ⟨data, in_num, s, num, hl⟩ := readInventory_loads g
  rw [hl]
  exact hf.file

theorem follows_sells {L types : Types} {h : List Handled} {g : Globals} (hf : Follows L types h g)
    {q : Handled} (hpre : q.pre = g) (hp : Purchased q) (hl : Loaded h) {i j : ℕ} (hn : (order g).Names L i j) :
    Follows L (sellAt types i j (order g)) (h ++ [q]) (purchase g) := by
  obtain ⟨hagrees, hlists⟩ := agrees_purchase (hf.table hl) hf.fits (hn.congr hf.names)
  refine ⟨fitsArrays_sellAt hf.fits i j (order g), ?_, fun k l hs => ?_, hlists, fun _ => hagrees⟩
  · rw [cityNames_sellAt, hf.names]
  · have hne : ¬ (i = k ∧ j = l) := by
      rintro ⟨rfl, rfl⟩
      exact hs ⟨q, by simp, hp, by rw [hpre]; exact hn⟩
    rw [cityAt_sellAt, if_neg hne]
    exact hf.unsold k l fun hs' => hs (hs'.snoc q)

theorem follows_start (b : Boot) {L : Types} (hL : Lists b.file L) (hfits : FitsArrays L) :
    Follows L L [] b.start := by
  refine ⟨hfits, rfl, fun _ _ _ => rfl, hL, ?_⟩
  rintro ⟨q, hq, -⟩
  cases hq

/-- No login and no order reads an eleventh key. -/
def withinTen (g : Globals) (e : Press) : Bool :=
  match g.mode with
  | .login i => decide (e.key = ch '#' ∨ i < 10)
  | .buy i => decide (e.key = ch '#' ∨ i < 10)
  | _ => true

structure Entered (b : Boot) (L : Types) (es : List Press) : Prop where
  within : ∀ q ∈ b.history es, withinTen q.pre q.event = true
  named : ∀ q ∈ b.history es, Completes q.pre q.event → (order q.pre).Named L

/-- The table had been filled before every purchase. -/
structure Served (b : Boot) (L : Types) (es : List Press) : Prop extends Entered b L es where
  loaded : ∀ fs e, fs ++ [e] <+: es → Completes (b.after fs) e → Loaded (b.history fs)

theorem Entered.named_after {b : Boot} {L : Types} {es : List Press} (h : Entered b L es) {fs : List Press}
    {e : Press} (hfs : fs ++ [e] <+: es) (hsale : Completes (b.after fs) e) : (order (b.after fs)).Named L :=
  h.named _ (moment_mem b hfs) hsale

theorem Entered.left {b : Boot} {L : Types} {fs gs : List Press} (h : Entered b L (fs ++ gs)) : Entered b L fs := by
  have hsub : ∀ q ∈ b.history fs, q ∈ b.history (fs ++ gs) := by
    intro q hq
    rw [Boot.history, Machine.trace_append]
    exact List.mem_append_left _ hq
  exact ⟨fun q hq => h.within q (hsub q hq), fun q hq => h.named q (hsub q hq)⟩

theorem Served.left {b : Boot} {L : Types} {fs gs : List Press} (h : Served b L (fs ++ gs)) : Served b L fs :=
  ⟨h.toEntered.left, fun es e hes => h.loaded es e (hes.trans ⟨gs, rfl⟩)⟩

structure Housed (L types : Types) (g : Globals) : Prop where
  fits : FitsArrays types
  names : types = [] ∨ cityNames types = cityNames L
  file : Lists g.file types
  table : g.num = 0 ∨ Agrees g types
  index : g.i_ID < 10

theorem lists_empty {g : Globals} (h : g.num = 0) : Lists (inventoryText g) [] := by
  refine ⟨decimal 0 ++ [newline], [], [], ?_, intLine_decimal (by simp [IsInt32]), .nil 0⟩
  simp [inventoryText, h]

theorem housed_start (b : Boot) {L : Types} (hL : Lists b.file L) (hfits : FitsArrays L) : Housed L L b.start :=
  ⟨hfits, Or.inr rfl, hL, Or.inl rfl, Nat.zero_lt_succ 9⟩

theorem Housed.unspilled {L types : Types} {g : Globals} {e : Press} (h : Housed L types g) (hfits : FitsArrays L)
    (hten : withinTen g e = true) (hnamed : Completes g e → (order g).Named L) : spills g e = false := by
  unfold spills
  unfold withinTen at hten
  cases hm : g.mode with
  | main => simp [reading_inside h.file h.fits]
  | login i =>
    have hindex := h.index
    simp only [hm, decide_eq_true_eq] at hten
    dsimp only
    split_ifs with hk
    · simp [hindex]
    · simpa using hten.resolve_left hk
  | buy i =>
    simp only [hm, decide_eq_true_eq] at hten
    dsimp only
    split_ifs with hk
    · rw [decide_eq_false_iff_not]
      rintro ⟨hsale, hout⟩
      obtain ⟨i, j, hij⟩ := hnamed hsale
      obtain ⟨c, hc⟩ := hij.listed
      obtain ⟨hi, hj, -⟩ := hfits.bounds hc
      apply hout
      rw [hij.place_eq hfits, place]
      omega
    · simpa using hten.resolve_left hk
  | ended => rfl

theorem housed_step {L types : Types} {g : Globals} {e : Press} (h : Housed L types g) (hc : spills g e = false)
    (hnamed : Completes g e → (order g).Named L) : ∃ types', Housed L types' (machine.step g e).1 := by
  cases tabled hc with
  | keeps data in_num num file index shown =>
    refine ⟨types, h.fits, h.names, ?_, ?_, index h.index⟩
    · rw [file]
      exact h.file
    · rcases h.table with hzero | hagrees
      · exact Or.inl (num.trans hzero)
      · exact Or.inr (hagrees.congr data in_num num)
  | loads post shown =>
    obtain ⟨data, in_num, s, num, hl⟩ := readInventory_loads g
    have hagrees := agrees_readInventory h.file h.fits
    rw [post]
    refine ⟨types, h.fits, h.names, ?_, Or.inr hagrees, ?_⟩
    · rw [hl]
      exact h.file
    · rw [hl]
      exact h.index
  | sells sale post supplement shown =>
    rw [post]
    by_cases hzero : g.num = 0
    · exact ⟨[], ⟨by simp, by simp, by simp⟩, Or.inl rfl, lists_empty hzero, Or.inl hzero, h.index⟩
    · have hagrees := h.table.resolve_left hzero
      have hnames : cityNames types = cityNames L := by
        apply h.names.resolve_left
        rintro rfl
        exact hzero hagrees.1
      obtain ⟨i, j, hij⟩ := hnamed sale
      obtain ⟨hafter, hlists⟩ := agrees_purchase hagrees h.fits (hij.congr hnames)
      exact ⟨_, fitsArrays_sellAt h.fits i j (order g), Or.inr ((cityNames_sellAt ..).trans hnames), hlists,
        Or.inr hafter, h.index⟩

theorem Entered.housed {b : Boot} {L : Types} (hL : Lists b.file L) (hfits : FitsArrays L) {es : List Press}
    (h : Entered b L es) : ∃ types, Housed L types (b.after es) := by
  apply machine.run_invariant_of_trace (P := fun g => ∃ types, Housed L types g) ⟨L, housed_start b hL hfits⟩
  intro q hq hpre
  obtain ⟨types, ht⟩ := hpre
  have hnamed := h.named q hq
  have hc := ht.unspilled hfits (h.within q hq) hnamed
  obtain ⟨fs, e, gs, -, rfl⟩ := machine.mem_trace_iff.mp hq
  exact housed_step ht hc hnamed

theorem Entered.confined {b : Boot} {L : Types} (hL : Lists b.file L) (hfits : FitsArrays L) {es : List Press}
    (h : Entered b L es) : b.Confined es := by
  intro q hq
  have hten := h.within q hq
  have hnamed := h.named q hq
  obtain ⟨fs, e, gs, rfl, rfl⟩ := machine.mem_trace_iff.mp hq
  obtain ⟨types, ht⟩ := h.left.housed hL hfits
  exact ht.unspilled hfits hten hnamed

theorem follows_after (b : Boot) {L : Types} (hL : Lists b.file L) (hfits : FitsArrays L) {es : List Press}
    (hs : Served b L es) : ∃ types, Follows L types (b.history es) (b.after es) := by
  induction es using List.reverseRecOn with
  | nil => exact ⟨L, follows_start b hL hfits⟩
  | append_singleton es e ih =>
    obtain ⟨types, hf⟩ := ih hs.left
    have hc := (hs.confined hL hfits).step (List.prefix_refl _)
    rw [after_snoc, history_snoc]
    cases tabled hc with
    | keeps data in_num num file index shown => exact ⟨types, follows_keeps hf data in_num num file shown.1⟩
    | loads post shown =>
      rw [post]
      exact ⟨types, follows_loads hf _⟩
    | sells sale post supplement shown =>
      have hp : Purchased (machine.moment (b.after es) e) := ⟨supplement, shown⟩
      obtain ⟨i, j, hn⟩ := hs.named_after (List.prefix_refl _) sale
      rw [post]
      exact ⟨_, follows_sells hf rfl hp (hs.loaded es e (List.prefix_refl _) sale) hn⟩

theorem Follows.intact {L types : Types} {h : List Handled} {g : Globals} (hf : Follows L types h g) :
    Intact L h g := ⟨types, hf.file, hf.names, hf.unsold⟩

theorem num_unloaded {b : Boot} {es : List Press} (hc : b.Confined es) (h : ¬ Loaded (b.history es)) :
    (b.after es).num = 0 := by
  induction es using List.reverseRecOn with
  | nil => rfl
  | append_singleton es e ih =>
    rw [history_snoc, loaded_snoc] at h
    obtain ⟨hbefore, hnow⟩ := not_or.mp h
    have hnum := ih (hc.left (List.prefix_append ..)) hbefore
    rw [after_snoc]
    cases tabled (hc.step (List.prefix_refl _)) with
    | keeps data in_num num file index shown => exact num.trans hnum
    | loads post shown => exact absurd shown hnow
    | sells sale post supplement shown =>
      rw [post]
      exact hnum

theorem not_intact_unloaded {b : Boot} {L : Types} (hfits : FitsArrays L) {fs : List Press} {e : Press}
    (hc : b.Confined (fs ++ [e])) (hsale : Completes (b.after fs) e) (hn : (order (b.after fs)).Named L)
    (hl : ¬ Loaded (b.history fs)) : ¬ Intact L (b.history (fs ++ [e])) (b.after (fs ++ [e])) := by
  rintro ⟨types, hlists, hnames, -⟩
  have hempty : Lists (b.after (fs ++ [e])).file [] := by
    rw [after_snoc, hsale.step (hc.step (List.prefix_refl _))]
    exact lists_empty (num_unloaded (hc.left (List.prefix_append ..)) hl)
  have hle : types.length ≤ 5 := by
    rw [names_length hnames]
    exact hfits.types_le
  have hzero := lists_length hlists hempty hle (by simp)
  rw [names_length hnames] at hzero
  obtain ⟨i, j, hij⟩ := hn
  obtain ⟨c, hc⟩ := hij.listed
  obtain ⟨cs, hi, -⟩ := cityAt_eq_some.mp hc
  obtain ⟨hlt, -⟩ := List.getElem?_eq_some_iff.mp hi
  rw [hzero] at hlt
  exact Nat.not_lt_zero i hlt

theorem intact_iff (b : Boot) {L : Types} (hL : Lists b.file L) (hfits : FitsArrays L) (es : List Press)
    (hes : Entered b L es) : (∀ fs, fs <+: es → Intact L (b.history fs) (b.after fs)) ↔
      ∀ fs e, fs ++ [e] <+: es → Completes (b.after fs) e → Loaded (b.history fs) := by
  have hconf := hes.confined hL hfits
  constructor
  · intro h fs e hfs hsale
    by_contra hl
    exact not_intact_unloaded hfits (hconf.left hfs) hsale (hes.named_after hfs hsale) hl (h (fs ++ [e]) hfs)
  · intro h fs hfs
    have hs : Served b L es := ⟨hes, h⟩
    obtain ⟨gs, rfl⟩ := hfs
    obtain ⟨types, hf⟩ := follows_after b hL hfits hs.left
    exact hf.intact

def sampleTypes : Types := [[⟨lit "C1", fun _ => 5⟩, ⟨lit "C2", fun _ => 5⟩]]

theorem sampleTypes_city {cs : List City} (hcs : cs ∈ sampleTypes) {c : City} (hc : c ∈ cs) :
    IsWord c.name ∧ c.name.length < 50 ∧ c.count = fun _ => 5 := by
  rw [List.mem_singleton.mp hcs] at hc
  simp only [List.mem_cons, List.not_mem_nil, or_false] at hc
  rcases hc with rfl | rfl
  · exact ⟨by simp [IsWord, lit, isspace], by decide, rfl⟩
  · exact ⟨by simp [IsWord, lit, isspace], by decide, rfl⟩

theorem sampleTypes_fit : FitsArrays sampleTypes := by
  refine ⟨by decide, fun cs hcs => ?_, fun cs hcs c hc => ?_⟩
  · rw [List.mem_singleton.mp hcs]
    decide
  · obtain ⟨hname, hlen, hcount⟩ := sampleTypes_city hcs hc
    refine ⟨hname, hlen, fun k => ?_⟩
    rw [hcount]
    simp [IsInt32]

theorem lists_sample : Lists sampleBoot.file sampleTypes := by
  let g : Globals := { sampleBoot.start with
    num := 1
    in_num := fun _ => 2
    data := fun k => if k = 0 then City.row ⟨lit "C1", fun _ => 5⟩ 0 else City.row ⟨lit "C2", fun _ => 5⟩ 1 }
  have hagrees : Agrees g sampleTypes := by
    apply agrees_of_rows
    · rfl
    · intro i cs hi
      have hcs := List.mem_singleton.mp (List.mem_of_getElem? hi)
      rw [hcs]
      rfl
    · intro i j c hc
      match i, j with
      | 0, 0 => cases hc; rfl
      | 0, 1 => cases hc; rfl
      | 0, j + 2 => cases hc
      | i + 1, j => cases hc
  have hfile : sampleBoot.file = inventoryText g := by decide
  rw [hfile]
  exact lists_inventoryText hagrees sampleTypes_fit

instance (h : List Handled) : Decidable (Loaded h) := inferInstanceAs (Decidable (∃ q ∈ h, q.out = .inventory))

theorem sample_entered {es : List Press} (h : ∀ q ∈ sampleBoot.history es, withinTen q.pre q.event = true)
    (h' : ∀ q ∈ sampleBoot.history es, Completes q.pre q.event →
      (order q.pre).type = typeLetter 0 ∧ (order q.pre).type_n = 1) : Entered sampleBoot sampleTypes es := by
  refine ⟨h, fun q hq hp => ?_⟩
  obtain ⟨ht, hn⟩ := h' q hq hp
  exact ⟨0, 0, ht, hn, _, rfl⟩

theorem intact_iff_shown :
    (∀ fs, fs <+: typed "12A123456789#3A*1*1*0*0#" →
        Intact sampleTypes (sampleBoot.history fs) (sampleBoot.after fs)) ↔
      ∀ fs e, fs ++ [e] <+: typed "12A123456789#3A*1*1*0*0#" →
        Completes (sampleBoot.after fs) e → Loaded (sampleBoot.history fs) :=
  intact_iff sampleBoot lists_sample sampleTypes_fit (typed "12A123456789#3A*1*1*0*0#")
    (sample_entered (by decide) (by decide))

theorem intact_fails :
    Lists sampleBoot.file sampleTypes ∧ FitsArrays sampleTypes ∧ Entered sampleBoot sampleTypes (typed oneOrder) ∧
    (sampleBoot.after (typed oneOrder)).file = lit "0\n" ∧
    ¬ Intact sampleTypes (sampleBoot.history (typed oneOrder)) (sampleBoot.after (typed oneOrder)) := by
  have hes : typed oneOrder = typed "2A123456789#3A*1*1*0*0" ++ [press '#'] := rfl
  refine ⟨lists_sample, sampleTypes_fit, sample_entered (by decide) (by decide), by decide, ?_⟩
  rw [hes]
  exact not_intact_unloaded sampleTypes_fit (by decide) (by decide) ⟨0, 0, by decide, by decide, _, rfl⟩ (by decide)

end EmbeddedOS.Hw1
