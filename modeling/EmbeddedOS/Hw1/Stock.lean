import EmbeddedOS.Hw1.Files

namespace EmbeddedOS.Hw1

open CText Runs

def quantityKey (g : Globals) (k : Fin 3) : Byte := g.buyinfo (![4, 6, 8] k)

def Improper (g : Globals) : Prop :=
  ∃ k, isdigit (quantityKey g k) = false ∨ (g.data (order g).place).count k < (order g).mask k

def Covers (r : Inv) (o : Order) : Prop := ∀ k, 0 ≤ o.mask k ∧ o.mask k ≤ r.count k

theorem order_mask (g : Globals) (k : Fin 3) : (order g).mask k = chr (quantityKey g k) - 48 := by
  fin_cases k <;> rfl

theorem isdigit_of_range {b : Byte} (h : 0 ≤ chr b - 48) (h' : chr b - 48 ≤ 9) : isdigit b = true := by
  have hb := b.toNat_lt
  rw [isdigit_iff]
  unfold chr at h h'
  split_ifs at h h' <;> omega

theorem clamped_exact {x q : ℤ} (hx : IsInt32 x) (h : 0 ≤ q) (hq : q ≤ x) : clamped x q = x - q := by
  have hi : int32 (x - q) = x - q := by
    apply int32_of_isInt32
    simp only [IsInt32] at *
    omega
  rw [clamped, hi]
  split_ifs <;> omega

theorem sell_exact {c : City} (hc : c.Fits) {j : ℕ} {o : Order} (h : Covers (c.row j) o) (k : Fin 3) :
    (c.sell o).count k = c.count k - o.mask k := by
  obtain ⟨-, -, hcount⟩ := hc
  obtain ⟨hpos, hle⟩ := h k
  fin_cases k
  · exact clamped_exact (hcount 0) hpos hle
  · exact clamped_exact (hcount 1) hpos hle
  · apply int32_of_isInt32
    have hx := hcount 2
    change 0 ≤ o.mask 2 at hpos
    change o.mask 2 ≤ c.count 2 at hle
    simp only [IsInt32] at *
    omega

theorem Covers.proper {g : Globals} (h : Covers (g.data (order g).place) (order g))
    (few : (order g).mask 0 + (order g).mask 1 + (order g).mask 2 ≤ 3) :
    (∀ k, 0 ≤ (order g).mask k ∧ (order g).mask k ≤ 3) ∧ ¬ Improper g := by
  have hpos (k : Fin 3) := (h k).1
  have hall : ∀ k, 0 ≤ (order g).mask k ∧ (order g).mask k ≤ 3 := by
    have h0 := hpos 0
    have h1 := hpos 1
    have h2 := hpos 2
    rw [Fin.forall_fin_succ, Fin.forall_fin_two]
    exact ⟨⟨h0, by omega⟩, ⟨h1, by simp; omega⟩, ⟨h2, by simp; omega⟩⟩
  refine ⟨hall, ?_⟩
  rintro ⟨k, hd | hlt⟩
  · obtain ⟨hp, h3⟩ := hall k
    rw [order_mask] at hp h3
    rw [isdigit_of_range hp (by omega)] at hd
    cases hd
  · exact absurd (h k).2 (not_le.mpr hlt)

def NonNegative (types : Types) : Prop := ∀ i j c, cityAt types i j = some c → ∀ k, 0 ≤ c.count k

def stock (g : Globals) (i j : ℕ) (k : Fin 3) : ℤ := (g.data (place i j)).count k

structure Accounts (b : Boot) (L : Types) (es : List Press) : Prop where
  nonneg : ∀ fs, fs <+: es → Loaded (b.history fs) → ∀ i j c, cityAt L i j = some c → ∀ k,
    0 ≤ stock (b.after fs) i j k
  falls : ∀ fs e, fs ++ [e] <+: es → Loaded (b.history fs) → ∀ i j c, cityAt L i j = some c → ∀ k,
    stock (b.after (fs ++ [e])) i j k ≤ stock (b.after fs) i j k
  taken : ∀ fs e, fs ++ [e] <+: es → Purchased (machine.moment (b.after fs) e) → ∀ i j,
    (order (b.after fs)).Names L i j → ∀ k,
      stock (b.after (fs ++ [e])) i j k = stock (b.after fs) i j k - (order (b.after fs)).mask k
  few : ∀ fs e, fs ++ [e] <+: es → Purchased (machine.moment (b.after fs) e) →
    (∀ k, 0 ≤ (order (b.after fs)).mask k ∧ (order (b.after fs)).mask k ≤ 3) ∧
      (order (b.after fs)).mask 0 + (order (b.after fs)).mask 1 + (order (b.after fs)).mask 2 ≤ 3
  refused : ∀ fs e i_buy, fs ++ [e] <+: es → Loaded (b.history fs) → (b.after fs).mode = .buy i_buy →
    e.key = ch '#' → Improper (b.after fs) → ∀ i j c, cityAt L i j = some c → ∀ k,
      stock (b.after (fs ++ [e])) i j k = stock (b.after fs) i j k

theorem Agrees.stock {g : Globals} {types : Types} (h : Agrees g types) {i j : ℕ} {c : City}
    (hc : cityAt types i j = some c) (k : Fin 3) : stock g i j k = c.count k := by
  rw [Hw1.stock, h.row hc]
  fin_cases k <;> rfl

theorem stock_sells {L types : Types} {h : List Handled} {g : Globals} (hf : Follows L types h g) (hl : Loaded h)
    {i j : ℕ} (hij : (order g).Names L i j) (hcov : Covers (g.data (order g).place) (order g)) {k l : ℕ} {c : City}
    (hc : cityAt L k l = some c) (m : Fin 3) :
    stock (purchase g) k l m = stock g k l m - if i = k ∧ j = l then (order g).mask m else 0 := by
  obtain ⟨c', hc', -⟩ := names_cityAt hf.names.symm hc
  have hij' := hij.congr hf.names
  have hbefore := (hf.table hl).stock hc' m
  have hafter := (agrees_purchase (hf.table hl) hf.fits hij').1
  have hcity := cityAt_sellAt types i j (order g) k l
  rw [hc'] at hcity
  split_ifs at hcity ⊢ with hkl
  · obtain ⟨rfl, rfl⟩ := hkl
    rw [hij'.place_eq hf.fits, (hf.table hl).row hc'] at hcov
    rw [hafter.stock hcity m, hbefore, sell_exact (hf.fits.bounds hc').2.2 hcov m]
  · rw [hafter.stock hcity m, hbefore, sub_zero]

theorem Covers.stock {L types : Types} {h : List Handled} {g : Globals} (hf : Follows L types h g) {i j : ℕ}
    (hij : (order g).Names L i j) (hcov : Covers (g.data (order g).place) (order g)) (m : Fin 3) :
    0 ≤ (order g).mask m ∧ (order g).mask m ≤ Hw1.stock g i j m := by
  rw [(hij.congr hf.names).place_eq hf.fits] at hcov
  exact hcov m

def InStock (L : Types) (g : Globals) (e : Press) : Prop := Completes g e →
  (order g).Named L ∧ Covers (g.data (order g).place) (order g)

theorem stock_step {L types : Types} {h : List Handled} {g : Globals} (hf : Follows L types h g) (hl : Loaded h)
    {e : Press} (hc : spills g e = false) (hin : InStock L g e) {k l : ℕ} {c : City} (hkl : cityAt L k l = some c) (m : Fin 3) :
    stock (machine.step g e).1 k l m = stock g k l m ∨
      Completes g e ∧ stock (machine.step g e).1 k l m ≤ stock g k l m := by
  cases tabled hc with
  | keeps data in_num num file index shown =>
    left
    rw [stock, data]
    rfl
  | loads post shown =>
    left
    obtain ⟨c', hc', -⟩ := names_cityAt hf.names.symm hkl
    have hafter := (follows_loads hf (machine.moment g e)).table (loaded_snoc.mpr (Or.inl hl))
    rw [post, hafter.stock hc' m, (hf.table hl).stock hc' m]
  | sells sale post supplement shown =>
    right
    obtain ⟨⟨i, j, hij⟩, hcov⟩ := hin sale
    have hmask := (hcov.stock hf hij m).1
    refine ⟨sale, ?_⟩
    rw [post, stock_sells hf hl hij hcov hkl m]
    split_ifs <;> omega

theorem nonNegative_sells {L types : Types} {h : List Handled} {g : Globals} (hf : Follows L types h g)
    (hl : Loaded h) (hn : NonNegative types) {i j : ℕ} (hij : (order g).Names L i j)
    (hcov : Covers (g.data (order g).place) (order g)) : NonNegative (sellAt types i j (order g)) := by
  intro k l c hc m
  have hnames := cityNames_sellAt types i j (order g)
  obtain ⟨cL, hcL, -⟩ := names_cityAt (hnames.trans hf.names) hc
  obtain ⟨c', hc', -⟩ := names_cityAt hnames hc
  have hafter := (agrees_purchase (hf.table hl) hf.fits (hij.congr hf.names)).1
  have hbefore := hn k l c' hc' m
  rw [← (hf.table hl).stock hc' m] at hbefore
  rw [← hafter.stock hc m, stock_sells hf hl hij hcov hcL m]
  split_ifs with hkl
  · obtain ⟨rfl, rfl⟩ := hkl
    exact sub_nonneg.mpr (hcov.stock hf hij m).2
  · rwa [sub_zero]

theorem nonNegative_after (b : Boot) {L : Types} (hL : Lists b.file L) (hfits : FitsArrays L)
    (hpos : NonNegative L) {es : List Press} (hs : Served b L es)
    (hin : ∀ fs e, fs ++ [e] <+: es → InStock L (b.after fs) e) :
    ∃ types, Follows L types (b.history es) (b.after es) ∧ NonNegative types := by
  induction es using List.reverseRecOn with
  | nil => exact ⟨L, follows_start b hL hfits, hpos⟩
  | append_singleton es e ih =>
    obtain ⟨types, hf, hn⟩ := ih hs.left fun fs f hfs => hin fs f (hfs.trans (List.prefix_append ..))
    rw [after_snoc, history_snoc]
    cases tabled ((hs.confined hL hfits).step (List.prefix_refl _)) with
    | keeps data in_num num file index shown => exact ⟨types, follows_keeps hf data in_num num file shown.1, hn⟩
    | loads post shown =>
      rw [post]
      exact ⟨types, follows_loads hf _, hn⟩
    | sells sale post supplement shown =>
      have hp : Purchased (machine.moment (b.after es) e) := ⟨supplement, shown⟩
      have hl := hs.loaded es e (List.prefix_refl _) sale
      obtain ⟨⟨i, j, hij⟩, hcov⟩ := hin es e (List.prefix_refl _) sale
      rw [post]
      exact ⟨_, follows_sells hf rfl hp hl hij, nonNegative_sells hf hl hn hij hcov⟩

theorem accounts_iff (b : Boot) {L : Types} (hL : Lists b.file L) (hfits : FitsArrays L) (hpos : NonNegative L)
    (es : List Press) (hs : Served b L es) : Accounts b L es ↔
      ∀ q ∈ b.history es, Completes q.pre q.event → Covers (q.pre.data (order q.pre).place) (order q.pre) := by
  have hconf := hs.confined hL hfits
  have hsale {fs : List Press} {e : Press} (hfs : fs ++ [e] <+: es) (hp : Purchased (machine.moment (b.after fs) e)) :
      Completes (b.after fs) e := purchased_completes (hconf.step hfs) hp
  constructor
  · intro ha q hq hsells k
    have hnamed := hs.named q hq hsells
    obtain ⟨fs, e, gs, rfl, rfl⟩ := machine.mem_trace_iff.mp hq
    rw [Machine.moment_pre] at hnamed ⊢
    have hfs : fs ++ [e] <+: fs ++ e :: gs := ⟨gs, by simp⟩
    have hp : Purchased (machine.moment (b.after fs) e) := Completes.purchased (hconf.step hfs) hsells
    obtain ⟨i, j, hij⟩ := hnamed
    obtain ⟨c, hc⟩ := hij.listed
    have hl : Loaded (b.history (fs ++ [e])) := by
      rw [history_snoc]
      exact loaded_snoc.mpr (Or.inl (hs.loaded fs e hfs hsells))
    have hleft := ha.nonneg _ hfs hl i j c hc k
    rw [ha.taken fs e hfs hp i j hij k, sub_nonneg, stock] at hleft
    rw [hij.place_eq hfits]
    exact ⟨((ha.few fs e hfs hp).1 k).1, hleft⟩
  · intro hcov
    have hin : ∀ fs e, fs ++ [e] <+: es → InStock L (b.after fs) e := by
      intro fs e hfs hsells
      have hcovers : Completes (b.after fs) e → Covers ((b.after fs).data (order (b.after fs)).place)
          (order (b.after fs)) := hcov _ (moment_mem b hfs)
      exact ⟨hs.named_after hfs hsells, hcovers hsells⟩
    have hat (fs : List Press) (hfs : fs <+: es) :
        ∃ types, Follows L types (b.history fs) (b.after fs) ∧ NonNegative types := by
      obtain ⟨gs, rfl⟩ := hfs
      exact nonNegative_after b hL hfits hpos hs.left fun fs e h => hin fs e (h.trans (List.prefix_append ..))
    have hbefore (fs : List Press) (e : Press) (hfs : fs ++ [e] <+: es) :
        ∃ types, Follows L types (b.history fs) (b.after fs) := by
      obtain ⟨types, hf, -⟩ := hat fs ((List.prefix_append fs [e]).trans hfs)
      exact ⟨types, hf⟩
    constructor
    · intro fs hfs hl i j c hc k
      obtain ⟨types, hf, hn⟩ := hat fs hfs
      obtain ⟨c', hc', -⟩ := names_cityAt hf.names.symm hc
      rw [(hf.table hl).stock hc' k]
      exact hn i j c' hc' k
    · intro fs e hfs hl i j c hc k
      obtain ⟨types, hf⟩ := hbefore fs e hfs
      rw [after_snoc]
      rcases stock_step hf hl (hconf.step hfs) (hin fs e hfs) hc k with heq | ⟨-, hle⟩
      · exact heq.le
      · exact hle
    · intro fs e hfs hp i j hij k
      obtain ⟨types, hf⟩ := hbefore fs e hfs
      obtain ⟨c, hc⟩ := hij.listed
      have hsells := stock_sells hf (hs.loaded fs e hfs (hsale hfs hp)) hij (hin fs e hfs (hsale hfs hp)).2 hc k
      rw [if_pos ⟨rfl, rfl⟩] at hsells
      rw [after_snoc, (hsale hfs hp).step (hconf.step hfs)]
      exact hsells
    · intro fs e hfs hp
      have few := (hsale hfs hp).2.2.1
      exact ⟨((hin fs e hfs (hsale hfs hp)).2.proper few).1, few⟩
    · intro fs e i_buy hfs hl hm hk himp i j c hc k
      obtain ⟨types, hf⟩ := hbefore fs e hfs
      rw [after_snoc]
      rcases stock_step hf hl (hconf.step hfs) (hin fs e hfs) hc k with heq | ⟨hsells, -⟩
      · exact heq
      · exact absurd himp ((hin fs e hfs hsells).2.proper hsells.2.2.1).2

theorem sampleTypes_nonNegative : NonNegative sampleTypes := by
  intro i j c hc k
  obtain ⟨cs, hcs, hm⟩ := mem_iff_cityAt.mpr ⟨i, j, hc⟩
  rw [(sampleTypes_city hcs hm).2.2]
  simp

theorem served_first {b : Boot} {L : Types} (hL : Lists b.file L) (hfits : FitsArrays L) {p : Press}
    (hp : p.key = ch '1') {es : List Press} (h : Entered b L (p :: es)) : Served b L (p :: es) := by
  refine ⟨h, fun fs e hfs hsale => ?_⟩
  have hc := h.confined hL hfits
  cases fs with
  | nil => cases hsale.1
  | cons f fs =>
    obtain ⟨rfl, -⟩ := List.cons_prefix_cons.mp hfs
    have hfirst : spills b.start f = false := hc _ (List.mem_cons_self ..)
    have hshown : machine.step b.start f = (readInventory b.start, .inventory) := by
      rw [machine]
      dsimp only
      rw [if_neg (by simp [hfirst])]
      exact if_pos hp
    exact ⟨_, List.mem_cons_self .., congrArg Prod.snd hshown⟩

theorem accounts_iff_shown :
    Accounts sampleBoot sampleTypes (typed "12A123456789#3A*1*1*0*0#") ↔
      ∀ q ∈ sampleBoot.history (typed "12A123456789#3A*1*1*0*0#"), Completes q.pre q.event →
        Covers (q.pre.data (order q.pre).place) (order q.pre) :=
  accounts_iff sampleBoot lists_sample sampleTypes_fit sampleTypes_nonNegative _
    (served_first lists_sample sampleTypes_fit rfl (sample_entered (by decide) (by decide)))

theorem accounts_fails :
    Served sampleBoot sampleTypes (typed "12A123456789#3A*1*1*0**#") ∧
    stock (sampleBoot.after (typed "12A123456789#3A*1*1*0**")) 0 0 2 = 5 ∧
    stock (sampleBoot.after (typed "12A123456789#3A*1*1*0**#")) 0 0 2 = 11 ∧
    ¬ Accounts sampleBoot sampleTypes (typed "12A123456789#3A*1*1*0**#") := by
  have hbefore : stock (sampleBoot.after (typed "12A123456789#3A*1*1*0**")) 0 0 2 = 5 := by decide +kernel
  have hafter : stock (sampleBoot.after (typed "12A123456789#3A*1*1*0**#")) 0 0 2 = 11 := by decide +kernel
  have hserved : Served sampleBoot sampleTypes (typed "12A123456789#3A*1*1*0**#") :=
    served_first lists_sample sampleTypes_fit rfl (sample_entered (by decide) (by decide))
  refine ⟨hserved, hbefore, hafter, fun ha => ?_⟩
  have hfalls := ha.falls (typed "12A123456789#3A*1*1*0**") (press '#') (List.prefix_refl _) (by decide) 0 0 _ rfl 2
  have hes : typed "12A123456789#3A*1*1*0**" ++ [press '#'] = typed "12A123456789#3A*1*1*0**#" := rfl
  rw [hes, hbefore, hafter] at hfalls
  exact absurd hfalls (by decide)

end EmbeddedOS.Hw1
