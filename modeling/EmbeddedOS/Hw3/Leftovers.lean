import EmbeddedOS.Hw3.Buffer
import EmbeddedOS.Hw3.Requests
import EmbeddedOS.Hw3.Sales
import EmbeddedOS.Hw3.Records

/-!
How much of a command's effect comes from memory that the server never set: the locals of the
handlers, and what stands in the buffer behind the bytes received.
-/

namespace EmbeddedOS.Hw3

open CText Runs

def Agree (o o' : Outcome) : Prop := o.globals = o'.globals ∧ o.conn = o'.conn ∧ o.writes = o'.writes

def Locals.IsInt (l : Locals) : Prop := IsInt32 l.y ∧ ∀ j, IsInt32 (l.mask_num j)

def blankLocals (x : Byte) : Locals := ⟨fun _ => 0, 0, [], x, fun _ => 0⟩

theorem blankLocals_isInt (x : Byte) : (blankLocals x).IsInt := by
  have h0 : IsInt32 0 := by decide
  exact ⟨h0, fun _ => h0⟩

def isupper (b : Byte) : Bool := 65 ≤ b && b ≤ 90

theorem isupper_iff (b : Byte) : isupper b = true ↔ 65 ≤ b.toNat ∧ b.toNat ≤ 90 := by
  simp [isupper, UInt8.le_iff_toNat_le]

theorem chr_bounds (b : Byte) : -128 ≤ chr b ∧ chr b ≤ 127 := by
  have hb := b.toNat_lt
  simp only [chr]
  split_ifs <;> omega

theorem isupper_of_chr {b : Byte} (h : 65 ≤ chr b ∧ chr b ≤ 90) : isupper b = true := by
  have hb := b.toNat_lt
  rw [isupper_iff]
  simp only [chr] at h
  split_ifs at h <;> omega

theorem isupper_cases {P : Byte → Prop} (h : ∀ n, 65 ≤ n → n ≤ 90 → P (UInt8.ofNat n)) {b : Byte}
    (hb : isupper b = true) : P b := by
  rw [isupper_iff] at hb
  rw [← UInt8.ofNat_toNat (x := b)]
  exact h b.toNat hb.1 hb.2

theorem letterCode_upper {b : Byte} (h : isupper b = true) (y y' : ℤ) : letterCode y b = letterCode y' b := by
  refine isupper_cases (P := fun b => letterCode y b = letterCode y' b) ?_ h
  intro n hl hu
  interval_cases n <;> rfl

theorem letterCode_not_upper {b : Byte} (h : isupper b = false) (y : ℤ) : letterCode y b = y := by
  have hne (c : Byte) (hc : isupper c = true) (he : b = c) : False := by
    rw [he, hc] at h
    cases h
  have hrange (c d : Byte) (hc : 65 ≤ chr c) (hd : chr d ≤ 90) (he : chr b ≥ chr c ∧ chr b ≤ chr d) :
      False := by
    have hu := isupper_of_chr (b := b) (by omega)
    rw [h] at hu
    cases hu
  unfold letterCode
  rw [if_neg (hne _ (by decide)), if_neg (hne _ (by decide)), if_neg (hne _ (by decide)),
    if_neg (hne _ (by decide)), if_neg (hrange _ _ (by decide) (by decide)),
    if_neg (hrange _ _ (by decide) (by decide)), if_neg (hrange _ _ (by decide) (by decide)),
    if_neg (hne _ (by decide)), if_neg (hne _ (by decide))]

theorem digitSum_bounds (d : ID) : -6336 ≤ digitSum d ∧ digitSum d ≤ 2844 := by
  have hb (k : Fin 10) : -176 ≤ digitAt d k ∧ digitAt d k ≤ 79 := by
    have hc := chr_bounds (d k)
    simp only [digitAt]
    omega
  have h1 := hb 1
  have h2 := hb 2
  have h3 := hb 3
  have h4 := hb 4
  have h5 := hb 5
  have h6 := hb 6
  have h7 := hb 7
  have h8 := hb 8
  simp only [digitSum]
  omega

theorem scanID_stored {l : Locals} {text : Text} {i : Fin 10} (h : i < (storedID text).length) :
    scanID l text i = (storedID text).getD i 0 := by
  rw [scanID, List.getD_eq_getElem _ _ h, List.getD_eq_getElem _ _ h]

theorem scanID_leftover {l : Locals} {text : Text} {i : Fin 10} (h : (storedID text).length ≤ i) :
    scanID l text i = l.tmp_ID i := by
  rw [scanID, List.getD_eq_default _ _ h]

/-- Every ID that can come out of this text is accepted, or every one is refused. -/
def IDSettled (text : Text) : Prop := 10 ≤ (storedID text).length ∧
  (isupper ((storedID text).getD 0 0) = true ∨
    ¬ (1 ≤ chr ((storedID text).getD 9 0) - 48 ∧ chr ((storedID text).getD 9 0) - 48 ≤ 19))

theorem scanID_full {text : Text} (h : 10 ≤ (storedID text).length) (l l' : Locals) :
    scanID l text = scanID l' text := by
  funext i
  rw [scanID_stored (by omega), scanID_stored (by omega)]

theorem settled_check {text : Text} (h : IDSettled text) (l l' : Locals) :
    check_ID l.y (scanID l text) = check_ID l'.y (scanID l' text) ∧
      (check_ID l.y (scanID l text) = true → scanID l text = scanID l' text) := by
  obtain ⟨h10, hcase⟩ := h
  have hfix (i : Fin 10) : scanID l text i = (storedID text).getD i 0 := scanID_stored (by omega)
  have hsame := scanID_full h10 l l'
  refine ⟨?_, fun _ => hsame⟩
  rw [← hsame]
  rcases hcase with hup | hdigit
  · have h0 : isupper (scanID l text 0) = true := by
      rw [hfix]
      exact hup
    rw [Bool.eq_iff_iff, check_ID_iff, check_ID_iff, checkDigit, checkDigit, letterCode_upper h0 l.y l'.y]
  · have hbad (y : ℤ) : check_ID y (scanID l text) = false := by
      rw [Bool.eq_false_iff]
      intro hc
      have hd := check_ID_digit hc
      rw [digitAt, hfix] at hd
      exact hdigit hd
    rw [hbad, hbad]

theorem exists_digit {z : ℤ} (hz : 1 ≤ z ∧ z ≤ 19) : ∃ x : Byte, chr x - 48 = z := by
  obtain ⟨h1, h19⟩ := hz
  refine ⟨UInt8.ofNat (z + 48).toNat, ?_⟩
  interval_cases z <;> decide

theorem unfixed_check {d : ID} (hup : isupper (d 0) = false) (hlast : 1 ≤ digitAt d 9 ∧ digitAt d 9 ≤ 19) :
    ∃ y y', IsInt32 y ∧ IsInt32 y' ∧ check_ID y d = true ∧ check_ID y' d = false := by
  have hS := digitSum_bounds d
  have hy (z : ℤ) (hz : 1 ≤ z ∧ z ≤ 19) : IsInt32 (10 * (10 - z - digitSum d)) ∧
      (check_ID (10 * (10 - z - digitSum d)) d = true ↔ z = digitAt d 9) := by
    have hmod : (10 - z).tmod 10 = 10 - z := by
      obtain ⟨hz1, hz19⟩ := hz
      interval_cases z <;> decide
    refine ⟨by simp only [IsInt32]; omega, ?_⟩
    rw [check_ID_iff, checkDigit, letterCode_not_upper hup, Int.mul_tdiv_cancel_left _ (by norm_num),
      Int.mul_tmod_right, zero_mul, add_zero, sub_add_cancel, hmod, sub_sub_cancel]
  obtain ⟨z, hz, hne⟩ : ∃ z : ℤ, (1 ≤ z ∧ z ≤ 19) ∧ z ≠ digitAt d 9 := by
    by_cases hone : digitAt d 9 = 1
    · exact ⟨2, by norm_num, by omega⟩
    · exact ⟨1, by norm_num, by omega⟩
  obtain ⟨hi, hacc⟩ := hy (digitAt d 9) hlast
  obtain ⟨hi', hrej⟩ := hy z hz
  refine ⟨_, _, hi, hi', hacc.mpr rfl, ?_⟩
  rw [Bool.eq_false_iff]
  exact mt hrej.mp hne

theorem tmpLocals_isInt (d : ID) {y : ℤ} (hy : IsInt32 y) : (⟨d, y, [], 0, fun _ => 0⟩ : Locals).IsInt :=
  ⟨hy, (blankLocals_isInt 0).2⟩

theorem unsettled_full {text : Text} (h10 : 10 ≤ (storedID text).length)
    (hup : isupper ((storedID text).getD 0 0) = false)
    (hlast : 1 ≤ chr ((storedID text).getD 9 0) - 48 ∧ chr ((storedID text).getD 9 0) - 48 ≤ 19) :
    ∃ l l' : Locals, l.IsInt ∧ l'.IsInt ∧
      check_ID l.y (scanID l text) = true ∧ check_ID l'.y (scanID l' text) = false := by
  obtain ⟨d, hd⟩ : ∃ d, scanID (blankLocals 0) text = d := ⟨_, rfl⟩
  have hfix (i : Fin 10) : d i = (storedID text).getD i 0 := by
    rw [← hd]
    exact scanID_stored (by omega)
  have hup' : isupper (d 0) = false := by rw [hfix]; exact hup
  have hlast' : 1 ≤ digitAt d 9 ∧ digitAt d 9 ≤ 19 := by rw [digitAt, hfix]; exact hlast
  obtain ⟨y, y', hy, hy', hacc, hrej⟩ := unfixed_check hup' hlast'
  refine ⟨_, _, tmpLocals_isInt (fun _ => 0) hy, tmpLocals_isInt (fun _ => 0) hy', ?_, ?_⟩
  · rw [scanID_full h10 _ (blankLocals 0), hd]
    exact hacc
  · rw [scanID_full h10 _ (blankLocals 0), hd]
    exact hrej

theorem unsettled_short {text : Text} (h9 : (storedID text).length ≤ 9) :
    ∃ l l' : Locals, l.IsInt ∧ l'.IsInt ∧
      check_ID l.y (scanID l text) = true ∧ check_ID l'.y (scanID l' text) = false := by
  obtain ⟨d, hd⟩ : ∃ d, scanID (blankLocals 0) text = d := ⟨_, rfl⟩
  obtain ⟨z, hz⟩ := exists_digit (checkDigit_bounds 0 d)
  obtain ⟨l, hl⟩ : ∃ l : Locals, l = ⟨fun i => if i = 9 then z else 0, 0, [], 0, fun _ => 0⟩ := ⟨_, rfl⟩
  have hsame (i : Fin 10) (hi : i ≠ 9) : scanID l text i = d i := by
    rw [← hd, scanID, scanID, hl]
    simp [hi, blankLocals]
  have hlast (l : Locals) : scanID l text 9 = l.tmp_ID 9 := scanID_leftover h9
  refine ⟨l, blankLocals 0, ?_, blankLocals_isInt 0, ?_, ?_⟩
  · rw [hl]
    exact tmpLocals_isInt _ (by decide)
  · have hsum : digitSum (scanID l text) = digitSum d := by
      simp only [digitSum, digitAt]
      rw [hsame 1 (by decide), hsame 2 (by decide), hsame 3 (by decide), hsame 4 (by decide),
        hsame 5 (by decide), hsame 6 (by decide), hsame 7 (by decide), hsame 8 (by decide)]
    have hy : l.y = 0 := by rw [hl]
    have hz9 : l.tmp_ID 9 = z := by simp [hl]
    rw [check_ID_iff, checkDigit, hsum, hsame 0 (by decide), hy, digitAt, hlast, hz9, hz, checkDigit]
  · rw [Bool.eq_false_iff]
    intro hc
    have hdigit := check_ID_digit hc
    rw [digitAt, hlast, show chr ((blankLocals 0).tmp_ID 9) = 0 by decide] at hdigit
    omega

theorem unsettled_check {text : Text} (h : ¬ IDSettled text) : ∃ l l' : Locals, l.IsInt ∧ l'.IsInt ∧
    check_ID l.y (scanID l text) = true ∧ check_ID l'.y (scanID l' text) = false := by
  by_cases h10 : 10 ≤ (storedID text).length
  · have hup : isupper ((storedID text).getD 0 0) = false := by
      rw [Bool.eq_false_iff]
      exact fun hup => h ⟨h10, Or.inl hup⟩
    have hlast : 1 ≤ chr ((storedID text).getD 9 0) - 48 ∧ chr ((storedID text).getD 9 0) - 48 ≤ 19 := by
      by_contra hn
      exact h ⟨h10, Or.inr hn⟩
    exact unsettled_full h10 hup hlast
  · exact unsettled_short (by omega)

/-- The text decides about the buy: all six fields are there, or the request is refused even with
the most modest completion. -/
def RequestSettled (g : Globals) (text : Text) : Prop :=
  (sscanf buyFormat text).length = 6 ∨ ∀ x, verdict g (scanRequest (blankLocals x) text) = .refuse

theorem scanRequest_complete {text : Text} (h : (sscanf buyFormat text).length = 6) (l l' : Locals) :
    scanRequest l text = scanRequest l' text := by
  obtain ⟨type, htype, -⟩ := @wordAt_sscanf buyFormat text 1 none (by omega) rfl
  obtain ⟨city, hcity, hne⟩ := @wordAt_sscanf buyFormat text 2 none (by omega) rfl
  obtain ⟨x, t, rfl⟩ := List.exists_cons_of_ne_nil hne
  have hint (j : Fin 3) : ∃ n, intAt (sscanf buyFormat text) (3 + j) = some n := by
    apply intAt_sscanf (by omega)
    fin_cases j <;> rfl
  unfold scanRequest
  simp only [htype, hcity, Option.getD_some, Option.bind_some, List.head?_cons, Request.mk.injEq, true_and]
  funext j
  obtain ⟨n, hn⟩ := hint j
  simp [hn]

theorem verdict_blank {g : Globals} (htypes : ∀ i < g.num, (g.row i 0).type ≠ []) {l : Locals}
    {text : Text} (h : verdict g (scanRequest l text) ≠ .refuse) :
    verdict g (scanRequest (blankLocals l.city) text) ≠ .refuse := by
  obtain ⟨r, hr⟩ : ∃ r, scanRequest l text = r := ⟨_, rfl⟩
  obtain ⟨r', hr'⟩ : ∃ r', scanRequest (blankLocals l.city) text = r' := ⟨_, rfl⟩
  have hcity : r'.city = r.city := by rw [← hr, ← hr']; rfl
  have htype : r'.type = r.type ∨ r'.type = [] := by
    rw [← hr, ← hr']
    simp only [scanRequest, blankLocals, spillString]
    by_cases h17 : 17 ≤ ((wordAt (sscanf buyFormat text) 2).getD []).length
    · simp [h17]
    · by_cases h16 : 16 ≤ ((wordAt (sscanf buyFormat text) 0).getD []).length
      · simp [h16]
      · cases wordAt (sscanf buyFormat text) 1 <;> simp [h16, h17]
  have hnum (j : Fin 3) : r'.mask_num j = r.mask_num j ∨ r'.mask_num j = 0 := by
    rw [← hr, ← hr']
    cases hn : intAt (sscanf buyFormat text) (3 + j) <;> simp [scanRequest, hn, blankLocals]
  rw [hr] at h
  rw [hr']
  have hv : startsWith (lit "XXX") r.type = false ∧ r.Valid := by
    by_contra hn
    refine h (if_pos ?_)
    rw [not_and_or, Bool.not_eq_false] at hn
    exact hn
  have hle (j : Fin 3) : 0 ≤ r'.mask_num j ∧ r'.mask_num j ≤ r.mask_num j := by
    have h0 := hv.2.1 j
    rcases hnum j with hj | hj
    · omega
    · omega
  have hvalid : r'.Valid := ⟨fun j => (hle j).1, le_trans (Finset.sum_le_sum fun j _ => (hle j).2) hv.2.2⟩
  rcases htype with htype | hempty
  · have hx : startsWith (lit "XXX") r'.type = false := by rw [htype]; exact hv.1
    cases hw : verdict g r with
    | refuse => exact absurd hw h
    | unknown =>
      obtain ⟨-, -, hf⟩ := verdict_eq_unknown.mp hw
      have hu : verdict g r' = .unknown := verdict_eq_unknown.mpr ⟨hx, hvalid, by rw [htype]; exact hf⟩
      simp [hu]
    | sell i =>
      obtain ⟨-, -, hf, hc, hs⟩ := verdict_eq_sell.mp hw
      have hnumber : r'.city_num = r.city_num := by rw [Request.city_num, hcity, Request.city_num]
      have hsell : verdict g r' = .sell i := by
        refine verdict_eq_sell.mpr ⟨hx, hvalid, by rw [htype]; exact hf, by rw [hnumber]; exact hc, ?_⟩
        intro j
        rw [hnumber]
        exact (hle j).2.trans (hs j)
      simp [hsell]
  · have hu : verdict g r' = .unknown := by
      refine verdict_eq_unknown.mpr ⟨by rw [hempty]; decide, hvalid, ?_⟩
      rw [hempty]
      exact findType_eq_none.mpr fun i hi => (htypes i hi).symm
    simp [hu]

theorem verdict_settled {g : Globals} (htypes : ∀ i < g.num, (g.row i 0).type ≠ []) {text : Text}
    (h : RequestSettled g text) (l l' : Locals) : scanRequest l text = scanRequest l' text ∨
      (verdict g (scanRequest l text) = .refuse ∧ verdict g (scanRequest l' text) = .refuse) := by
  rcases h with h6 | hall
  · exact Or.inl (scanRequest_complete h6 l l')
  · right
    constructor
    · by_contra hn
      exact verdict_blank htypes hn (hall _)
    · by_contra hn
      exact verdict_blank htypes hn (hall _)

theorem verdict_refusable {g : Globals} {text : Text} (h : (sscanf buyFormat text).length ≠ 6) :
    ∃ l : Locals, l.IsInt ∧ verdict g (scanRequest l text) = .refuse := by
  have hle : (sscanf buyFormat text).length ≤ 6 := sscanf_length_le buyFormat text
  have hnone : intAt (sscanf buyFormat text) 5 = none := by
    unfold intAt
    rw [List.getElem?_eq_none (by omega)]
  have h4 : IsInt32 4 := by decide
  refine ⟨⟨fun _ => 0, 0, [], 0, fun _ => 4⟩, ⟨(blankLocals_isInt 0).1, fun _ => h4⟩, if_pos (Or.inr ?_)⟩
  rintro ⟨h0, hsum⟩
  rw [Fin.sum_univ_three] at hsum
  have h2 : (scanRequest ⟨fun _ => 0, 0, [], 0, fun _ => 4⟩ text).mask_num 2 = 4 := by
    simp [scanRequest, hnone]
  have hm0 := h0 0
  have hm1 := h0 1
  omega

section Text

variable {g : Globals} {beyond : ℕ → ID} {c : Conn}

def LocalsSettled (g : Globals) (beyond : ℕ → ID) (c : Conn) (text : Text) : Prop :=
  match kind text with
  | .login => c.iflogin = true ∨ IDSettled text
  | .buy => c.iflogin = true ∧ check_day_of_week g beyond c.ID = true → RequestSettled g text
  | _ => True

theorem agree_of_locals {text : Text} (htypes : ∀ i < g.num, (g.row i 0).type ≠ [])
    (h : LocalsSettled g beyond c text) (l l' : Locals) :
    Agree (mask_server l beyond g c text) (mask_server l' beyond g c text) := by
  unfold LocalsSettled at h
  rw [mask_server_eq, mask_server_eq]
  cases hk : kind text with
  | display => exact ⟨rfl, rfl, rfl⟩
  | logout => exact ⟨rfl, rfl, rfl⟩
  | statics => exact ⟨rfl, rfl, rfl⟩
  | invalid => exact ⟨rfl, rfl, rfl⟩
  | login =>
    rw [hk] at h
    rcases h with hl | hid
    · simp [server_login, hl, Agree]
    · obtain ⟨hcheck, hsame⟩ := settled_check hid l l'
      by_cases hc : check_ID l.y (scanID l text) = true
      · have hc' : check_ID l'.y (scanID l text) = true := by
          rw [hsame hc, ← hcheck]
          exact hc
        simp [server_login, hc, hc', ← hsame hc, Agree]
      · have hc' := hc
        rw [hcheck] at hc'
        simp [server_login, hc, hc', Agree]
  | buy =>
    rw [hk] at h
    simp only [server_buy_eq]
    split_ifs with hd
    · rcases verdict_settled htypes (h hd) l l' with hsame | ⟨hr, hr'⟩
      · rw [hsame]
        exact ⟨rfl, rfl, rfl⟩
      · rw [hr, hr']
        exact ⟨rfl, rfl, rfl⟩
    · exact ⟨rfl, rfl, rfl⟩

theorem not_agree_of_locals {text : Text} (h : ¬ LocalsSettled g beyond c text) :
    ∃ l l' : Locals, l.IsInt ∧ l'.IsInt ∧
      ¬ Agree (mask_server l beyond g c text) (mask_server l' beyond g c text) := by
  unfold LocalsSettled at h
  cases hk : kind text with
  | display => simp [hk] at h
  | logout => simp [hk] at h
  | statics => simp [hk] at h
  | invalid => simp [hk] at h
  | login =>
    simp only [hk, not_or, Bool.not_eq_true] at h
    obtain ⟨l, l', hl, hl', hacc, hrej⟩ := unsettled_check h.2
    refine ⟨l, l', hl, hl', ?_⟩
    rintro ⟨-, -, hw⟩
    simp only [mask_server_eq, hk, server_login, h.1, hacc, hrej, Bool.false_eq_true, ↓reduceIte] at hw
    exact absurd hw (by decide)
  | buy =>
    simp only [hk, Classical.not_imp, RequestSettled, not_or, not_forall] at h
    obtain ⟨hd, h6, x, hx⟩ := h
    obtain ⟨l', hl', hrefuse⟩ := verdict_refusable (g := g) h6
    refine ⟨blankLocals x, l', blankLocals_isInt x, hl', ?_⟩
    rintro ⟨-, -, hw⟩
    simp only [mask_server_eq, hk, server_buy_eq, if_pos hd, hrefuse] at hw
    cases hv : verdict g (scanRequest (blankLocals x) text) with
    | refuse => exact hx hv
    | unknown =>
      rw [hv] at hw
      have he : ([] : List Text) = [buy_fail] := hw
      exact absurd he (by decide)
    | sell i =>
      rw [hv] at hw
      have he : saleWrites = [buy_fail] := hw
      exact absurd he (by decide)

def Hidden (g : Globals) (fd : ℤ) (bytes : Text) : Prop :=
  49 ≤ (recordPrefix g fd).length + bytes.length

def TailSettled (g : Globals) (beyond : ℕ → ID) (c : Conn) (bytes : Text) : Prop :=
  match kind bytes with
  | .login => Hidden g c.fd bytes ∧ c.iflogin = true
  | .buy => Hidden g c.fd bytes ∧ ¬ (c.iflogin = true ∧ check_day_of_week g beyond c.ID = true)
  | .invalid => ¬ Partial bytes
  | _ => True

theorem recordHead_hidden {fd : ℤ} {bytes : Text} (h : Hidden g fd bytes) (t : Text) :
    recordHead 50 g fd (bytes ++ t) = recordHead 50 g fd bytes := by
  have hcut (u : Text) : (recordPrefix g fd ++ bytes ++ u).take 49 =
      (recordPrefix g fd ++ bytes).take 49 := by
    apply List.take_append_of_le_length
    rw [List.length_append]
    exact h
  have h1 := hcut (t ++ [comma])
  have h2 := hcut [comma]
  simp only [recordHead, snprintf]
  simp only [List.append_assoc] at h1 h2 ⊢
  rw [h1, ← h2]

theorem agree_of_tail {bytes : Text} (h : TailSettled g beyond c bytes) (l l' : Locals) (t t' : Text) :
    Agree (mask_server l beyond g c (bytes ++ t)) (mask_server l' beyond g c (bytes ++ t')) := by
  unfold TailSettled at h
  have hkind (u : Text) : kind (bytes ++ u) = kind bytes := by
    cases hk : kind bytes with
    | invalid =>
      rw [hk] at h
      exact kind_append_invalid hk h u
    | display => rw [← hk]; exact kind_append (by simp [hk]) u
    | login => rw [← hk]; exact kind_append (by simp [hk]) u
    | logout => rw [← hk]; exact kind_append (by simp [hk]) u
    | buy => rw [← hk]; exact kind_append (by simp [hk]) u
    | statics => rw [← hk]; exact kind_append (by simp [hk]) u
  rw [mask_server_eq, mask_server_eq, hkind, hkind]
  cases hk : kind bytes with
  | display => exact ⟨rfl, rfl, rfl⟩
  | logout => exact ⟨rfl, rfl, rfl⟩
  | statics => exact ⟨rfl, rfl, rfl⟩
  | invalid => exact ⟨rfl, rfl, rfl⟩
  | login =>
    rw [hk] at h
    obtain ⟨hh, hl⟩ := h
    simp [server_login, hl, recordHead_hidden hh, Agree]
  | buy =>
    rw [hk] at h
    obtain ⟨hh, hd⟩ := h
    simp [server_buy_eq, if_neg hd, refused, recordHead_hidden hh, Agree]

theorem logs_differ {bytes : Text} (hk : kind bytes = .login ∨ kind bytes = .buy)
    (hh : ¬ Hidden g c.fd bytes) (l : Locals) :
    (mask_server l beyond g c (bytes ++ [])).globals.writeToResult ≠
      (mask_server l beyond g c (bytes ++ [120])).globals.writeToResult := by
  have hvalid : kind bytes ≠ .invalid := by
    rcases hk with hk | hk
    · simp [hk]
    · simp [hk]
  have htext (t : Text) : ∃ rest, (mask_server l beyond g c (bytes ++ t)).globals.writeToResult =
      g.writeToResult ++ ((recordPrefix g c.fd ++ bytes ++ (t ++ [comma])).take 49 ++ rest) := by
    have hcommand := mask_server_command l beyond g c (bytes ++ t)
    refine ⟨(mask_server l beyond g c (bytes ++ t)).result, ?_⟩
    rw [mask_server_log, recordText]
    rcases hk with hk | hk
    · rw [hcommand, kind_append hvalid, hk]
      simp [recordHead, recordSize, snprintf, commandText]
    · rw [hcommand, kind_append hvalid, hk]
      simp [recordHead, recordSize, snprintf, commandText]
  unfold Hidden at hh
  have hlen : (recordPrefix g c.fd ++ bytes).length < 49 := by
    rw [List.length_append]
    omega
  obtain ⟨m, hm⟩ : ∃ m, 49 - (recordPrefix g c.fd ++ bytes).length = m + 1 :=
    ⟨49 - (recordPrefix g c.fd ++ bytes).length - 1, by omega⟩
  have hcut (x : Byte) (u : Text) : (recordPrefix g c.fd ++ bytes ++ x :: u).take 49 =
      recordPrefix g c.fd ++ bytes ++ x :: u.take m := by
    rw [List.take_append, List.take_of_length_le hlen.le, hm, List.take_succ_cons]
  intro he
  obtain ⟨rest, h1⟩ := htext []
  obtain ⟨rest', h2⟩ := htext [120]
  rw [h1, h2, List.append_cancel_left_eq] at he
  rw [List.nil_append, List.singleton_append, hcut, hcut] at he
  simp only [List.append_assoc, List.append_cancel_left_eq, List.cons_append, List.cons.injEq] at he
  exact absurd he.1 (by decide)

theorem writes_ne_invalid {l : Locals} {buf : Text} (h : kind buf ≠ .invalid) :
    (mask_server l beyond g c buf).writes ≠ [invalid] := by
  have hmsg : ∀ t ∈ answers, [t] ≠ [invalid] := by decide
  cases mask_server_replied l beyond g c buf with
  | answer t known result writes =>
    rw [writes]
    exact hmsg t known
  | sale result writes =>
    rw [writes]
    exact (by decide : saleWrites ≠ [invalid])
  | silent unknown result writes => simp [writes]
  | display result writes =>
    rw [writes]
    intro hw
    have hh : some 115 = invalid.head? := congrArg List.head? (List.singleton_inj.mp hw)
    exact absurd hh (by decide)
  | statics result writes =>
    rw [writes]
    intro hw
    have hlen : (snprintf 10 (decimal g.alcohol ++ [newline])).length ≤ 9 := List.length_take_le 9 _
    rw [List.singleton_inj.mp hw] at hlen
    exact absurd hlen (by decide)
  | unrecognised command result writes => exact absurd command h

theorem keyword_no_nul (k : Kind) : 0 ∉ keyword k := by
  cases k <;> decide

theorem not_agree_of_tail {bytes : Text} (hh : ¬ Hidden g c.fd bytes)
    (h : ¬ TailSettled g beyond c bytes) (l : Locals) : ∃ t t' : Text, 0 ∉ t ∧ 0 ∉ t' ∧
      ¬ Agree (mask_server l beyond g c (bytes ++ t)) (mask_server l beyond g c (bytes ++ t')) := by
  have hshow (hk : kind bytes = .login ∨ kind bytes = .buy) : ∃ t t' : Text, 0 ∉ t ∧ 0 ∉ t' ∧
      ¬ Agree (mask_server l beyond g c (bytes ++ t)) (mask_server l beyond g c (bytes ++ t')) :=
    ⟨[], [120], by decide, by decide, fun ⟨hg, _⟩ => logs_differ hk hh l (congrArg _ hg)⟩
  unfold TailSettled at h
  cases hk : kind bytes with
  | display => simp [hk] at h
  | logout => simp [hk] at h
  | statics => simp [hk] at h
  | login => exact hshow (Or.inl hk)
  | buy => exact hshow (Or.inr hk)
  | invalid =>
    rw [hk] at h
    obtain ⟨k, hv, t, ht⟩ := not_not.mp h
    refine ⟨[], t, by decide, ?_, ?_⟩
    · intro h0
      exact keyword_no_nul k (ht ▸ List.mem_append_right _ h0)
    · rintro ⟨-, -, hw⟩
      have hfull : kind (bytes ++ t) ≠ .invalid := by
        rw [ht, kind_of_keyword hv (List.prefix_refl _)]
        exact hv
      have hw1 : (mask_server l beyond g c (bytes ++ [])).writes = [invalid] := by
        rw [List.append_nil, mask_server_eq, hk]
        rfl
      exact writes_ne_invalid hfull (hw.symm.trans hw1)

end Text

/-- Nothing that was not received and not set by the server shows in the effect of the command:
any two contents of the buffer and of the locals give the same state, log and reply. -/
def Insensitive (s : Server) (k : ℕ) (beyond : ℕ → ID) (fresh : Bool) (bytes : Text) : Prop :=
  ∀ (memory memory' : Text) (l l' : Locals), l.IsInt → l'.IsInt →
    (server.step s ⟨k, received fresh memory bytes, l, beyond⟩).1 =
        (server.step s ⟨k, received fresh memory' bytes, l', beyond⟩).1 ∧
      (server.step s ⟨k, received fresh memory bytes, l, beyond⟩).2.writes =
        (server.step s ⟨k, received fresh memory' bytes, l', beyond⟩).2.writes

def Settled (g : Globals) (beyond : ℕ → ID) (c : Conn) (fresh : Bool) (bytes : Text) : Prop :=
  if Closed fresh bytes then LocalsSettled g beyond c (cstring bytes) else TailSettled g beyond c bytes

def firstCommand (es : List Event) (k : ℕ) : Bool := es.all fun e => e.conn != k

theorem insensitive_iff_agree (s : Server) (k : ℕ) (beyond : ℕ → ID) (fresh : Bool) (bytes : Text) :
    Insensitive s k beyond fresh bytes ↔ ∀ (memory memory' : Text) (l l' : Locals), l.IsInt → l'.IsInt →
      Agree (mask_server l beyond s.globals (s.conns k) (received fresh memory bytes))
        (mask_server l' beyond s.globals (s.conns k) (received fresh memory' bytes)) := by
  have hstep (o o' : Outcome) : (((⟨o.globals, Function.update s.conns k o.conn⟩ : Server) =
      ⟨o'.globals, Function.update s.conns k o'.conn⟩) ∧ o.writes = o'.writes) ↔ Agree o o' := by
    simp only [Agree, Server.mk.injEq, and_assoc]
    refine and_congr_right fun _ => and_congr_left fun _ => ⟨fun hu => ?_, fun hu => by rw [hu]⟩
    simpa using congrFun hu k
  constructor
  · intro h memory memory' l l' hl hl'
    exact (hstep _ _).mp (h memory memory' l l' hl hl')
  · intro h memory memory' l l' hl hl'
    exact (hstep _ _).mpr (h memory memory' l l' hl hl')

theorem insensitive_iff (b : Boot) (es : List Event) (k : ℕ) (beyond : ℕ → ID) (bytes : Text)
    (hlen : bytes.length ≤ 30) :
    (Settled (b.after es).globals beyond ((b.after es).conns k) (firstCommand es k) bytes →
      Insensitive (b.after es) k beyond (firstCommand es k) bytes) ∧
    (Closed (firstCommand es k) bytes ∨
        ¬ Hidden (b.after es).globals ((b.after es).conns k).fd bytes →
      Insensitive (b.after es) k beyond (firstCommand es k) bytes →
      Settled (b.after es).globals beyond ((b.after es).conns k) (firstCommand es k) bytes) := by
  have htypes : ∀ i < (b.after es).globals.num, ((b.after es).globals.row i 0).type ≠ [] := by
    intro i hi
    rw [num_after] at hi
    rw [row_after_type]
    exact (b.type_name i hi).1.1
  generalize firstCommand es k = fresh
  generalize b.after es = s at htypes ⊢
  rw [insensitive_iff_agree]
  unfold Settled
  by_cases hc : Closed fresh bytes
  · simp only [if_pos hc, received_closed hc]
    constructor
    · intro h memory memory' l l' _ _
      exact agree_of_locals htypes h l l'
    · intro _ h
      by_contra hn
      obtain ⟨l, l', hl, hl', hdiff⟩ := not_agree_of_locals hn
      exact hdiff (h [] [] l l' hl hl')
  · rw [if_neg hc]
    constructor
    · intro h memory memory' l l' _ _
      obtain ⟨t, ht⟩ := received_open hc memory
      obtain ⟨t', ht'⟩ := received_open hc memory'
      rw [ht, ht']
      exact agree_of_tail h l l' t t'
    · intro hh h
      by_contra hn
      obtain ⟨t, t', h0, h0', hdiff⟩ := not_agree_of_tail (hh.resolve_left hc) hn (blankLocals 0)
      obtain ⟨memory, hm⟩ := received_any hc hlen h0
      obtain ⟨memory', hm'⟩ := received_any hc hlen h0'
      have hsame := h memory memory' (blankLocals 0) (blankLocals 0) (blankLocals_isInt 0)
        (blankLocals_isInt 0)
      rw [hm, hm'] at hsame
      exact hdiff hsame

theorem insensitive_iff_show :
    Insensitive (sampleShop.after []) 0 (fun _ _ => 0) (firstCommand [] 0) (lit "show") := by
  apply (insensitive_iff sampleShop [] 0 (fun _ _ => 0) (lit "show") (by decide)).1
  rw [Settled, if_neg (by decide)]
  exact trivial

theorem insensitive_fails :
    ¬ Insensitive (sampleShop.after []) 0 (fun _ _ => 0) (firstCommand [] 0) (lit "login") := by
  intro h
  have hint : IsInt32 0 := by decide
  have hw := (h [] [] ⟨![65, 49, 50, 51, 52, 53, 54, 55, 56, 57], 0, [], 0, fun _ => 0⟩ (blankLocals 0)
    ⟨hint, fun _ => hint⟩ (blankLocals_isInt 0)).2
  exact absurd hw (by decide)

end EmbeddedOS.Hw3
