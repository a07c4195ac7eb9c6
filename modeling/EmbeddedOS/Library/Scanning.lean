import EmbeddedOS.Library.Bytes

/-!
`sscanf`, `atoi` and `strncmp`. Conversions are read from the left until one fails; a field
whose conversion was not reached keeps the value its variable had before.
-/

namespace EmbeddedOS.CText

def startsWith (w t : Text) : Bool := w.isPrefixOf t

def digitsValue (ds : Text) : ℕ := ds.foldl (fun v b => 10 * v + (b.toNat - 48)) 0

/-- `strtol` saturates at the bounds of a 64-bit `long`; the `long` is then cut down to an `int`. -/
def longToInt (v : ℤ) : ℤ := int32 (max (-2 ^ 63) (min v (2 ^ 63 - 1)))

def scanSign (t : Text) : Bool × Text :=
  if t.head? = some 45 then (true, t.tail)
  else if t.head? = some 43 then (false, t.tail)
  else (false, t)

def scanInt (t : Text) : Option (ℤ × Text) :=
  let s := scanSign (t.dropWhile isspace)
  let ds := s.2.takeWhile isdigit
  if ds = [] then none
  else some (longToInt (if s.1 then -digitsValue ds else digitsValue ds), s.2.dropWhile isdigit)

def atoi (t : Text) : ℤ := ((scanInt t).map Prod.fst).getD 0

def scanWord (width : Option ℕ) (t : Text) : Option (Text × Text) :=
  let u := t.dropWhile isspace
  let w := u.takeWhile (fun b => !isspace b)
  let w := match width with
    | none => w
    | some k => w.take k
  if w = [] then none else some (w, u.drop w.length)

inductive Conversion where
  | word (width : Option ℕ)
  | int

inductive Field where
  | word (t : Text)
  | int (n : ℤ)
  deriving DecidableEq

def sscanf : List Conversion → Text → List Field
  | [], _ => []
  | .word width :: cs, t =>
    match scanWord width t with
    | none => []
    | some (w, rest) => .word w :: sscanf cs rest
  | .int :: cs, t =>
    match scanInt t with
    | none => []
    | some (n, rest) => .int n :: sscanf cs rest

def wordAt (fs : List Field) (k : ℕ) : Option Text :=
  match fs[k]? with
  | some (.word t) => some t
  | _ => none

def intAt (fs : List Field) (k : ℕ) : Option ℤ :=
  match fs[k]? with
  | some (.int n) => some n
  | _ => none

def storeString (w memory : Text) : Text := w ++ 0 :: memory.drop (w.length + 1)

/-- What stands `room` bytes behind the start of an array in which `%s` stored `w`. -/
def spill (room : ℕ) (w memory : Text) : Text :=
  if room ≤ w.length then storeString (w.drop room) memory else memory

def spillString (room : ℕ) (w s : Text) : Text := if room ≤ w.length then w.drop room else s

theorem spillString_of_lt {room : ℕ} {w : Text} (h : w.length < room) (s : Text) : spillString room w s = s :=
  if_neg (not_le.mpr h)

theorem scanWord_ne_nil {width : Option ℕ} {t w rest : Text} (h : scanWord width t = some (w, rest)) :
    w ≠ [] := by
  simp only [scanWord] at h
  split_ifs at h with hw
  obtain ⟨rfl, -⟩ := Prod.mk.inj (Option.some.inj h)
  exact hw

def Field.Matches : Conversion → Field → Prop
  | .word _, .word w => w ≠ []
  | .int, .int _ => True
  | _, _ => False

theorem sscanf_length_le (cs : List Conversion) (t : Text) : (sscanf cs t).length ≤ cs.length := by
  induction cs generalizing t with
  | nil => simp [sscanf]
  | cons c cs ih =>
    cases c with
    | word width =>
      cases hw : scanWord width t with
      | none => simp [sscanf, hw]
      | some p => simpa [sscanf, hw] using ih p.2
    | int =>
      cases hn : scanInt t with
      | none => simp [sscanf, hn]
      | some p => simpa [sscanf, hn] using ih p.2

theorem sscanf_matches {cs : List Conversion} {t : Text} {k : ℕ} (hk : k < (sscanf cs t).length) :
    ∃ c f, cs[k]? = some c ∧ (sscanf cs t)[k]? = some f ∧ Field.Matches c f := by
  induction cs generalizing t k with
  | nil => simp [sscanf] at hk
  | cons c cs ih =>
    cases c with
    | word width =>
      cases hw : scanWord width t with
      | none => simp [sscanf, hw] at hk
      | some p =>
        obtain ⟨w, rest⟩ := p
        cases k with
        | zero => exact ⟨.word width, .word w, rfl, by simp [sscanf, hw], scanWord_ne_nil hw⟩
        | succ k =>
          simp only [sscanf, hw, List.length_cons, Nat.add_lt_add_iff_right] at hk
          obtain ⟨c, f, hc, hf, hm⟩ := ih hk
          exact ⟨c, f, by simpa using hc, by simpa [sscanf, hw] using hf, hm⟩
    | int =>
      cases hn : scanInt t with
      | none => simp [sscanf, hn] at hk
      | some p =>
        obtain ⟨n, rest⟩ := p
        cases k with
        | zero => exact ⟨.int, .int n, rfl, by simp [sscanf, hn], trivial⟩
        | succ k =>
          simp only [sscanf, hn, List.length_cons, Nat.add_lt_add_iff_right] at hk
          obtain ⟨c, f, hc, hf, hm⟩ := ih hk
          exact ⟨c, f, by simpa using hc, by simpa [sscanf, hn] using hf, hm⟩

theorem wordAt_sscanf {cs : List Conversion} {t : Text} {k : ℕ} {width : Option ℕ}
    (hk : k < (sscanf cs t).length) (hc : cs[k]? = some (.word width)) :
    ∃ w, wordAt (sscanf cs t) k = some w ∧ w ≠ [] := by
  obtain ⟨c, f, hc', hf, hm⟩ := sscanf_matches hk
  obtain rfl := Option.some.inj (hc.symm.trans hc')
  cases f with
  | word w => exact ⟨w, by simp [wordAt, hf], hm⟩
  | int n => exact hm.elim

theorem intAt_sscanf {cs : List Conversion} {t : Text} {k : ℕ} (hk : k < (sscanf cs t).length)
    (hc : cs[k]? = some .int) : ∃ n, intAt (sscanf cs t) k = some n := by
  obtain ⟨c, f, hc', hf, hm⟩ := sscanf_matches hk
  obtain rfl := Option.some.inj (hc.symm.trans hc')
  cases f with
  | word w => exact hm.elim
  | int n => exact ⟨n, by simp [intAt, hf]⟩

def IsWord (w : Text) : Prop := w ≠ [] ∧ ∀ b ∈ w, isspace b = false

instance (w : Text) : Decidable (IsWord w) := inferInstanceAs (Decidable (_ ∧ _))

def Stops (stop : Byte → Bool) (t : Text) : Prop := ∀ b ∈ t.head?, stop b = true

theorem stops_nil (stop : Byte → Bool) : Stops stop [] := by simp [Stops]

theorem stops_cons {stop : Byte → Bool} {b : Byte} {t : Text} (h : stop b = true) :
    Stops stop (b :: t) := by simpa [Stops] using h

theorem stops_blank (rest : Text) : Stops isspace (32 :: rest) := stops_cons (by decide)

theorem stops_blank' (rest : Text) : Stops (fun b => !isdigit b) (32 :: rest) := stops_cons (by decide)

theorem takeWhile_append_stops {p stop : Byte → Bool} {w rest : Text} (hw : ∀ b ∈ w, p b = true)
    (hs : Stops stop rest) (hp : ∀ b, stop b = true → p b = false) :
    (w ++ rest).takeWhile p = w := by
  rw [List.takeWhile_append_of_pos hw]
  cases rest with
  | nil => simp
  | cons b rest =>
    have hb : p b = false := hp b (hs b (by simp))
    simp [hb]

theorem dropWhile_append_stops {p stop : Byte → Bool} {w rest : Text} (hw : ∀ b ∈ w, p b = true)
    (hs : Stops stop rest) (hp : ∀ b, stop b = true → p b = false) :
    (w ++ rest).dropWhile p = rest := by
  rw [List.dropWhile_append_of_pos hw]
  cases rest with
  | nil => simp
  | cons b rest =>
    have hb : p b = false := hp b (hs b (by simp))
    simp [hb]

theorem dropWhile_blanks {blanks t : Text} (hb : ∀ b ∈ blanks, isspace b = true)
    (ht : Stops (fun b => !isspace b) t) : (blanks ++ t).dropWhile isspace = t :=
  dropWhile_append_stops hb ht (by simp)

theorem stops_digits_of_blank {t : Text} (h : Stops isspace t) : Stops (fun b => !isdigit b) t := by
  cases t with
  | nil => exact stops_nil _
  | cons b t =>
    apply stops_cons
    by_contra hd
    have hb := h b rfl
    rw [isspace_of_isdigit (by simpa using hd)] at hb
    cases hb

def Blanks (t : Text) : Prop := ∀ b ∈ t, isspace b = true

def Gap (t : Text) : Prop := t ≠ [] ∧ Blanks t

theorem blanks_blank : Blanks [32] := by simp [Blanks, isspace]

theorem blanks_newline : Blanks [newline] := by simp [Blanks, isspace, newline]

theorem blanks_none : Blanks [] := List.forall_mem_nil _

theorem gap_blank : Gap [32] := ⟨by simp, blanks_blank⟩

theorem Blanks.stops {t : Text} (h : Blanks t) : Stops isspace t := by
  cases t with
  | nil => exact stops_nil _
  | cons b t => exact stops_cons (h b (by simp))

theorem Gap.stops {t : Text} (h : Gap t) (rest : Text) : Stops isspace (t ++ rest) := by
  obtain ⟨b, t', rfl⟩ := List.exists_cons_of_ne_nil h.1
  exact stops_cons (h.2 b (by simp))

theorem IsWord.stops {w : Text} (hw : IsWord w) (rest : Text) :
    Stops (fun b => !isspace b) (w ++ rest) := by
  obtain ⟨b, w', rfl⟩ := List.exists_cons_of_ne_nil hw.1
  exact stops_cons (by simpa using hw.2 b (by simp))

theorem scanWord_word {blanks w rest : Text} (hb : ∀ b ∈ blanks, isspace b = true) (hw : IsWord w)
    (hr : Stops isspace rest) : scanWord none (blanks ++ (w ++ rest)) = some (w, rest) := by
  have hd := dropWhile_blanks hb (hw.stops rest)
  have ht : (w ++ rest).takeWhile (fun b => !isspace b) = w :=
    takeWhile_append_stops (fun b hm => by simpa using hw.2 b hm) hr (by simp)
  simp only [scanWord, hd, ht, hw.1, ↓reduceIte, List.drop_left]

theorem scanWord_width {blanks w rest : Text} {k : ℕ} (hb : ∀ b ∈ blanks, isspace b = true)
    (hw : IsWord w) (hr : Stops isspace rest) (hk : 0 < k) :
    scanWord (some k) (blanks ++ (w ++ rest)) = some (w.take k, (w ++ rest).drop (w.take k).length) := by
  have hd := dropWhile_blanks hb (hw.stops rest)
  have ht : (w ++ rest).takeWhile (fun b => !isspace b) = w :=
    takeWhile_append_stops (fun b hm => by simpa using hw.2 b hm) hr (by simp)
  have hn : w.take k ≠ [] := by
    simp only [ne_eq, List.take_eq_nil_iff, not_or]
    exact ⟨by omega, hw.1⟩
  simp only [scanWord, hd, ht, hn, ↓reduceIte]

theorem digitsValue_map (cs : List Char) (h : ∀ c ∈ cs, c.isDigit = true) (v : ℕ) :
    (cs.map (fun c => c.toNat.toUInt8)).foldl (fun v b => 10 * v + (b.toNat - 48)) v =
      Nat.ofDigitChars 10 cs v := by
  induction cs generalizing v with
  | nil => simp
  | cons c cs ih =>
    have hc := (toUInt8_isdigit (h c (by simp))).2
    simp only [List.map_cons, List.foldl_cons, Nat.ofDigitChars_cons, hc]
    exact ih (fun c hm => h c (by simp [hm])) _

theorem digitsValue_digits (n : ℕ) : digitsValue (digits n) = n := by
  have hd : ∀ c ∈ Nat.toDigits 10 n, c.isDigit = true :=
    fun c hc => Nat.isDigit_of_mem_toDigits (by norm_num) (by norm_num) hc
  rw [digitsValue, digits, digitsValue_map _ hd, Nat.ofDigitChars_ten_toDigits]

theorem longToInt_of_isInt32 {n : ℤ} (h : IsInt32 n) : longToInt n = n := by
  have hc : max (-2 ^ 63) (min n (2 ^ 63 - 1)) = n := by
    simp only [IsInt32] at h
    omega
  rw [longToInt, hc, int32_of_isInt32 h]

def Numeral (n : ℤ) (w : Text) : Prop :=
  ∃ sign ds, (sign = [] ∨ sign = [43] ∨ sign = [45]) ∧ ds ≠ [] ∧ (∀ b ∈ ds, isdigit b = true) ∧
    w = sign ++ ds ∧ n = if sign = [45] then -(digitsValue ds : ℤ) else digitsValue ds

theorem decimal_numeral (n : ℤ) : Numeral n (decimal n) := by
  have hd : ∀ b ∈ digits n.natAbs, isdigit b = true := fun b hb => isdigit_of_mem_digits hb
  by_cases hn : n < 0
  · refine ⟨[45], digits n.natAbs, by simp, digits_ne_nil _, hd, by simp [decimal, hn], ?_⟩
    rw [if_pos rfl, digitsValue_digits]
    omega
  · refine ⟨[], digits n.natAbs, by simp, digits_ne_nil _, hd, by simp [decimal, hn], ?_⟩
    rw [if_neg (by simp), digitsValue_digits]
    omega

theorem scanSign_numeral {sign ds : Text} (hs : sign = [] ∨ sign = [43] ∨ sign = [45]) (hn : ds ≠ [])
    (hd : ∀ b ∈ ds, isdigit b = true) (rest : Text) :
    scanSign (sign ++ ds ++ rest) = (decide (sign = [45]), ds ++ rest) := by
  rcases hs with rfl | rfl | rfl
  · obtain ⟨b, t, rfl⟩ := List.exists_cons_of_ne_nil hn
    have hb := hd b (by simp)
    have hm : b ≠ 45 := by rintro rfl; exact absurd hb (by decide)
    have hp : b ≠ 43 := by rintro rfl; exact absurd hb (by decide)
    simp [scanSign, hm, hp]
  · simp [scanSign]
  · simp [scanSign]

theorem Numeral.isWord {n : ℤ} {w : Text} (h : Numeral n w) : IsWord w := by
  obtain ⟨sign, ds, hs, hn, hd, rfl, -⟩ := h
  refine ⟨by simp [hn], fun b hb => ?_⟩
  rcases List.mem_append.mp hb with hb | hb
  · rcases hs with rfl | rfl | rfl
    · simp at hb
    · obtain rfl := List.mem_singleton.mp hb
      decide
    · obtain rfl := List.mem_singleton.mp hb
      decide
  · exact isspace_of_isdigit (hd b hb)

theorem decimal_isWord (n : ℤ) : IsWord (decimal n) := (decimal_numeral n).isWord

theorem scanInt_numeral {blanks w rest : Text} {n : ℤ} (hb : ∀ b ∈ blanks, isspace b = true)
    (hw : Numeral n w) (hi : IsInt32 n) (hr : Stops (fun b => !isdigit b) rest) :
    scanInt (blanks ++ (w ++ rest)) = some (n, rest) := by
  have hdrop := dropWhile_blanks hb (hw.isWord.stops rest)
  obtain ⟨sign, ds, hs, hn, hd, rfl, rfl⟩ := hw
  have ht : (ds ++ rest).takeWhile isdigit = ds := takeWhile_append_stops hd hr (by simp)
  have hw : (ds ++ rest).dropWhile isdigit = rest := dropWhile_append_stops hd hr (by simp)
  simp only [scanInt, hdrop, scanSign_numeral hs hn hd, ht, hw, hn, ↓reduceIte, decide_eq_true_eq,
    longToInt_of_isInt32 hi]

theorem scanInt_decimal {blanks rest : Text} {n : ℤ} (hb : ∀ b ∈ blanks, isspace b = true)
    (hn : IsInt32 n) (hr : Stops (fun b => !isdigit b) rest) :
    scanInt (blanks ++ (decimal n ++ rest)) = some (n, rest) :=
  scanInt_numeral hb (decimal_numeral n) hn hr

inductive Reads : Conversion → Text → Field → Prop
  | word {w : Text} : IsWord w → Reads (.word none) w (.word w)
  | int {w : Text} {n : ℤ} : Numeral n w → IsInt32 n → Reads .int w (.int n)

theorem reads_decimal {n : ℤ} (hn : IsInt32 n) : Reads .int (decimal n) (.int n) := .int (decimal_numeral n) hn

theorem sscanf_cons {c : Conversion} {w : Text} {f : Field} (h : Reads c w f) {blanks rest : Text}
    (hb : Blanks blanks) (hr : Stops isspace rest) (cs : List Conversion) :
    sscanf (c :: cs) (blanks ++ (w ++ rest)) = f :: sscanf cs rest := by
  cases h with
  | word hw => simp only [sscanf, scanWord_word hb hw hr]
  | int hw hn => simp only [sscanf, scanInt_numeral hb hw hn (stops_digits_of_blank hr)]

theorem sscanf_first {c : Conversion} {w : Text} {f : Field} (h : Reads c w f) {rest : Text}
    (hr : Stops isspace rest) (cs : List Conversion) : sscanf (c :: cs) (w ++ rest) = f :: sscanf cs rest :=
  sscanf_cons h blanks_none hr cs

theorem sscanf_next {c : Conversion} {w : Text} {f : Field} (h : Reads c w f) {rest : Text}
    (hr : Stops isspace rest) (cs : List Conversion) :
    sscanf (c :: cs) (32 :: (w ++ rest)) = f :: sscanf cs rest := sscanf_cons h blanks_blank hr cs

theorem atoi_decimal {n : ℤ} (hn : IsInt32 n) : atoi (decimal n) = n := by
  have h := @scanInt_decimal [] [] n (by simp) hn (stops_nil _)
  simp only [List.nil_append, List.append_nil] at h
  simp [atoi, h]

theorem startsWith_iff (w t : Text) : startsWith w t = true ↔ ∃ rest, t = w ++ rest := by
  simp only [startsWith, List.isPrefixOf_iff_prefix]
  exact ⟨fun ⟨r, h⟩ => ⟨r, h.symm⟩, fun ⟨r, h⟩ => ⟨r, h.symm⟩⟩

end EmbeddedOS.CText
