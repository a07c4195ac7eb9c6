import EmbeddedOS.Lab3.Keypad

namespace EmbeddedOS.Lab3

open CText Expressions

def KeyASCIICode : List Byte := lit "0123456789ABCD*#"

def since (keys : List Byte) : List Byte := keys.rtakeWhile fun key => key != byte '*'

def Closed (keys : List Byte) : Prop := ∀ key ∈ keys.getLast?, key = byte '#' ∨ key = byte '*'

instance (keys : List Byte) : Decidable (Closed keys) := inferInstanceAs (Decidable (∀ key ∈ keys.getLast?, _))

def keyOperator (key : Byte) : Option Operator :=
  if key = byte 'A' then some .plus
  else if key = byte 'B' then some .minus
  else if key = byte 'C' then some .times
  else if key = byte 'D' then some .divide
  else none

def splitRow : List Byte → Text × List (Operator × Text)
  | [] => ([], [])
  | key :: keys =>
    let r := splitRow keys
    match keyOperator key with
    | some o => ([], (o, r.1) :: r.2)
    | none => (key :: r.1, r.2)

def firstKeys (keys : List Byte) : List Byte := keys.takeWhile fun key => key != byte '#'

def firstSum (keys : List Byte) : Sum Text := parse (splitRow (firstKeys keys)).1 (splitRow (firstKeys keys)).2

variable (charSigned : Bool)

def textValue (w : Text) : ℤ := digitsValue w

/-- Operands in `0..79`, no division by zero, no overflow. -/
structure InRange (s : Sum Text) : Prop where
  operand : ∀ w ∈ s.operands, digitsValue w ≤ 79
  divisors : s.Defined textValue
  fits : s.Within textValue IsInt32

instance (o : Byte) : Decidable (IsOperator o) := inferInstanceAs (Decidable (_ ∨ _))

def converted (keys : List Byte) : ℕ := 2 * (keys.map change_operator).countP fun b => decide (IsOperator b)

theorem keyOperator_key (o : Operator) : keyOperator (operatorKey o) = some o := by cases o <;> decide

theorem keyOperator_eq_some {key : Byte} {o : Operator} (h : keyOperator key = some o) : key = operatorKey o := by
  unfold keyOperator at h
  split_ifs at h with ha hb hc hd
  · rw [← Option.some.inj h]
    exact ha
  · rw [← Option.some.inj h]
    exact hb
  · rw [← Option.some.inj h]
    exact hc
  · rw [← Option.some.inj h]
    exact hd

theorem keyOperator_digit {key : Byte} (h : isdigit key = true) : keyOperator key = none := by
  have hno : ∀ o : Byte, isdigit o = false → key ≠ o := fun o => digit_ne h
  rw [keyOperator, if_neg (hno _ rfl), if_neg (hno _ rfl), if_neg (hno _ rfl), if_neg (hno _ rfl)]

def IsRowKey (key : Byte) : Prop := isdigit key = true ∨ ∃ o, key = operatorKey o

set_option maxRecDepth 2000 in
theorem keyASCIICode_kinds : ∀ key ∈ KeyASCIICode, key = byte '#' ∨ key = byte '*' ∨ isdigit key = true ∨
    (keyOperator key).isSome = true := by decide

theorem isRowKey_of_mem {key : Byte} (h : key ∈ KeyASCIICode) (hpound : key ≠ byte '#') (hstar : key ≠ byte '*') :
    IsRowKey key := by
  rcases keyASCIICode_kinds key h with h | h | h | h
  · exact absurd h hpound
  · exact absurd h hstar
  · exact Or.inl h
  · obtain ⟨o, ho⟩ := Option.isSome_iff_exists.mp h
    exact Or.inr ⟨o, keyOperator_eq_some ho⟩

theorem splitRow_keys {keys : List Byte} (h : ∀ key ∈ keys, IsRowKey key) :
    keys = (splitRow keys).1 ++ ((splitRow keys).2.flatMap fun q => operatorKey q.1 :: q.2) ∧
      (∀ b ∈ (splitRow keys).1, isdigit b = true) ∧ ∀ q ∈ (splitRow keys).2, ∀ b ∈ q.2, isdigit b = true := by
  induction keys with
  | nil => simp [splitRow]
  | cons key keys ih =>
    obtain ⟨hkeys, hfirst, hrest⟩ := ih fun k hk => h k (by simp [hk])
    rcases h key (by simp) with hdigit | ⟨o, rfl⟩
    · simp only [splitRow, keyOperator_digit hdigit]
      refine ⟨?_, ?_, hrest⟩
      · nth_rewrite 1 [hkeys]
        rfl
      · intro b hb
        rcases List.mem_cons.mp hb with rfl | hb
        · exact hdigit
        · exact hfirst b hb
    · simp only [splitRow, keyOperator_key]
      refine ⟨?_, List.forall_mem_nil _, ?_⟩
      · nth_rewrite 1 [hkeys]
        rfl
      · intro q hq
        rcases List.mem_cons.mp hq with rfl | hq
        · exact hfirst
        · exact hrest q hq

theorem splitRow_row {w : Text} (hw : ∀ b ∈ w, isdigit b = true) {rest : List (Operator × Text)}
    (hrest : ∀ q ∈ rest, ∀ b ∈ q.2, isdigit b = true) :
    splitRow (w ++ rest.flatMap fun q => operatorKey q.1 :: q.2) = (w, rest) := by
  induction rest generalizing w with
  | nil =>
    induction w with
    | nil => rfl
    | cons b w ih =>
      have htail := ih fun x hx => hw x (by simp [hx])
      rw [List.cons_append, splitRow, keyOperator_digit (hw b (by simp)), htail]
  | cons q rest ih =>
    have hflat := ih (hrest q (by simp)) fun r hr => hrest r (by simp [hr])
    induction w with
    | nil =>
      rw [List.nil_append, List.flatMap_cons, List.cons_append, splitRow, keyOperator_key, hflat]
    | cons b w ihw =>
      have htail := ihw fun x hx => hw x (by simp [hx])
      rw [List.cons_append, splitRow, keyOperator_digit (hw b (by simp)), htail]

theorem since_snoc (keys : List Byte) (key : Byte) :
    since (keys ++ [key]) = if key = byte '*' then [] else since keys ++ [key] := by
  by_cases h : key = byte '*'
  · rw [if_pos h]
    exact List.rtakeWhile_concat_neg _ _ _ (by simp [h])
  · rw [if_neg h]
    exact List.rtakeWhile_concat_pos _ _ _ (by simp [h])

theorem press_array {p p' : Pad} {key : Byte} {t : Text} (h : Begins p.c p.index_c t)
    (hpress : press charSigned p key = some p') :
    Begins p'.c p'.index_c (if key = byte '*' then [] else t ++ [change_operator key]) := by
  have hroom : t.length < 20 := by
    by_contra hfull
    have hnone : store p.c p.index_c (change_operator key) = none := by
      rw [h.1]
      exact dif_neg hfull
    rw [press, hnone] at hpress
    cases hpress
  obtain ⟨c, hstore, hbegins⟩ := store_begins h hroom (change_operator key)
  have hne : byte '#' ≠ byte '*' := by decide
  simp only [press, hstore] at hpress
  split_ifs at hpress with hpound hstar
  · rw [if_neg (hpound ▸ hne)]
    cases hconvert : convert charSigned { p with c := c, index_c := p.index_c + 1 } with
    | none =>
      rw [hconvert] at hpress
      cases hpress
    | some u =>
      rw [hconvert] at hpress
      obtain ⟨r, -, rfl⟩ := Option.map_eq_some_iff.mp hpress
      exact hbegins
  · obtain rfl := Option.some.inj hpress
    rw [if_pos hstar]
    exact ⟨rfl, List.nil_prefix⟩
  · obtain rfl := Option.some.inj hpress
    rw [if_neg hstar]
    exact hbegins

theorem enter_array {p p' : Pad} {keys : List Byte} (henter : enter charSigned p.cleared keys = some p') :
    Begins p'.c p'.index_c ((since keys).map change_operator) := by
  induction keys using List.reverseRecOn generalizing p' with
  | nil =>
    obtain rfl := Option.some.inj henter
    exact ⟨rfl, List.nil_prefix⟩
  | append_singleton keys key ih =>
    rw [enter, List.foldlM_append] at henter
    obtain ⟨p₁, hkeys, hkey⟩ := Option.bind_eq_some_iff.mp henter
    rw [List.foldlM_cons] at hkey
    obtain ⟨p₂, hpress, hsame⟩ := Option.bind_eq_some_iff.mp hkey
    obtain rfl := Option.some.inj hsame
    have harray := press_array charSigned (ih hkeys) hpress
    rw [since_snoc]
    split_ifs at harray ⊢ with hstar
    · exact harray
    · rw [List.map_append, List.map_singleton]
      exact harray

theorem convertChar_operator {o : Byte} (ho : IsOperator o) {t : Tokens} {u : Text} (h : Begins t.c_new t.i_new u)
    (hroom : u.length + 2 ≤ 20) :
    ∃ x ch, convertChar charSigned t o = some ⟨t.i_new + 2, 0, ch⟩ ∧ Begins ch (t.i_new + 2) (u ++ [x, o]) := by
  obtain ⟨ch₁, hs₁, h₁⟩ := store_begins h (by omega) (UInt8.ofInt (int32 (t.tmp + 48)))
  obtain ⟨ch₂, hs₂, h₂⟩ := store_begins h₁ (by simp; omega) o
  have hno : ¬ (o ≠ byte '+' ∧ o ≠ byte '-' ∧ o ≠ byte '*' ∧ o ≠ byte '/' ∧ o ≠ byte '=') := by
    unfold IsOperator at ho
    tauto
  refine ⟨_, ch₂, ?_, by simpa using h₂⟩
  rw [convertChar, if_neg hno]
  simp only [hs₁, hs₂, Option.map_some]

theorem convertChar_other {o : Byte} (ho : ¬ IsOperator o) (t : Tokens) :
    ∃ tmp, convertChar charSigned t o = some { t with tmp := tmp } := by
  have hall : o ≠ byte '+' ∧ o ≠ byte '-' ∧ o ≠ byte '*' ∧ o ≠ byte '/' ∧ o ≠ byte '=' := by
    unfold IsOperator at ho
    tauto
  exact ⟨_, by rw [convertChar, if_pos hall]⟩

theorem convert_keeps {text : Text} {t : Tokens} {u : Text} (h : Begins t.c_new t.i_new u)
    (hroom : u.length + 2 * text.countP (fun b => decide (IsOperator b)) ≤ 20) :
    ∃ r v, text.foldlM (convertChar charSigned) t = some r ∧ Begins r.c_new r.i_new (u ++ v) := by
  induction text generalizing t u with
  | nil =>
    rw [← List.append_nil u] at h
    exact ⟨t, [], rfl, h⟩
  | cons b text ih =>
    by_cases hb : IsOperator b
    · rw [List.countP_cons_of_pos (by simpa using hb)] at hroom
      obtain ⟨x, ch, hconvert, hch⟩ := convertChar_operator charSigned hb h (by omega)
      obtain ⟨r, v, hrest, hr⟩ := ih (t := ⟨t.i_new + 2, 0, ch⟩) hch (by simp; omega)
      refine ⟨r, [x, b] ++ v, ?_, ?_⟩
      · rw [List.foldlM_cons, hconvert]
        exact hrest
      · rw [← List.append_assoc]
        exact hr
    · rw [List.countP_cons_of_neg (by simpa using hb)] at hroom
      obtain ⟨tmp, hconvert⟩ := convertChar_other charSigned hb t
      obtain ⟨r, v, hrest, hr⟩ := ih (t := { t with tmp := tmp }) h hroom
      refine ⟨r, v, ?_, hr⟩
      rw [List.foldlM_cons, hconvert]
      exact hrest

theorem convert_first {keys more : List Byte} (hkeys : ∀ key ∈ keys, IsRowKey key) (ch : Vector Byte 20)
    (hroom : 2 * ((splitRow keys).2.length + 1) + converted more ≤ 20) :
    ∃ r, ((keys ++ byte '#' :: more).map change_operator).foldlM (convertChar charSigned) ⟨0, 0, ch⟩ = some r ∧
      (calculator charSigned r.c_new.toList).map Prod.fst =
        (parse (splitRow keys).1 (splitRow keys).2).evaluate (fun w => carried charSigned (digitsValue w)) int32 := by
  obtain ⟨hsplit, hw, hrest⟩ := splitRow_keys hkeys
  have hchanged := row_changed hw hrest
  rw [← hsplit] at hchanged
  generalize splitRow keys = row at hroom hw hrest hchanged ⊢
  obtain ⟨w, rest⟩ := row
  change 2 * (rest.length + 1) + converted more ≤ 20 at hroom
  have hempty : Begins ch 0 [] := ⟨rfl, List.nil_prefix⟩
  obtain ⟨i, ch', hrow, hch⟩ := convert_row charSigned hw hrest hempty (by simp; omega)
  rw [List.nil_append] at hch
  have hlength : (rowText (storedAs w) (rest.map fun q => (q.1, storedAs q.2)) ++ [byte '=']).length =
      2 * (rest.length + 1) := by
    rw [List.length_append, rowText_length, List.length_map, List.length_singleton]
    omega
  obtain ⟨r, v, hmore, hr⟩ := convert_keeps charSigned (t := ⟨i, 0, ch'⟩) hch (by rw [hlength]; exact hroom)
  refine ⟨r, ?_, ?_⟩
  · have htext : (keys ++ byte '#' :: more).map change_operator =
        (w ++ ((rest.flatMap fun q => operatorChar q.1 :: q.2) ++ [byte '='])) ++ more.map change_operator := by
      have hequals : change_operator (byte '#') = byte '=' := by decide
      rw [List.map_append, hchanged, List.map_cons, hequals]
      simp
    rw [htext, List.foldlM_append, hrow]
    exact hmore
  · obtain ⟨behind, hbehind⟩ := hr.2
    have hlist : r.c_new.toList =
        rowText (storedAs w) (rest.map fun q => (q.1, storedAs q.2)) ++ byte '=' :: (v ++ behind) := by
      rw [← hbehind]
      simp
    obtain ⟨hfirst, hrow⟩ := parse_row w rest
    have hcalc := calculator_sum charSigned ((parse w rest).map storedAs) (v ++ behind)
    rw [((parse w rest).map_row storedAs).1, ((parse w rest).map_row storedAs).2, hfirst, hrow,
      Sum.evaluate_map] at hcalc
    rw [hlist, hcalc, Option.map_map]
    exact Option.map_id'

theorem converted_append (keys more : List Byte) : converted (keys ++ more) = converted keys + converted more := by
  rw [converted, List.map_append, List.countP_append, Nat.mul_add]
  rfl

theorem splitRow_converted {keys : List Byte} (hkeys : ∀ key ∈ keys, IsRowKey key) :
    2 * (splitRow keys).2.length ≤ converted keys := by
  induction keys with
  | nil => exact Nat.zero_le _
  | cons key keys ih =>
    have htail := ih fun k hk => hkeys k (by simp [hk])
    have hcons := converted_append [key] keys
    rw [List.singleton_append] at hcons
    rw [hcons]
    rcases hkeys key (by simp) with hdigit | ⟨o, rfl⟩
    · simp only [splitRow, keyOperator_digit hdigit]
      omega
    · have hone : converted [operatorKey o] = 2 := by cases o <;> decide
      simp only [splitRow, keyOperator_key, List.length_cons]
      omega

theorem pound_split {keys : List Byte} (h : byte '#' ∈ keys) :
    ∃ more, keys = firstKeys keys ++ byte '#' :: more := by
  have hall : firstKeys keys ++ keys.dropWhile (fun key => key != byte '#') = keys := List.takeWhile_append_dropWhile
  cases hdrop : keys.dropWhile (fun key => key != byte '#') with
  | nil =>
    have hno := List.dropWhile_eq_nil_iff.mp hdrop (byte '#') h
    simp at hno
  | cons key more =>
    have hhead := List.head_dropWhile_not (fun key => key != byte '#') (l := keys) (by simp [hdrop])
    have hkey : key = byte '#' := by simpa [hdrop] using hhead
    refine ⟨more, ?_⟩
    rw [← hkey, ← hdrop, hall]

theorem firstKeys_ordinary {keys : List Byte} (hkeys : ∀ key ∈ keys, IsRowKey key ∨ key = byte '#') :
    ∀ key ∈ firstKeys keys, IsRowKey key := by
  intro key hkey
  have hpound := List.mem_takeWhile_imp hkey
  exact (hkeys key ((List.takeWhile_prefix _).subset hkey)).resolve_right (by simpa using hpound)

theorem press_pound {p : Pad} {keys : List Byte} (h : Begins p.c p.index_c (keys.map change_operator))
    (hkeys : ∀ key ∈ keys, IsRowKey key ∨ key = byte '#') (hroom : keys.length < 20)
    (hnew : converted (keys ++ [byte '#']) ≤ 20) :
    (press charSigned p (byte '#')).map Pad.ans =
      (firstSum (keys ++ [byte '#'])).evaluate (fun w => carried charSigned (digitsValue w)) int32 := by
  have hequals : change_operator (byte '#') = byte '=' := by decide
  obtain ⟨c, hstore, hc⟩ := store_begins h (by simpa using hroom) (byte '=')
  have hread : c.toList.take (p.index_c + 1) = (keys ++ [byte '#']).map change_operator := by
    rw [hc.1, ← List.prefix_iff_eq_take.mp hc.2, List.map_append, List.map_singleton, hequals]
  have hordinary : ∀ key ∈ firstKeys (keys ++ [byte '#']), IsRowKey key := by
    apply firstKeys_ordinary
    intro key hkey
    rcases List.mem_append.mp hkey with hkey | hkey
    · exact hkeys key hkey
    · exact Or.inr (List.mem_singleton.mp hkey)
  have hpounds : byte '#' ∈ keys ++ [byte '#'] := by simp
  obtain ⟨more, hmore⟩ := pound_split hpounds
  have hcount : 2 * ((splitRow (firstKeys (keys ++ [byte '#']))).2.length + 1) + converted more ≤ 20 := by
    have hpound : converted (byte '#' :: more) = 2 + converted more := by
      have hone : converted [byte '#'] = 2 := by decide
      rw [← List.singleton_append, converted_append, hone]
    have hfirst := splitRow_converted hordinary
    rw [hmore, converted_append, hpound] at hnew
    omega
  obtain ⟨r, hconvert, hcalc⟩ := convert_first charSigned hordinary p.c_new hcount
  rw [← hmore] at hconvert
  rw [firstSum, ← hcalc]
  simp only [press, convert, hequals, hstore, ↓reduceIte, hread, hconvert, Option.map_map]
  rfl

theorem InRange.evaluate {s : Sum Text} (h : InRange s) :
    s.evaluate (fun w => carried charSigned (digitsValue w)) int32 = some (s.value textValue) := by
  have hlargest : (79 : ℤ) ≤ largestOperand charSigned := by
    unfold largestOperand
    split_ifs <;> omega
  have hcarried : ∀ w ∈ s.operands, carried charSigned (digitsValue w) = textValue w := by
    intro w hw
    have hsmall := h.operand w hw
    exact (carried_eq_iff charSigned (by omega)).mpr (by omega)
  rw [Sum.evaluate_congr int32 hcarried]
  exact Sum.evaluate_exact (fun n => int32_of_isInt32) h.divisors h.fits

theorem rowKeys_isRowKey {s : Sum Text} (hs : ∀ w ∈ s.operands, IsOperand w) : ∀ key ∈ rowKeys s, IsRowKey key := by
  intro key hkey
  rcases List.mem_append.mp hkey with hkey | hkey
  · exact Or.inl ((hs _ (List.mem_cons_self ..)).2 key hkey)
  · obtain ⟨q, hq, hkey⟩ := List.mem_flatMap.mp hkey
    rcases List.mem_cons.mp hkey with rfl | hkey
    · exact Or.inr ⟨q.1, rfl⟩
    · exact Or.inl ((rest_isOperand hs q hq).2 key hkey)

theorem firstKeys_append {keys : List Byte} (h : byte '#' ∈ keys) (more : List Byte) :
    firstKeys (keys ++ more) = firstKeys keys := by
  obtain ⟨rest, hrest⟩ := pound_split h
  have hfirst : ∀ key ∈ firstKeys keys, (key != byte '#') = true := by
    intro key hkey
    exact List.mem_takeWhile_imp (p := fun key => key != byte '#') hkey
  have hall : keys ++ more = firstKeys keys ++ byte '#' :: (rest ++ more) := by
    nth_rewrite 1 [hrest]
    simp
  calc firstKeys (keys ++ more) = (firstKeys keys ++ byte '#' :: (rest ++ more)).takeWhile _ := by rw [hall]; rfl
    _ = firstKeys keys := by
      rw [List.takeWhile_append_of_pos hfirst]
      simp

theorem firstSum_keysOf {s : Sum Text} (hs : ∀ w ∈ s.operands, IsOperand w) : firstSum (keysOf s) = s := by
  have hordinary := rowKeys_ordinary hs
  have hfirst : firstKeys (keysOf s) = rowKeys s := by
    rw [keysOf_eq, firstKeys, List.takeWhile_append_of_pos fun key hkey => by simpa using (hordinary key hkey).1]
    simp
  have hsplit := splitRow_row (hs _ (List.mem_cons_self ..)).2 fun q hq => (rest_isOperand hs q hq).2
  rw [firstSum, hfirst, rowKeys, hsplit]
  exact parse_eq s

theorem since_closed {pre : List Byte} (h : Closed pre) (hpound : byte '#' ∉ since pre) : since pre = [] := by
  cases pre using List.reverseRecOn with
  | nil => rfl
  | append_singleton pre key =>
    rw [since_snoc] at hpound ⊢
    rcases h key (by simp) with rfl | rfl
    · rw [if_neg (by decide)] at hpound
      exact absurd (by simp) hpound
    · rw [if_pos rfl]

theorem enter_first {p₀ p : Pad} {pre : List Byte} (hpre : ∀ key ∈ pre, key ∈ KeyASCIICode)
    (henter : enter charSigned p₀.cleared pre = some p) {s : Sum Text} (hs : ∀ w ∈ s.operands, IsOperand w)
    (hc : (since pre ++ keysOf s).length ≤ 20) (hnew : converted (since pre ++ keysOf s) ≤ 20) :
    (enter charSigned p (keysOf s)).map Pad.ans =
      (firstSum (since pre ++ keysOf s)).evaluate (fun w => carried charSigned (digitsValue w)) int32 := by
  have harray := enter_array charSigned henter
  rw [keysOf_eq, List.length_append, List.length_append, List.length_singleton] at hc
  rw [keysOf_eq, ← List.append_assoc] at hnew ⊢
  obtain ⟨p₁, hrow, h₁⟩ := enter_begins charSigned (rowKeys_ordinary hs) harray (by simp; omega)
  rw [← List.map_append] at h₁
  have hkeys : ∀ key ∈ since pre ++ rowKeys s, IsRowKey key ∨ key = byte '#' := by
    intro key hkey
    rcases List.mem_append.mp hkey with hkey | hkey
    · have hsuffix : since pre <:+ pre := List.rtakeWhile_suffix _ _
      have hstar := List.mem_rtakeWhile_imp hkey
      by_cases hpound : key = byte '#'
      · exact Or.inr hpound
      · exact Or.inl (isRowKey_of_mem (hpre key (hsuffix.subset hkey)) hpound (by simpa using hstar))
    · exact Or.inl (rowKeys_isRowKey hs key hkey)
  have hpress := press_pound charSigned h₁ hkeys (by simp; omega) hnew
  rw [← hpress, enter, List.foldlM_append]
  rw [enter] at hrow
  rw [hrow]
  simp

theorem session_answer {p₀ p : Pad} {pre : List Byte} {s : Sum Text} (hpre : ∀ key ∈ pre, key ∈ KeyASCIICode)
    (hclosed : Closed pre) (henter : enter charSigned p₀.cleared pre = some p)
    (hs : ∀ w ∈ s.operands, IsOperand w) (hc : (since pre ++ keysOf s).length ≤ 20)
    (hnew : converted (since pre ++ keysOf s) ≤ 20) (hrange : InRange s) (hfirst : InRange (firstSum (since pre))) :
    ∃ p', enter charSigned p (keysOf s) = some p' ∧ (p'.ans = s.value textValue ↔
      byte '#' ∉ since pre ∨ (firstSum (since pre)).value textValue = s.value textValue) := by
  have henters := enter_first charSigned hpre henter hs hc hnew
  by_cases hpound : byte '#' ∈ since pre
  · rw [firstSum, firstKeys_append hpound] at henters
    rw [← firstSum, hfirst.evaluate, Option.map_eq_some_iff] at henters
    obtain ⟨p', hp', hans⟩ := henters
    refine ⟨p', hp', ?_⟩
    rw [hans]
    simp [hpound]
  · rw [since_closed hclosed hpound, List.nil_append, firstSum_keysOf hs, hrange.evaluate,
      Option.map_eq_some_iff] at henters
    obtain ⟨p', hp', hans⟩ := henters
    refine ⟨p', hp', ?_⟩
    simp [hans, hpound]

set_option maxRecDepth 4000 in
theorem session_answer_cleared :
    ∃ p p', enter true clearPad (lit "12C3#*") = some p ∧
      enter true p (keysOf (parse (lit "7") [(.plus, lit "8")])) = some p' ∧
      (p'.ans = 15 ↔ byte '#' ∉ since (lit "12C3#*") ∨ (firstSum (since (lit "12C3#*"))).value textValue = 15) := by
  have hvalue : (parse (lit "7") [(.plus, lit "8")]).value textValue = 15 := by decide
  have hrange : InRange (parse (lit "7") [(.plus, lit "8")]) := ⟨by decide, by decide, by decide⟩
  have hfirst : InRange (firstSum (since (lit "12C3#*"))) := ⟨by decide, by decide, by decide⟩
  have hsome : (enter true clearPad (lit "12C3#*")).isSome = true := by decide
  obtain ⟨p, hp⟩ := Option.isSome_iff_exists.mp hsome
  obtain ⟨p', hp', hans⟩ := session_answer true (by decide) (by decide) hp (by decide) (by decide) (by decide) hrange
    hfirst
  rw [hvalue] at hans
  exact ⟨p, p', hp, hp', hans⟩

theorem session_answer_fails :
    InRange (.product (.operand (lit "3"))) ∧ InRange (.product (.operand (lit "4"))) ∧
      keysOf (.product (.operand (lit "4"))) = lit "4#" ∧
      (enter true clearPad (lit "3#4#")).map Pad.ans = some 3 ∧
      (enter false clearPad (lit "3#4#")).map Pad.ans = some 3 ∧
      (Sum.product (.operand (lit "4"))).value textValue = 4 :=
  ⟨⟨by decide, by decide, by decide⟩, ⟨by decide, by decide, by decide⟩, by decide, by decide, by decide, by decide⟩

end EmbeddedOS.Lab3
