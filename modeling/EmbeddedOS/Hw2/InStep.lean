import EmbeddedOS.Hw2.Client
import EmbeddedOS.Hw3.Records
import EmbeddedOS.Hw3.Requests

namespace EmbeddedOS.Hw2

open CText Runs Hw3

theorem buy_fail_length : buy_fail.length = 12 := by decide

theorem invalid_length : invalid.length = 24 := by decide

theorem disinfect_length : disinfect.length = 32 := by decide

theorem putting_mask_length : putting_mask.length = 28 := by decide

theorem thankyou_length : thankyou.length = 28 := by decide

theorem cstring_disinfect : cstring disinfect = disinfect := by decide

def Plain (t : Text) : Prop := ∀ b ∈ t, b = 32 ∨ b = 45 ∨ isdigit b = true

def Sendable (t : Text) : Prop := t ≠ [] ∧ t.length ≤ 30 ∧ 0 ∉ t

instance (t : Text) : Decidable (Plain t) := inferInstanceAs (Decidable (∀ _ ∈ _, _))

instance (t : Text) : Decidable (Sendable t) := inferInstanceAs (Decidable (_ ∧ _))

theorem maskTexts_plain : ∀ t ∈ maskTexts, Plain t := by simp [maskTexts, Plain, lit, isdigit]

theorem login_sendable : ∀ i : Fin 30, Sendable (lit "login " ++ id.getD i []) := by decide

theorem buy_nul_free : 0 ∉ lit "buy" := by decide

theorem xxx_starts : startsWith (lit "XXX") (lit "XXX") = true := by decide

theorem xxx_name : IsName 20 (lit "XXX") := by simp [IsName, IsWord, lit, isspace]

def Command.kind : Command → Kind
  | .display => .display
  | .login _ => .login
  | .logout => .logout
  | .buy _ => .buy
  | .statics => .statics
  | .exit => .invalid

theorem sent_text (stores : List Store) {c : Command} (h : c.kind ≠ .buy) :
    ∃ t, c.text stores = some t ∧ Sendable t ∧ ∀ behind, Hw3.kind (t ++ behind) = c.kind := by
  cases c with
  | buy d => exact absurd rfl h
  | display => exact ⟨lit "show", rfl, by decide, fun _ => rfl⟩
  | login i => exact ⟨_, rfl, login_sendable i, fun _ => rfl⟩
  | logout => exact ⟨lit "logout", rfl, by decide, fun _ => rfl⟩
  | statics => exact ⟨lit "statics", rfl, by decide, fun _ => rfl⟩
  | exit => exact ⟨lit "exit", rfl, by decide, fun _ => rfl⟩

theorem keyword_head {k : Kind} (hk : k ≠ .invalid) :
    ∃ x w, keyword k = x :: w ∧ ¬ (x = 32 ∨ x = 45 ∨ isdigit x = true) := by
  cases k with
  | invalid => exact absurd rfl hk
  | _ => exact ⟨_, _, rfl, by decide⟩

theorem kind_plain {b : Byte} (hb : b = 32 ∨ b = 45 ∨ isdigit b = true) (t : Text) : kind (b :: t) = .invalid := by
  by_contra hk
  obtain ⟨u, hu⟩ := keyword_kind hk
  obtain ⟨x, w, hx, hplain⟩ := keyword_head hk
  rw [hx, List.cons_append] at hu
  obtain ⟨rfl, -⟩ := List.cons.inj hu
  exact hplain hb

theorem plain_decimal (n : ℤ) : Plain (decimal n) := fun _ hb => Or.inr (mem_decimal hb)

theorem Plain.append {t u : Text} (ht : Plain t) (hu : Plain u) : Plain (t ++ 32 :: u) := by
  intro b hb
  rw [List.mem_append, List.mem_cons] at hb
  rcases hb with hb | rfl | hb
  · exact ht b hb
  · exact Or.inl rfl
  · exact hu b hb

theorem plain_masks (d : Draws) : Plain (masks d) := by
  unfold masks
  split
  · rename_i t h
    exact maskTexts_plain t (List.mem_of_getElem? h)
  · exact (plain_decimal _).append ((plain_decimal _).append (plain_decimal _))

theorem Plain.nul_free {t : Text} (h : Plain t) : 0 ∉ t := by
  intro hm
  have h0 := h 0 hm
  revert h0
  decide

def Listed (v : Inventory) (name : Text) : Prop :=
  name = lit "XXX" ∨ ∃ i : ℕ, i < v.num ∧ name = (v.data (100 * i)).type

theorem mydata_name (v : Inventory) (n : ℕ) : Listed v (((mydata v)[n]?.map Store.name).getD (lit "XXX")) := by
  cases h : (mydata v)[n]? with
  | none => exact Or.inl rfl
  | some store =>
    obtain ⟨i, hi, rfl⟩ := List.mem_map.mp (List.mem_of_getElem? h)
    exact Or.inr ⟨i, List.mem_range.mp hi, rfl⟩

theorem buy_eq_some {v : Inventory} {d : Draws} {t : Text} (h : buy (mydata v) d = some t) :
    ∃ name city, Listed v name ∧ t = lit "buy" ++ 32 :: (name ++ 32 :: (decimal city ++ 32 :: masks d)) ∧
      ((∀ i : ℕ, i < v.num → 0 ≤ (v.data (100 * i)).type_num) → 0 ≤ city ∧ city ≤ 101) := by
  simp only [buy] at h
  split at h
  · cases h
  · rename_i store hstore
    obtain ⟨i, hi, rfl⟩ := List.mem_map.mp (List.mem_of_getElem? hstore)
    have hle := v.type_num_le i (List.mem_range.mp hi)
    have hid : 0 ≤ (d.city : ℤ).tmod ((v.data (100 * i)).type_num + 1) :=
      Int.tmod_nonneg _ (Int.natCast_nonneg _)
    simp only at h
    split_ifs at h with hz hc
    · rw [Option.some.injEq] at h
      exact ⟨_, _, mydata_name v _, h.symm, fun _ => by omega⟩
    · rw [Option.some.injEq] at h
      refine ⟨_, _, mydata_name v _, h.symm, fun hcount => ?_⟩
      have hnum := hcount i (List.mem_range.mp hi)
      omega

theorem plain_request (city : ℤ) (d : Draws) : Plain (decimal city ++ 32 :: masks d) :=
  (plain_decimal city).append (plain_masks d)

theorem city_length {city : ℤ} (h : 0 ≤ city ∧ city ≤ 101) : (decimal city).length ≤ 3 := by
  obtain ⟨h0, h101⟩ := h
  interval_cases city <;> decide

theorem Listed.isName {v : Inventory} {name : Text} (h : Listed v name) : IsName 20 name := by
  rcases h with rfl | ⟨i, hi, rfl⟩
  · exact xxx_name
  · exact v.type_name i hi

theorem statics_short (g : Globals) (c : Conn) : (server_statics g c).writes.flatten.length ≤ 9 := by
  simp only [server_statics, snprintf, List.flatten_cons, List.flatten_nil, List.append_nil, List.length_take]
  omega

theorem login_short (l : Locals) (g : Globals) (c : Conn) (buf : Text) :
    (server_login l g c buf).writes.flatten.length ≤ 18 := by
  have hwrites : (server_login l g c buf).writes = [login_succ] ∨ (server_login l g c buf).writes = [login_fail] := by
    simp only [server_login]
    split_ifs <;> simp
  rcases hwrites with h | h <;> rw [h] <;> decide

theorem logout_short (g : Globals) (c : Conn) : (server_logout g c).writes.flatten.length ≤ 19 := by
  have hwrites : (server_logout g c).writes = [logout_succ] ∨ (server_logout g c).writes = [logout_fail] := by
    simp only [server_logout]
    split_ifs <;> simp
  rcases hwrites with h | h <;> rw [h] <;> decide

theorem reply_short {buf : Text} (h : kind buf ≠ .display ∧ kind buf ≠ .buy) (l : Locals)
    (beyond : ℕ → ID) (g : Globals) (c : Conn) :
    (mask_server l beyond g c buf).writes.flatten.length ≤ 1024 := by
  rw [mask_server_eq]
  cases hk : kind buf with
  | display => exact absurd hk h.1
  | buy => exact absurd hk h.2
  | login => exact (login_short l g c buf).trans (by norm_num)
  | logout => exact (logout_short g c).trans (by norm_num)
  | statics => exact (statics_short g c).trans (by norm_num)
  | invalid =>
    have hlen : (server_invalid g c).writes.flatten.length = 24 := invalid_length
    exact hlen.trans_le (by norm_num)

theorem reply_display {buf : Text} (h : kind buf = .display) (l : Locals) (beyond : ℕ → ID) (g : Globals)
    (c : Conn) : (mask_server l beyond g c buf).writes = [show_info g] := by
  rw [mask_server_eq, h]
  rfl

theorem reply_invalid {buf : Text} (h : kind buf = .invalid) (l : Locals) (beyond : ℕ → ID) (g : Globals)
    (c : Conn) : (mask_server l beyond g c buf).writes = [invalid] := by
  rw [mask_server_eq, h]
  rfl

theorem reply_buy {buf : Text} (h : kind buf = .buy) (l : Locals) (beyond : ℕ → ID) (g : Globals) (c : Conn) :
    (mask_server l beyond g c buf).writes = [buy_fail] ∨ (mask_server l beyond g c buf).writes = saleWrites ∨
      (mask_server l beyond g c buf).writes = [] ∧ Unanswered l beyond g c buf := by
  rw [mask_server_eq, h]
  simp only [server_buy_eq]
  split_ifs with hd
  · cases hv : verdict g (scanRequest l buf) with
    | refuse => exact Or.inl rfl
    | unknown => exact Or.inr (Or.inr ⟨rfl, h, hd, hv⟩)
    | sell i => exact Or.inr (Or.inl rfl)
  · exact Or.inl rfl

theorem scanRequest_type (l : Locals) {name city : Text} (h : IsWord name) (hc : IsWord city)
    (hlen : city.length < 17) (rest : Text) :
    (scanRequest l (lit "buy" ++ 32 :: (name ++ 32 :: (city ++ 32 :: rest)))).type = name := by
  have hscan : ∃ fs, sscanf buyFormat (lit "buy" ++ 32 :: (name ++ 32 :: (city ++ 32 :: rest))) =
      .word (lit "buy") :: .word name :: .word city :: fs := by
    rw [buyFormat, sscanf_first (.word isWord_buy) (stops_blank _), sscanf_next (.word h) (stops_blank _),
      sscanf_next (.word hc) (stops_blank _)]
    exact ⟨_, rfl⟩
  obtain ⟨fs, hfs⟩ := hscan
  have htype : (scanRequest l (lit "buy" ++ 32 :: (name ++ 32 :: (city ++ 32 :: rest)))).type =
      spillString 17 city name := by
    simp [scanRequest, hfs, wordAt]
  rw [htype, spillString_of_lt hlen]

theorem collect_read {c : Command} (h : c.kind ≠ .buy) (unread : Text) :
    (c.collect unread).2 = [] ↔ unread.length ≤ 1024 := by
  cases c with
  | buy d => exact absurd rfl h
  | _ => exact List.drop_eq_nil_iff

theorem readBuy_sale (u : Text) : (readBuy (saleWrites.flatten ++ u)).2 = u := by
  have hall : saleWrites.flatten ++ u = disinfect ++ (putting_mask ++ (thankyou ++ u)) := by simp [saleWrites]
  have htake : (disinfect ++ (putting_mask ++ (thankyou ++ u))).take 32 = disinfect :=
    List.take_left' disinfect_length
  have hdrop : (disinfect ++ (putting_mask ++ (thankyou ++ u))).drop 32 = putting_mask ++ (thankyou ++ u) :=
    List.drop_left' disinfect_length
  have hputting : (putting_mask ++ (thankyou ++ u)).drop 28 = thankyou ++ u := List.drop_left' putting_mask_length
  have hthankyou : (thankyou ++ u).drop 28 = u := List.drop_left' thankyou_length
  simp only [readBuy, hall, htake, hdrop, cstring_disinfect, ↓reduceIte, hputting, hthankyou]

theorem readBuy_fail (u : Text) : (readBuy (buy_fail ++ u)).2 = u.drop 20 := by
  obtain ⟨w, hw⟩ : ∃ w, (buy_fail ++ u).take 32 = 66 :: w := ⟨_, rfl⟩
  have hother : cstring ((buy_fail ++ u).take 32) ≠ disinfect := by
    rw [hw]
    intro h
    have hhead : some 66 = disinfect.head? := congrArg List.head? h
    exact absurd hhead (by decide)
  have hdrop : (buy_fail ++ u).drop 32 = u.drop 20 := by
    rw [List.drop_append, buy_fail_length, List.drop_eq_nil_of_le (by rw [buy_fail_length]; norm_num)]
    rfl
  simp only [readBuy, hother, ↓reduceIte, hdrop]

theorem readBuy_none : (readBuy []).2 = [] := rfl

theorem readBuy_invalid (u : Text) : (readBuy (invalid ++ u)).2 = u.drop 8 := by
  obtain ⟨w, hw⟩ : ∃ w, (invalid ++ u).take 32 = 73 :: w := ⟨_, rfl⟩
  have hother : cstring ((invalid ++ u).take 32) ≠ disinfect := by
    rw [hw]
    intro h
    have hhead : some 73 = disinfect.head? := congrArg List.head? h
    exact absurd hhead (by decide)
  have hdrop : (invalid ++ u).drop 32 = u.drop 8 := by
    rw [List.drop_append, invalid_length, List.drop_eq_nil_of_le (by rw [invalid_length]; norm_num)]
    rfl
  simp only [readBuy, hother, ↓reduceIte, hdrop]

theorem drop_invalid_ne_nil {n : ℕ} (hn : n < 24) (u : Text) : (invalid ++ u).drop n ≠ [] := by
  rw [Ne, List.drop_eq_nil_iff, List.length_append, invalid_length]
  omega

theorem reads_short {t : Text} (h : Sendable t) : reads t.length t = [t] := by
  obtain ⟨hne, hle, -⟩ := h
  obtain ⟨n, hn⟩ := Nat.exists_eq_succ_of_ne_zero (List.length_pos_of_ne_nil hne).ne'
  rw [hn, reads, if_neg hne, List.take_of_length_le hle, List.drop_eq_nil_of_le hle]
  cases n <;> simp [reads]

theorem reads_long {t : Text} (h : 30 < t.length) : ∃ n, (60 < t.length → 0 < n) ∧
    reads t.length t = t.take 30 :: (t.drop 30).take 30 :: reads n (t.drop 60) := by
  obtain ⟨n, hn⟩ : ∃ n, t.length = n + 2 := ⟨t.length - 2, by omega⟩
  have hne : t ≠ [] := List.ne_nil_of_length_pos (by omega)
  have hne' : t.drop 30 ≠ [] := by
    rw [Ne, List.drop_eq_nil_iff]
    omega
  refine ⟨n, by omega, ?_⟩
  rw [hn, reads, if_neg hne, reads, if_neg hne', List.drop_drop]

theorem handle_unread (k : ℕ) (v : Visit) {bytes : Text} (h0 : 0 ∉ bytes) (l : Link) :
    ∃ behind, (l.handle k v bytes).unread = l.unread ++
      (mask_server v.locals v.beyond (l.visited v).globals ((l.visited v).conns k) (bytes ++ behind)).writes.flatten :=
  ⟨cstring (l.buf.drop bytes.length), by rw [Link.handle, cstring_readInto h0]; rfl⟩

theorem handleAll_unread (k : ℕ) (vs : ℕ → Visit) (chunks : List Text) (l : Link) :
    ∃ u, (l.handleAll k vs chunks).unread = l.unread ++ u := by
  induction chunks generalizing vs l with
  | nil => exact ⟨[], by simp [Link.handleAll]⟩
  | cons bytes rest ih =>
    obtain ⟨u, hu⟩ := ih (fun n => vs (n + 1)) (l.handle k (vs 0) bytes)
    rw [Link.handleAll, hu, Link.handle, List.append_assoc]
    exact ⟨_, rfl⟩

theorem handleAll_plain (k : ℕ) (vs : ℕ → Visit) {n : ℕ} {t : Text} (ht : Plain t) (hn : t ≠ [] → 0 < n) (l : Link) :
    ∃ u, (l.handleAll k vs (reads n t)).unread = l.unread ++ u ∧ (t = [] → u = []) ∧ (t ≠ [] → 24 ≤ u.length) := by
  cases n with
  | zero =>
    have hnil : t = [] := by
      by_contra hne
      exact absurd (hn hne) (lt_irrefl 0)
    exact ⟨[], by simp [reads, Link.handleAll], fun _ => rfl, fun hne => absurd hnil hne⟩
  | succ n =>
    by_cases hne : t = []
    · exact ⟨[], by simp [reads, hne, Link.handleAll], fun _ => rfl, fun h => absurd hne h⟩
    · obtain ⟨b, w, rfl⟩ := List.exists_cons_of_ne_nil hne
      have hsub : ∀ x ∈ (b :: w).take 30, x ∈ b :: w := fun x hx => List.mem_of_mem_take hx
      have h0 : 0 ∉ b :: w.take 29 := fun hx => ht.nul_free (hsub 0 hx)
      obtain ⟨behind, hb⟩ := handle_unread k (vs 0) h0 l
      rw [List.cons_append, reply_invalid (kind_plain (ht b (by simp)) _), List.flatten_singleton] at hb
      obtain ⟨u, hu⟩ := handleAll_unread k (fun n => vs (n + 1)) (reads n ((b :: w).drop 30))
        (l.handle k (vs 0) (b :: w.take 29))
      refine ⟨invalid ++ u, ?_, fun h => absurd h hne, fun _ => ?_⟩
      · rw [reads, if_neg hne, Link.handleAll, List.take_succ_cons, hu, hb, List.append_assoc]
      · rw [List.length_append, invalid_length]
        omega

def showBytes (g : Globals) : ℕ := 5 + ((List.range g.num).map fun i =>
  (g.row i 0).type.length + 1 + ((cities g i).map fun r => min 29 ((cityText r).length + 1)).sum).sum

theorem show_info_length (g : Globals) : (show_info g).length = showBytes g := by
  have hhead : (lit "show\n").length = 5 := by decide
  have hrow (r : Inv) : (snprintf 30 (cityText r ++ [newline])).length = min 29 ((cityText r).length + 1) := by
    simp [snprintf]
  rw [show_info, showBytes, List.length_append, hhead, List.length_flatMap]
  congr 2
  apply List.map_congr_left
  intro i hi
  simp only [List.length_append, List.length_cons, List.length_flatMap, hrow]
  omega

/-- The server does not answer the first piece of a text. -/
def Link.Ignores (k : ℕ) (v : Visit) (t : Text) (l : Link) : Prop :=
  Unanswered v.locals v.beyond (l.visited v).globals ((l.visited v).conns k) (cstring (readInto l.buf (t.take 30)))

/-- A `show` is asked when the reply has at most 1024 bytes, and a `buy` is sent in at most 30, or
the server ignores the first of two pieces. -/
def InTime (v : Inventory) (k : ℕ) (l : Link) (x : Exchange) : Prop :=
  match x.command with
  | .display => showBytes (l.visited (x.visits 0)).globals ≤ 1024
  | .buy d => ∀ t ∈ buy (mydata v) d, t.length ≤ 30 ∨ t.length ≤ 60 ∧ l.Ignores k (x.visits 0) t
  | _ => True

theorem exchange_none {k : ℕ} {stores : List Store} {x : Exchange} (h : x.command.text stores = none) (l : Link) :
    ((exchanges k stores).step l x).1 = l := by
  simp only [exchanges, h]

theorem exchange_unread {k : ℕ} {stores : List Store} {x : Exchange} {t : Text} (h : x.command.text stores = some t)
    (l : Link) : ((exchanges k stores).step l x).1.unread =
      (x.command.collect (l.handleAll k x.visits (reads t.length t)).unread).2 := by
  simp only [exchanges, h]

theorem exchange_server {k : ℕ} {stores : List Store} {x : Exchange} {t : Text} (h : x.command.text stores = some t)
    (l : Link) : ((exchanges k stores).step l x).1.server = (l.handleAll k x.visits (reads t.length t)).server := by
  simp only [exchanges, h]

theorem exchange_short {k : ℕ} {stores : List Store} {x : Exchange} {t : Text} (h : x.command.text stores = some t)
    (ht : Sendable t) {l : Link} (hl : l.unread = []) :
    ∃ behind, ((exchanges k stores).step l x).1.unread =
      (x.command.collect (mask_server (x.visits 0).locals (x.visits 0).beyond (l.visited (x.visits 0)).globals
        ((l.visited (x.visits 0)).conns k) (t ++ behind)).writes.flatten).2 := by
  obtain ⟨behind, hb⟩ := handle_unread k (x.visits 0) ht.2.2 l
  refine ⟨behind, ?_⟩
  rw [exchange_unread h, reads_short ht, Link.handleAll, Link.handleAll, hb, hl, List.nil_append]

theorem exchange_display {k : ℕ} {stores : List Store} {x : Exchange} (hx : x.command.kind = .display) {l : Link}
    (hl : l.unread = []) : ((exchanges k stores).step l x).1.unread = [] ↔
      showBytes (l.visited (x.visits 0)).globals ≤ 1024 := by
  have hbuy : x.command.kind ≠ .buy := by simp [hx]
  obtain ⟨t, htext, hsend, hkind⟩ := sent_text stores hbuy
  obtain ⟨behind, hb⟩ := exchange_short (k := k) htext hsend hl
  rw [hb, collect_read hbuy, reply_display ((hkind behind).trans hx), List.flatten_singleton, show_info_length]

theorem exchange_reply {k : ℕ} {stores : List Store} {x : Exchange}
    (hx : x.command.kind ≠ .display ∧ x.command.kind ≠ .buy) {l : Link} (hl : l.unread = []) :
    ((exchanges k stores).step l x).1.unread = [] := by
  obtain ⟨t, htext, hsend, hkind⟩ := sent_text stores hx.2
  obtain ⟨behind, hb⟩ := exchange_short (k := k) htext hsend hl
  rw [hb, collect_read hx.2]
  apply reply_short
  rw [hkind behind]
  exact hx

def Types (v : Inventory) (s : Server) : Prop :=
  s.globals.num = v.num ∧ ∀ i : ℕ, (s.globals.row i 0).type = (v.data (100 * i)).type

theorem verdict_known {v : Inventory} {s : Server} (hs : Types v s) {l : Locals} {name city : Text}
    (hname : Listed v name) (hc : IsWord city) (hlen : city.length < 17) (rest : Text) :
    verdict s.globals (scanRequest l (lit "buy" ++ 32 :: (name ++ 32 :: (city ++ 32 :: rest)))) ≠ .unknown := by
  intro hv
  obtain ⟨hx, -, hfind⟩ := verdict_eq_unknown.mp hv
  rw [scanRequest_type l hname.isName.1 hc hlen rest] at hx hfind
  rcases hname with rfl | ⟨i, hi, rfl⟩
  · rw [xxx_starts] at hx
    cases hx
  · rw [findType_eq_none] at hfind
    exact hfind i (by rw [hs.1]; exact hi) (hs.2 i).symm

theorem nul_free_buy {v : Inventory} {name rest : Text} (hname : Listed v name) (hrest : Plain rest) :
    0 ∉ lit "buy" ++ 32 :: (name ++ 32 :: rest) := by
  have hblank : (0 : Byte) ≠ 32 := by decide
  simp only [List.mem_append, List.mem_cons, not_or]
  exact ⟨buy_nul_free, hblank, hname.isName.2.1, hblank, hrest.nul_free⟩

theorem exchange_buy_short {v : Inventory} {k : ℕ} {x : Exchange} {d : Draws} (hx : x.command = .buy d) {t : Text}
    (h : buy (mydata v) d = some t) (hle : t.length ≤ 30) {l : Link} (hl : l.unread = []) :
    ((exchanges k (mydata v)).step l x).1.unread = [] := by
  obtain ⟨name, city, hname, rfl, -⟩ := buy_eq_some h
  have htext : x.command.text (mydata v) = some (lit "buy" ++ 32 :: (name ++ 32 :: (decimal city ++ 32 :: masks d))) := by
    rw [hx]
    exact h
  have hsend : Sendable (lit "buy" ++ 32 :: (name ++ 32 :: (decimal city ++ 32 :: masks d))) :=
    ⟨List.append_ne_nil_of_right_ne_nil _ (by simp), hle, nul_free_buy hname (plain_request city d)⟩
  obtain ⟨behind, hb⟩ := exchange_short (k := k) htext hsend hl
  rw [hb, hx, List.append_assoc]
  rcases reply_buy (kind_buy _) _ _ _ _ with hw | hw | ⟨hw, -⟩
  · rw [hw, List.flatten_singleton, ← List.append_nil buy_fail]
    exact readBuy_fail []
  · rw [hw, ← List.append_nil saleWrites.flatten]
    exact readBuy_sale []
  · rw [hw]
    exact readBuy_none

theorem cut_buy {name : Text} (hname : name.length < 20) (rest : Text) :
    (lit "buy" ++ 32 :: (name ++ 32 :: rest)).take 30 =
        lit "buy" ++ 32 :: (name ++ 32 :: rest.take (25 - name.length)) ∧
      (lit "buy" ++ 32 :: (name ++ 32 :: rest)).drop 30 = rest.drop (25 - name.length) := by
  have hsplit : lit "buy" ++ 32 :: (name ++ 32 :: rest) = (lit "buy" ++ 32 :: (name ++ [32])) ++ rest := by simp
  have hhead : (lit "buy" ++ 32 :: (name ++ [32])).length = name.length + 5 := by simp [lit]
  have hm : 30 - (name.length + 5) = 25 - name.length := by omega
  constructor
  · rw [hsplit, List.take_append, List.take_of_length_le (by omega), hhead, hm]
    simp
  · rw [hsplit, List.drop_append, List.drop_eq_nil_of_le (by omega), hhead, List.nil_append, hm]

abbrev Link.firstWrites (k : ℕ) (v : Visit) (t : Text) (l : Link) : List Text :=
  (mask_server v.locals v.beyond (l.visited v).globals ((l.visited v).conns k)
    (cstring (readInto l.buf (t.take 30)))).writes

theorem buy_front_kind {v : Inventory} {d : Draws} {t : Text} (h : buy (mydata v) d = some t) (buf : Text) :
    kind (cstring (readInto buf (t.take 30))) = .buy := by
  obtain ⟨name, city, hname, rfl, -⟩ := buy_eq_some h
  have h0 := nul_free_buy hname (plain_request city d)
  rw [cstring_readInto (fun hm => h0 (List.mem_of_mem_take hm)), (cut_buy hname.isName.2.2 _).1, List.append_assoc]
  exact kind_buy _

theorem buy_back_plain {v : Inventory} {d : Draws} {t : Text} (h : buy (mydata v) d = some t) : Plain (t.drop 30) := by
  obtain ⟨name, city, hname, rfl, -⟩ := buy_eq_some h
  rw [(cut_buy hname.isName.2.2 _).2]
  exact fun b hb => plain_request city d b (List.mem_of_mem_drop hb)

theorem exchange_buy_pieces {v : Inventory} {k : ℕ} {x : Exchange} {d : Draws} (hx : x.command = .buy d) {t : Text}
    (h : buy (mydata v) d = some t) (hlong : 30 < t.length) {l : Link} (hl : l.unread = []) :
    ∃ u, ((exchanges k (mydata v)).step l x).1.unread =
        (readBuy ((l.firstWrites k (x.visits 0) t).flatten ++ (invalid ++ u))).2 ∧
      (t.drop 60 = [] → u = []) ∧ (t.drop 60 ≠ [] → 24 ≤ u.length) := by
  have htext : x.command.text (mydata v) = some t := by
    rw [hx]
    exact h
  have hplain := buy_back_plain h
  obtain ⟨n, hn, hreads⟩ := reads_long hlong
  obtain ⟨c, w, hc⟩ : ∃ c w, t.drop 30 = c :: w := by
    apply List.exists_cons_of_ne_nil
    rw [Ne, List.drop_eq_nil_iff]
    omega
  have hsecond : 0 ∉ c :: w.take 29 := by
    intro hm
    apply hplain.nul_free
    rw [hc]
    exact List.mem_of_mem_take (i := 30) hm
  have hthird : Plain (t.drop 60) := by
    rw [← List.drop_drop (i := 30) (j := 30)]
    exact fun b hb => hplain b (List.mem_of_mem_drop hb)
  have hlast : t.drop 60 ≠ [] → 0 < n := by
    rw [Ne, List.drop_eq_nil_iff, not_le]
    exact hn
  -- what the server writes for each of the two pieces, and for those that may follow
  have hb : (l.handle k (x.visits 0) (t.take 30)).unread = l.unread ++ (l.firstWrites k (x.visits 0) t).flatten := rfl
  obtain ⟨behind', hb'⟩ := handle_unread k (x.visits 1) hsecond (l.handle k (x.visits 0) (t.take 30))
  obtain ⟨u, hu, hnone, hmore⟩ := handleAll_plain k (fun n => x.visits (n + 2)) hthird hlast
    ((l.handle k (x.visits 0) (t.take 30)).handle k (x.visits 1) (c :: w.take 29))
  rw [List.cons_append, reply_invalid (kind_plain (hplain c (by rw [hc]; simp)) _), List.flatten_singleton] at hb'
  have hpieces : reads t.length t = t.take 30 :: (c :: w.take 29) :: reads n (t.drop 60) := by
    rw [hreads, hc, List.take_succ_cons]
  refine ⟨u, ?_, hnone, hmore⟩
  rw [exchange_unread htext, hpieces, Link.handleAll, Link.handleAll, hx, hu, hb', hb, hl, List.nil_append,
    List.append_assoc]
  rfl

theorem exchange_buy_long {v : Inventory} {k : ℕ} {x : Exchange} {d : Draws} (hx : x.command = .buy d) {t : Text}
    (h : buy (mydata v) d = some t) (hlong : 30 < t.length) {l : Link} (hl : l.unread = []) :
    ((exchanges k (mydata v)).step l x).1.unread = [] ↔ t.length ≤ 60 ∧ l.Ignores k (x.visits 0) t := by
  obtain ⟨u, hunread, hnone, hmore⟩ := exchange_buy_pieces hx h hlong hl (k := k)
  rw [hunread]
  have hanswered {ws : List Text} (hw : l.firstWrites k (x.visits 0) t = ws) (hne : ws ≠ []) :
      ¬ l.Ignores k (x.visits 0) t :=
    fun hun => hne (hw.symm.trans (unanswered_writes hun))
  rcases reply_buy (buy_front_kind h l.buf) (x.visits 0).locals (x.visits 0).beyond (l.visited (x.visits 0)).globals
    ((l.visited (x.visits 0)).conns k) with hw | hw | ⟨hw, hun⟩
  · refine iff_of_false ?_ fun hi => hanswered hw (by simp) hi.2
    rw [Link.firstWrites, hw, List.flatten_singleton, readBuy_fail]
    exact drop_invalid_ne_nil (by norm_num) u
  · refine iff_of_false ?_ fun hi => hanswered hw (by simp [saleWrites]) hi.2
    rw [Link.firstWrites, hw, readBuy_sale]
    exact drop_invalid_ne_nil (n := 0) (by norm_num) u
  · rw [Link.firstWrites, hw, List.flatten_nil, List.nil_append, readBuy_invalid, List.drop_eq_nil_iff]
    constructor
    · intro hle
      refine ⟨?_, hun⟩
      by_contra hgt
      have hne : t.drop 60 ≠ [] := by
        rw [Ne, List.drop_eq_nil_iff]
        exact hgt
      have h24 := hmore hne
      omega
    · rintro ⟨hle, -⟩
      rw [hnone (List.drop_eq_nil_of_le hle)]
      norm_num

theorem Types.same {v : Inventory} {s s' : Server} (h : Types v s) (hs : Same s s') : Types v s' := by
  refine ⟨hs.num.trans h.1, fun i => ?_⟩
  have hlabel := hs.label (100 * i + 0)
  simp only [Inv.label, Prod.mk.injEq] at hlabel
  rw [Globals.row, hlabel.2.2.2.1]
  exact h.2 i

theorem Types.visited {v : Inventory} {l : Link} (h : Types v l.server) (x : Visit) : Types v (l.visited x) :=
  h.same (Hw3.server.run_invariant (fun s e hs => hs.trans (same_step s e)) (Same.refl l.server) x.others)

theorem Types.handleAll {v : Inventory} {l : Link} (h : Types v l.server) (k : ℕ) (vs : ℕ → Visit)
    (chunks : List Text) : Types v (l.handleAll k vs chunks).server := by
  induction chunks generalizing vs l with
  | nil => exact h
  | cons bytes rest ih => exact ih ((h.visited (vs 0)).same (same_step ..)) _

theorem Types.exchange {v : Inventory} {l : Link} (h : Types v l.server) (k : ℕ) (stores : List Store) (x : Exchange) :
    Types v ((exchanges k stores).step l x).1.server := by
  cases ht : x.command.text stores with
  | none =>
    rw [exchange_none ht]
    exact h
  | some t =>
    rw [exchange_server ht]
    exact h.handleAll k x.visits (reads t.length t)

theorem exchange_iff {v : Inventory} {k : ℕ} {l : Link} (hl : l.unread = []) (x : Exchange) :
    ((exchanges k (mydata v)).step l x).1.unread = [] ↔ InTime v k l x := by
  cases hx : x.command with
  | display =>
    simp only [InTime, hx]
    exact exchange_display (by rw [hx]; rfl) hl
  | buy d =>
    simp only [InTime, hx, Option.mem_def]
    cases hbuy : buy (mydata v) d with
    | none =>
      have htext : x.command.text (mydata v) = none := by
        rw [hx]
        exact hbuy
      rw [exchange_none htext]
      simp [hl]
    | some t =>
      simp only [Option.some.injEq, forall_eq']
      by_cases hle : t.length ≤ 30
      · exact iff_of_true (exchange_buy_short hx hbuy hle hl) (Or.inl hle)
      · rw [exchange_buy_long hx hbuy (not_le.mp hle) hl]
        simp [hle]
  | login i =>
    simp only [InTime, hx, iff_true]
    exact exchange_reply (by simp [hx, Command.kind]) hl
  | logout =>
    simp only [InTime, hx, iff_true]
    exact exchange_reply (by simp [hx, Command.kind]) hl
  | statics =>
    simp only [InTime, hx, iff_true]
    exact exchange_reply (by simp [hx, Command.kind]) hl
  | exit =>
    simp only [InTime, hx, iff_true]
    exact exchange_reply (by simp [hx, Command.kind]) hl

theorem in_step_iff (b : Boot) (k : ℕ) (memory : Text) (xs : List Exchange) :
    (∀ ys, ys <+: xs → ((exchanges k (mydata b.toInventory)).run (start b memory) ys).unread = []) ↔
      ∀ q ∈ (exchanges k (mydata b.toInventory)).trace (start b memory) xs, InTime b.toInventory k q.pre q.event := by
  apply Machine.states_iff (I := fun _ => True) (P := fun l => l.unread = []) (C := InTime b.toInventory k)
  · exact fun _ _ _ => trivial
  · exact fun l x _ hl => exchange_iff hl x
  · exact trivial
  · rfl

theorem inTime_counted (b : Boot) (k : ℕ) (memory : Text) (xs : List Exchange)
    (hcount : ∀ i : ℕ, i < b.num → 0 ≤ (b.data (100 * i)).type_num) :
    ∀ q ∈ (exchanges k (mydata b.toInventory)).trace (start b memory) xs, ∀ d t, q.event.command = .buy d →
      buy (mydata b.toInventory) d = some t → (InTime b.toInventory k q.pre q.event ↔ t.length ≤ 30) := by
  intro q hq d t hx h
  have hs : Types b.toInventory q.pre.server := by
    obtain ⟨ys, y, zs, -, rfl⟩ := (exchanges k _).mem_trace_iff.mp hq
    refine Machine.run_invariant _ (P := fun l : Link => Types b.toInventory l.server)
      (fun l x hs => hs.exchange k _ x) ⟨rfl, fun i => ?_⟩ ys
    simp [start, Boot.start, Boot.globals, Globals.row]
  simp only [InTime, hx, Option.mem_def, h, Option.some.injEq, forall_eq']
  apply or_iff_left
  rintro ⟨-, -, -, hv⟩
  obtain ⟨name, city, hname, rfl, hcity⟩ := buy_eq_some h
  have hlen := city_length (hcity hcount)
  have hname20 := hname.isName.2.2
  have h0 := nul_free_buy hname (plain_request city d)
  obtain ⟨m, hm⟩ : ∃ m, 25 - name.length - (decimal city).length = m + 1 := ⟨_, (Nat.succ_pred (by omega)).symm⟩
  have hfront : (decimal city ++ 32 :: masks d).take (25 - name.length) = decimal city ++ 32 :: (masks d).take m := by
    rw [List.take_append, List.take_of_length_le (by omega), hm, List.take_succ_cons]
  rw [cstring_readInto (fun hx => h0 (List.mem_of_mem_take hx)), (cut_buy hname20 _).1, hfront] at hv
  simp only [List.append_assoc, List.cons_append] at hv
  exact verdict_known (hs.visited _) hname (decimal_isWord city) (by omega) _ hv

def crowdedData (a : ℤ) : Inv where
  line := a + 1
  a := 9
  b := 9
  c := 9
  type_num := 100
  sum := 0
  type := lit "ABCDEFGHIJKLMNOPQRS"
  city := lit "C"

theorem crowded_num_le : 1 ≤ 15 := by decide

theorem crowded_names : IsName 20 (lit "ABCDEFGHIJKLMNOPQRS") ∧ IsName 50 (lit "C") := by
  simp [IsName, IsWord, lit, isspace]

def crowdedShop : Boot where
  num := 1
  data := crowdedData
  num_le := crowded_num_le
  type_num_le _ _ := le_refl (100 : ℤ)
  type_name _ _ := crowded_names.1
  city_name _ _ _ _ := crowded_names.2
  day := 1
  capacity := 50
  fd k := k % 26 + 4
  ID _ _ := 0
  day_int := sampleShop.day_int
  capacity_int := capacity_int
  fd_int := sampleShop.fd_int

def asked (c : Command) : Exchange := ⟨c, fun _ => ⟨[], ⟨fun _ => 0, 0, [], 0, fun _ => 0⟩, fun _ _ => 0⟩⟩

theorem in_step_fails :
    ((exchanges 0 (mydata crowdedShop.toInventory)).run (start crowdedShop []) [asked .display]).unread ≠ [] ∧
    ((exchanges 0 (mydata crowdedShop.toInventory)).run (start crowdedShop [])
      [asked (.buy ⟨0, 0, 0, 0, fun _ => 0⟩)]).unread = lit "id.\n" := by
  refine ⟨fun h => ?_, by decide⟩
  have hlong : ¬ showBytes ((start crowdedShop []).visited ((asked .display).visits 0)).globals ≤ 1024 := by
    decide +kernel
  have hread : (start crowdedShop []).unread = [] := rfl
  have hasked : (asked .display).command.kind = .display := rfl
  rw [Machine.run_cons, Machine.run_nil] at h
  exact hlong ((exchange_display hasked hread).mp h)

end EmbeddedOS.Hw2
