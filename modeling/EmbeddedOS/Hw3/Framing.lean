import EmbeddedOS.Hw3.Buffer

/-!
How the loop of `mask_server` cuts the byte stream of a connection into commands: one command
for each call of `read` whose result is not 0.
-/

namespace EmbeddedOS.Hw3

open CText

inductive Read where
  | data (bytes : Text)
  | eof
  | error

namespace Read

def result : Read → ℤ
  | .data bytes => bytes.length
  | .eof => 0
  | .error => -1

def store (r : Read) (buf : Text) : Text :=
  match r with
  | .data bytes => readInto buf bytes
  | .eof => buf
  | .error => buf

end Read

structure Dispatch where
  read : Read
  text : Text

def dispatches (buf : Text) : List Read → List Dispatch
  | [] => []
  | r :: rs =>
    if r.result = 0 then []
    else ⟨r, cstring (r.store buf)⟩ :: dispatches (memset30 (r.store buf)) rs

def delivery (chunks : List Text) (ending : Read) : List Read := chunks.map .data ++ [ending]

def Framed (buf : Text) (commands : List Text) (rs : List Read) : Prop :=
  (dispatches buf rs).map Dispatch.text = commands ∧ ∀ d ∈ dispatches buf rs, 0 < d.read.result

instance (buf : Text) (commands : List Text) (rs : List Read) : Decidable (Framed buf commands rs) :=
  inferInstanceAs (Decidable (_ ∧ _))

/-- Wherever a command ends in the buffer without a NUL of the program's own, the memory holds one. -/
def Terminated (buf : Text) (commands : List Text) : Prop :=
  (∀ c ∈ commands.head?, buf.getD c.length 0 = 0) ∧
    ∀ c ∈ commands.tail, c.length = 30 → buf.getD 30 0 = 0

instance (buf : Text) (commands : List Text) : Decidable (Terminated buf commands) :=
  inferInstanceAs (Decidable (_ ∧ _))

theorem cstring_nul_free (t : Text) : 0 ∉ cstring t := by
  intro h
  have hp := List.mem_takeWhile_imp h
  simp at hp

theorem cstring_eq_nil_iff (t : Text) : cstring t = [] ↔ t.getD 0 0 = 0 := by
  cases t with
  | nil => simp [cstring]
  | cons x t =>
    by_cases hx : x = 0
    · simp [cstring, hx]
    · simp [cstring, hx]

theorem cstring_readInto {bytes : Text} (h : 0 ∉ bytes) (buf : Text) :
    cstring (readInto buf bytes) = bytes ++ cstring (buf.drop bytes.length) :=
  cstring_of_not_mem h _

theorem cstring_readInto_eq_iff {bytes : Text} (h : 0 ∉ bytes) (buf : Text) :
    cstring (readInto buf bytes) = bytes ↔ buf.getD bytes.length 0 = 0 := by
  rw [cstring_readInto h, List.append_right_eq_self, cstring_eq_nil_iff]
  simp [List.getD_eq_getElem?_getD]

theorem drop_memset_readInto {bytes : Text} (h : bytes.length ≤ 30) (buf : Text) :
    (memset30 (readInto buf bytes)).drop 30 = buf.drop 30 := by
  have hd : (readInto buf bytes).drop 30 = buf.drop 30 := by
    rw [readInto, List.drop_append, List.drop_eq_nil_of_le h, List.nil_append, List.drop_drop]
    congr 1
    omega
  rw [memset30, List.drop_left' (by simp), hd]

theorem memset30_getD (buf : Text) (n : ℕ) :
    (memset30 buf).getD n 0 = 0 ↔ (n < 30 ∨ buf.getD n 0 = 0) := by
  simp only [memset30, List.getD_eq_getElem?_getD]
  by_cases hn : n < 30
  · rw [List.getElem?_append_left (by simpa using hn), List.getElem?_replicate_of_lt hn]
    simp [hn]
  · rw [List.getElem?_append_right (by simpa using hn)]
    have hm : 30 + (n - 30) = n := by omega
    simp [hn, hm]

theorem dispatches_data (buf : Text) {bytes : Text} (h : bytes ≠ []) (rs : List Read) :
    dispatches buf (.data bytes :: rs) = ⟨.data bytes, cstring (readInto buf bytes)⟩ ::
      dispatches (memset30 (readInto buf bytes)) rs := by
  have hr : (Read.data bytes).result ≠ 0 := by
    simpa [Read.result] using h
  rw [dispatches, if_neg hr]
  rfl

theorem dispatches_eof (buf : Text) (rs : List Read) : dispatches buf (.eof :: rs) = [] := rfl

theorem dispatches_error (buf : Text) (rs : List Read) : dispatches buf (.error :: rs) =
    ⟨.error, cstring buf⟩ :: dispatches (memset30 buf) rs := rfl

theorem delivery_cons (c : Text) (chunks : List Text) (ending : Read) :
    delivery (c :: chunks) ending = .data c :: delivery chunks ending := rfl

theorem flatten_length_le {xs ys : List Text} (h : List.Forall₂ (· <+: ·) xs ys) :
    xs.flatten.length ≤ ys.flatten.length := by
  induction h with
  | nil => rfl
  | cons hp _ ih =>
    have hl := hp.length_le
    simp only [List.flatten_cons, List.length_append]
    omega

theorem eq_of_extended {xs ys : List Text} (h : List.Forall₂ (· <+: ·) xs ys)
    (hf : xs.flatten = ys.flatten) : xs = ys := by
  have hlen := congrArg List.length hf
  clear hf
  induction h with
  | nil => rfl
  | @cons x y xs ys hp hrest ih =>
    have hl := hp.length_le
    have ht := flatten_length_le hrest
    simp only [List.flatten_cons, List.length_append] at hlen
    rw [hp.eq_of_length (by omega), ih (by omega)]

theorem dispatched_extend {chunks : List Text} (hne : ∀ c ∈ chunks, c ≠ []) (h0 : ∀ c ∈ chunks, 0 ∉ c)
    (buf : Text) :
    List.Forall₂ (· <+: ·) chunks ((dispatches buf (delivery chunks .eof)).map Dispatch.text) := by
  induction chunks generalizing buf with
  | nil => exact .nil
  | cons c chunks ih =>
    rw [delivery_cons, dispatches_data buf (hne c (by simp))]
    refine .cons ?_ (ih (fun d hd => hne d (by simp [hd])) (fun d hd => h0 d (by simp [hd])) _)
    rw [cstring_readInto (h0 c (by simp))]
    exact List.prefix_append ..

theorem dispatched_nul_free {buf t : Text} {rs : List Read}
    (h : t ∈ (dispatches buf rs).map Dispatch.text) : 0 ∉ t := by
  induction rs generalizing buf with
  | nil => simp [dispatches] at h
  | cons r rs ih =>
    rw [dispatches] at h
    split_ifs at h
    · simp at h
    · rcases List.mem_cons.mp h with rfl | h
      · exact cstring_nul_free _
      · exact ih h

theorem eof_of_framed {chunks : List Text} (hne : ∀ c ∈ chunks, c ≠ []) {buf : Text} {ending : Read}
    (hend : ending = .eof ∨ ending = .error)
    (h : ∀ d ∈ dispatches buf (delivery chunks ending), 0 < d.read.result) : ending = .eof := by
  induction chunks generalizing buf with
  | nil =>
    rcases hend with rfl | rfl
    · rfl
    · have hd := h ⟨.error, cstring buf⟩ (by simp [delivery, dispatches_error])
      simp [Read.result] at hd
  | cons c chunks ih =>
    rw [delivery_cons, dispatches_data buf (hne c (by simp))] at h
    exact ih (fun d hd => hne d (by simp [hd])) (fun d hd => h d (List.mem_cons_of_mem _ hd))

theorem framed_of_eof {chunks : List Text} (hne : ∀ c ∈ chunks, c ≠ []) (buf : Text) :
    ∀ d ∈ dispatches buf (delivery chunks .eof), 0 < d.read.result := by
  induction chunks generalizing buf with
  | nil => simp [delivery, dispatches_eof]
  | cons c chunks ih =>
    rw [delivery_cons, dispatches_data buf (hne c (by simp))]
    intro d hd
    rcases List.mem_cons.mp hd with rfl | hd
    · have hc := List.length_pos_of_ne_nil (hne c (by simp))
      simpa [Read.result] using hc
    · exact ih (fun d hd => hne d (by simp [hd])) _ d hd

theorem terminated_cleared {buf c : Text} (hc : c.length ≤ 30) {cs : List Text}
    (hcs : ∀ d ∈ cs, d.length ≤ 30) :
    Terminated (memset30 (readInto buf c)) cs ↔ ∀ d ∈ cs, d.length = 30 → buf.getD 30 0 = 0 := by
  have h30 : (memset30 (readInto buf c)).getD 30 0 = buf.getD 30 0 := by
    have hd := congrArg (fun t => t.getD 0 0) (drop_memset_readInto hc buf)
    simpa [List.getD_eq_getElem?_getD] using hd
  cases cs with
  | nil => simp [Terminated]
  | cons d cs =>
    have hd := hcs d (by simp)
    have hhead : (memset30 (readInto buf c)).getD d.length 0 = 0 ↔
        (d.length = 30 → buf.getD 30 0 = 0) := by
      by_cases h : d.length = 30
      · rw [h, h30]
        simp
      · have hlt : d.length < 30 := by omega
        rw [memset30_getD]
        simp [hlt, h]
    simp only [Terminated, List.head?_cons, Option.mem_some_iff, forall_eq', List.tail_cons, hhead, h30,
      List.forall_mem_cons]

theorem dispatched_whole_iff {cs : List Text} (hne : ∀ c ∈ cs, c ≠ []) (h0 : ∀ c ∈ cs, 0 ∉ c)
    (hlen : ∀ c ∈ cs, c.length ≤ 30) (buf : Text) :
    (dispatches buf (delivery cs .eof)).map Dispatch.text = cs ↔ Terminated buf cs := by
  induction cs generalizing buf with
  | nil => simp [delivery, dispatches_eof, Terminated]
  | cons c cs ih =>
    rw [delivery_cons, dispatches_data buf (hne c (by simp)), List.map_cons, List.cons.injEq,
      cstring_readInto_eq_iff (h0 c (by simp)),
      ih (fun d hd => hne d (by simp [hd])) (fun d hd => h0 d (by simp [hd]))
        (fun d hd => hlen d (by simp [hd])),
      terminated_cleared (hlen c (by simp)) (fun d hd => hlen d (by simp [hd]))]
    simp [Terminated]

theorem framed_iff (buf : Text) (commands chunks : List Text) (ending : Read)
    (hlen : ∀ c ∈ chunks, 1 ≤ c.length ∧ c.length ≤ 30) (hstream : chunks.flatten = commands.flatten)
    (hend : ending = .eof ∨ ending = .error) :
    Framed buf commands (delivery chunks ending) ↔
      ending = .eof ∧ chunks = commands ∧ (∀ c ∈ commands, 0 ∉ c) ∧ Terminated buf commands := by
  have hne : ∀ c ∈ chunks, c ≠ [] := fun c hc => List.ne_nil_of_length_pos (hlen c hc).1
  have hle : ∀ c ∈ chunks, c.length ≤ 30 := fun c hc => (hlen c hc).2
  constructor
  · rintro ⟨htexts, hreads⟩
    obtain rfl := eof_of_framed hne hend hreads
    have h0 : ∀ c ∈ commands, 0 ∉ c := by
      intro c hc
      rw [← htexts] at hc
      exact dispatched_nul_free hc
    have h0' : ∀ c ∈ chunks, 0 ∉ c := by
      intro c hc hz
      have hm : 0 ∈ commands.flatten := hstream ▸ List.mem_flatten.mpr ⟨c, hc, hz⟩
      obtain ⟨d, hd, hz'⟩ := List.mem_flatten.mp hm
      exact h0 d hd hz'
    have hext := dispatched_extend hne h0' buf
    rw [htexts] at hext
    obtain rfl := eq_of_extended hext hstream
    exact ⟨rfl, rfl, h0, (dispatched_whole_iff hne h0 hle buf).mp htexts⟩
  · rintro ⟨rfl, rfl, h0, hterm⟩
    exact ⟨(dispatched_whole_iff hne h0 hle buf).mpr hterm, framed_of_eof hne buf⟩

theorem framed_whole : Framed [] [lit "show", lit "statics"] (delivery [lit "show", lit "statics"] .eof) :=
  (framed_iff [] [lit "show", lit "statics"] [lit "show", lit "statics"] .eof (by decide) rfl
    (Or.inl rfl)).mpr ⟨rfl, rfl, by decide, by decide⟩

theorem framed_fails :
    ([lit "showstatics"].flatten = [lit "show", lit "statics"].flatten ∧
      ¬ Framed [] [lit "show", lit "statics"] (delivery [lit "showstatics"] .eof)) ∧
    ([lit "stat", lit "ics"].flatten = [lit "statics"].flatten ∧
      ¬ Framed [] [lit "statics"] (delivery [lit "stat", lit "ics"] .eof)) ∧
    ¬ Framed [] [lit "show"] (delivery [lit "show"] .error) := by
  decide

end EmbeddedOS.Hw3
