import EmbeddedOS.Hw3.HandlerCases

namespace EmbeddedOS.Hw3

open CText Runs

def cstring (memory : Text) : Text := memory.takeWhile (fun x => x != 0)

def readInto (buf bytes : Text) : Text := bytes ++ buf.drop bytes.length

def memset30 (buf : Text) : Text := List.replicate 30 0 ++ buf.drop 30

/-- The memory of `buf` when a command arrives: `memory` is what it holds that was never set. -/
def bufBefore (fresh : Bool) (memory : Text) : Text := if fresh then memory else memset30 memory

def received (fresh : Bool) (memory bytes : Text) : Text :=
  cstring (readInto (bufBefore fresh memory) bytes)

/-- The string ends within the bytes received or the bytes that were cleared. -/
def Closed (fresh : Bool) (bytes : Text) : Prop := 0 ∈ bytes ∨ (fresh = false ∧ bytes.length < 30)

instance (fresh : Bool) (bytes : Text) : Decidable (Closed fresh bytes) :=
  inferInstanceAs (Decidable (_ ∨ _))

theorem cstring_of_not_mem {t : Text} (h : 0 ∉ t) (rest : Text) : cstring (t ++ rest) = t ++ cstring rest := by
  apply List.takeWhile_append_of_pos
  intro x hx
  simp only [bne_iff_ne]
  rintro rfl
  exact h hx

theorem cstring_of_mem {t : Text} (h : 0 ∈ t) (rest : Text) : cstring (t ++ rest) = cstring t := by
  induction t with
  | nil => simp at h
  | cons x t ih =>
    by_cases hx : x = 0
    · simp [cstring, hx]
    · have ht : 0 ∈ t := by simpa [Ne.symm hx] using h
      have h' := ih ht
      simp only [cstring] at h'
      simp [cstring, hx, h']

theorem received_closed {fresh : Bool} {bytes : Text} (h : Closed fresh bytes) (memory : Text) :
    received fresh memory bytes = cstring bytes := by
  by_cases h0 : 0 ∈ bytes
  · exact cstring_of_mem h0 _
  · obtain ⟨rfl, hlen⟩ := h.resolve_left h0
    obtain ⟨m, hm⟩ : ∃ m, 30 - bytes.length = m + 1 := ⟨30 - bytes.length - 1, by omega⟩
    have hdrop : (memset30 memory).drop bytes.length = 0 :: (List.replicate m 0 ++ memory.drop 30) := by
      rw [memset30, List.drop_append_of_le_length (by simpa using hlen.le), List.drop_replicate, hm]
      rfl
    rw [received, readInto, bufBefore, if_neg (by simp), hdrop, cstring_of_not_mem h0]
    have hnil := cstring_of_not_mem h0 []
    rw [List.append_nil] at hnil
    rw [hnil]
    simp [cstring]

theorem received_open {fresh : Bool} {bytes : Text} (h : ¬ Closed fresh bytes) (memory : Text) :
    ∃ t, received fresh memory bytes = bytes ++ t := by
  have h0 : 0 ∉ bytes := fun h0 => h (Or.inl h0)
  exact ⟨_, cstring_of_not_mem h0 _⟩

theorem received_any {fresh : Bool} {bytes t : Text} (h : ¬ Closed fresh bytes)
    (hlen : bytes.length ≤ 30) (ht : 0 ∉ t) : ∃ memory, received fresh memory bytes = bytes ++ t := by
  have h0 : 0 ∉ bytes := fun h0 => h (Or.inl h0)
  have htext : cstring t = t := by
    have ht' := cstring_of_not_mem ht []
    simpa [cstring] using ht'
  cases fresh with
  | true =>
    refine ⟨bytes ++ t, ?_⟩
    rw [received, readInto, bufBefore, if_pos rfl, List.drop_left, cstring_of_not_mem h0, htext]
  | false =>
    have h30 : bytes.length = 30 := by
      have hlt : ¬ bytes.length < 30 := fun hlt => h (Or.inr ⟨rfl, hlt⟩)
      omega
    refine ⟨bytes ++ t, ?_⟩
    have hdrop : (memset30 (bytes ++ t)).drop bytes.length = t := by
      rw [memset30, h30, List.drop_left' (by simp), ← h30, List.drop_left]
    rw [received, readInto, bufBefore, if_neg (by simp), hdrop, cstring_of_not_mem h0, htext]

def keyword : Kind → Text
  | .display => lit "show"
  | .login => lit "login"
  | .logout => lit "logout"
  | .buy => lit "buy"
  | .statics => lit "statics"
  | .invalid => []

theorem keyword_unique {k k' : Kind} {buf : Text} (hk : k ≠ .invalid) (hk' : k' ≠ .invalid)
    (h : keyword k <+: buf) (h' : keyword k' <+: buf) : k = k' := by
  have hall : ∀ k k', k ≠ .invalid → k' ≠ .invalid → keyword k <+: keyword k' → k = k' := by
    intro k k' hk hk' h
    cases k <;> cases k' <;> first | rfl | (exfalso; revert h hk hk'; decide)
  rcases List.prefix_or_prefix_of_prefix h h' with hp | hp
  · exact hall k k' hk hk' hp
  · exact (hall k' k hk' hk hp).symm

theorem startsWith_iff_initial (w t : Text) : startsWith w t = true ↔ w <+: t := List.isPrefixOf_iff_prefix

theorem keyword_kind {buf : Text} (h : kind buf ≠ .invalid) : keyword (kind buf) <+: buf := by
  unfold kind at h ⊢
  split_ifs at h ⊢ with h1 h2 h3 h4 h5
  · exact (startsWith_iff_initial _ _).mp h1
  · exact (startsWith_iff_initial _ _).mp h2
  · exact (startsWith_iff_initial _ _).mp h3
  · exact (startsWith_iff_initial _ _).mp h4
  · exact (startsWith_iff_initial _ _).mp h5
  · exact absurd rfl h

theorem kind_of_keyword {buf : Text} {k : Kind} (hk : k ≠ .invalid) (h : keyword k <+: buf) :
    kind buf = k := by
  have hvalid : kind buf ≠ .invalid := by
    intro hi
    have hs := (startsWith_iff_initial (keyword k) buf).mpr h
    unfold kind at hi
    split_ifs at hi with h1 h2 h3 h4 h5
    cases k with
    | display => exact h1 hs
    | login => exact h2 hs
    | logout => exact h3 hs
    | buy => exact h4 hs
    | statics => exact h5 hs
    | invalid => exact hk rfl
  exact keyword_unique hvalid hk (keyword_kind hvalid) h

theorem kind_append {bytes : Text} (h : kind bytes ≠ .invalid) (t : Text) :
    kind (bytes ++ t) = kind bytes :=
  kind_of_keyword h ((keyword_kind h).trans (List.prefix_append bytes t))

def Partial (bytes : Text) : Prop := ∃ k, k ≠ .invalid ∧ bytes <+: keyword k

theorem kind_append_invalid {bytes : Text} (h : kind bytes = .invalid) (hp : ¬ Partial bytes) (t : Text) :
    kind (bytes ++ t) = .invalid := by
  by_contra hv
  have hk := keyword_kind hv
  rcases List.prefix_or_prefix_of_prefix hk (List.prefix_append bytes t) with h' | h'
  · exact hv ((kind_of_keyword hv h').symm.trans h)
  · exact hp ⟨_, hv, h'⟩

end EmbeddedOS.Hw3
