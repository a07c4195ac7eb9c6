import EmbeddedOS.Hw3.Records
import EmbeddedOS.Hw3.Requests
import EmbeddedOS.Hw3.Buffer

namespace EmbeddedOS.Hw3

open CText Runs

inductive Grammatical : Kind → Text → Prop
  | display {tail : Text} (blanks : Blanks tail) : Grammatical .display (lit "show" ++ tail)
  | logout {tail : Text} (blanks : Blanks tail) : Grammatical .logout (lit "logout" ++ tail)
  | statics {tail : Text} (blanks : Blanks tail) : Grammatical .statics (lit "statics" ++ tail)
  | login {gap id tail : Text} (before : Gap gap) (word : IsWord id) (length : id.length = 10)
      (blanks : Blanks tail) : Grammatical .login (lit "login" ++ (gap ++ (id ++ tail)))
  | buy {type city tail : Text} {gap : Fin 5 → Text} {X : Fin 3 → Text} {m : Fin 3 → ℤ}
      (between : ∀ j, Gap (gap j)) (type_word : IsWord type) (city_word : IsWord city)
      (numerals : ∀ j, Numeral (m j) (X j)) (blanks : Blanks tail) :
      Grammatical .buy (lit "buy" ++ (gap 0 ++ (type ++ (gap 1 ++ (city ++ (gap 2 ++ (X 0 ++
        (gap 3 ++ (X 1 ++ (gap 4 ++ (X 2 ++ tail)))))))))))

def Unchanged (s s' : Server) : Prop :=
  s'.globals.num = s.globals.num ∧ s'.globals.data = s.globals.data ∧ s'.globals.day = s.globals.day ∧
    s'.globals.alcohol = s.globals.alcohol ∧ s'.globals.buied_num = s.globals.buied_num ∧
    s'.globals.buied_ID = s.globals.buied_ID ∧ s'.conns = s.conns

/-- A command is executed as `k` only on a text of `k`, and a text of no command is refused. -/
def Accepts (s : Server) (e : Event) : Prop :=
  (∀ k, k ≠ .invalid → kind e.text = k → Grammatical k e.text) ∧
    ((∀ k, ¬ Grammatical k e.text) →
      (server.step s e).2.writes = [invalid] ∧ Unchanged s (server.step s e).1)

theorem grammatical_keyword {k : Kind} {t : Text} (h : Grammatical k t) : k ≠ .invalid ∧ keyword k <+: t := by
  cases h with
  | display blanks => exact ⟨by simp, List.prefix_append ..⟩
  | logout blanks => exact ⟨by simp, List.prefix_append ..⟩
  | statics blanks => exact ⟨by simp, List.prefix_append ..⟩
  | login before word length blanks => exact ⟨by simp, List.prefix_append ..⟩
  | buy between type_word city_word numerals blanks => exact ⟨by simp, List.prefix_append ..⟩

theorem grammatical_kind {k : Kind} {t : Text} (h : Grammatical k t) : kind t = k :=
  kind_of_keyword (grammatical_keyword h).1 (grammatical_keyword h).2

theorem refused_iff (l : Locals) (beyond : ℕ → ID) (g : Globals) (c : Conn) (buf : Text) :
    (mask_server l beyond g c buf).writes = [invalid] ↔ kind buf = .invalid := by
  constructor
  · intro hw
    cases mask_server_replied l beyond g c buf with
    | answer t known result writes =>
      have ht : t = invalid := List.singleton_inj.mp (writes.symm.trans hw)
      subst ht
      exact absurd known (by decide)
    | sale result writes => exact absurd (writes.symm.trans hw) (by decide)
    | silent unknown result writes => exact absurd (writes.symm.trans hw) (by decide)
    | display result writes =>
      have hh : some 115 = invalid.head? := congrArg List.head? (List.singleton_inj.mp (writes.symm.trans hw))
      exact absurd hh (by decide)
    | statics result writes =>
      obtain ⟨b, t, ht⟩ := List.exists_cons_of_ne_nil (decimal_ne_nil g.alcohol)
      have hb : b = 45 ∨ isdigit b = true := mem_decimal (n := g.alcohol) (by simp [ht])
      have hh := congrArg List.head? (List.singleton_inj.mp (writes.symm.trans hw))
      have h73 : b = 73 := by
        simpa [ht, snprintf] using hh.trans (show invalid.head? = some 73 by rfl)
      subst h73
      exact absurd hb (by decide)
    | unrecognised command result writes => exact command
  · intro hk
    rw [mask_server_eq, hk]
    rfl

theorem unchanged_of_invalid (s : Server) {e : Event} (h : kind e.text = .invalid) :
    Unchanged s (server.step s e).1 := by
  have hstep : (server.step s e).1 =
      ⟨(server_invalid s.globals (s.conns e.conn)).globals,
        Function.update s.conns e.conn (s.conns e.conn)⟩ := by
    simp only [server, mask_server_eq, h]
    rfl
  rw [hstep, Function.update_eq_self]
  exact ⟨rfl, rfl, rfl, rfl, rfl, rfl, rfl⟩

theorem accepts_iff (b : Boot) (es : List Event) (e : Event) : Accepts (b.after es) e ↔
    (∀ k, k ≠ .invalid → ¬ keyword k <+: e.text) ∨ ∃ k, Grammatical k e.text := by
  constructor
  · rintro ⟨hexec, -⟩
    by_cases hk : kind e.text = .invalid
    · left
      intro k hne hp
      exact hne ((kind_of_keyword hne hp).symm.trans hk)
    · exact Or.inr ⟨_, hexec _ hk rfl⟩
  · rintro (hnone | ⟨k, hk⟩)
    · have hinv : kind e.text = .invalid := by
        by_contra hv
        exact hnone _ hv (keyword_kind hv)
      exact ⟨fun k hne h => absurd (h.symm.trans hinv) hne,
        fun _ => ⟨(refused_iff ..).mpr hinv, unchanged_of_invalid _ hinv⟩⟩
    · refine ⟨fun k' hne h => ?_, fun hno => absurd hk (hno k)⟩
      rw [← h, grammatical_kind hk]
      exact hk

theorem accepts_fails : ¬ Accepts (sampleShop.after []) (ask 0 (lit "showing")) := by
  intro h
  have hg : Grammatical .display (lit "showing") := h.1 .display (by decide) rfl
  generalize ht : lit "showing" = t at hg
  cases hg with
  | @display tail blanks =>
    have hs : lit "show" ++ lit "ing" = lit "show" ++ tail := ht
    obtain rfl := List.append_cancel_left hs
    exact absurd (blanks 105 (by decide)) (by decide)

end EmbeddedOS.Hw3
