import EmbeddedOS.Library.Streams
import EmbeddedOS.Hw2.Client

namespace EmbeddedOS.Hw2

open CText Hw3

def pushWords : ℕ → StringStream → Text → List Text → Option (List Text)
  | 0, _, _, _ => none
  | rounds + 1, ss, s, read_from_server =>
    if ss.eofbit then some read_from_server
    else
      let r := ss.extract s
      pushWords rounds r.2 r.1 (read_from_server ++ [r.1])

def string2vector (rounds : ℕ) (buf : Text) : Option (List Text) :=
  pushWords rounds (StringStream.ofText (cstring buf)) [] []

theorem pushWords_round (rounds : ℕ) (t s : Text) (read : List Text) :
    pushWords (rounds + 1) (StringStream.ofText t) s read =
      pushWords rounds ((StringStream.ofText t).extract s).2 ((StringStream.ofText t).extract s).1
        (read ++ [((StringStream.ofText t).extract s).1]) := rfl

theorem pushWords_end (rounds : ℕ) (t s : Text) (failbit : Bool) (read : List Text) :
    pushWords (rounds + 1) ⟨t, true, failbit⟩ s read = some read := rfl

theorem more_length {blanks w rest : Text} {b : Byte} {rounds : ℕ} (hw : IsWord w)
    (hr : (blanks ++ (w ++ b :: rest)).length < rounds + 1) : (b :: rest).length < rounds := by
  have hpos := List.length_pos_iff.mpr hw.1
  simp only [List.length_append, List.length_cons] at hr ⊢
  omega

theorem endsInWord_more (blanks w rest : Text) (b : Byte) :
    EndsInWord (blanks ++ (w ++ b :: rest)) ↔ EndsInWord (b :: rest) := by
  rw [← List.append_assoc, endsInWord_append (by simp)]

theorem pushWords_endsInWord {t : Text} (ht : EndsInWord t) {rounds : ℕ} (hr : t.length < rounds) (s : Text)
    (read : List Text) : pushWords (rounds + 1) (StringStream.ofText t) s read = some (read ++ words t) := by
  induction rounds generalizing t s read with
  | zero => omega
  | succ rounds ih =>
    rw [pushWords_round]
    cases shape t with
    | blanks hb => exact absurd ht (not_endsInWord hb)
    | last hb hw =>
      rw [StringStream.extract_last hb hw, pushWords_end, words_blanks hb, words_word hw]
    | @more blanks w rest b hb hw hs =>
      have hlen := more_length hw hr
      rw [endsInWord_more] at ht
      rw [StringStream.extract_word hb hw hs, words_blanks hb, words_append hs, words_word hw,
        ih ht hlen, words_cons hs, List.append_assoc]

theorem pushWords_endsInBlank {t : Text} (ht : ¬ EndsInWord t) {rounds : ℕ} (hr : t.length < rounds) (s : Text)
    (read : List Text) :
    pushWords (rounds + 1) (StringStream.ofText t) s read = some (read ++ words t ++ [(words t).getLastD s]) := by
  induction rounds generalizing t s read with
  | zero => omega
  | succ rounds ih =>
    rw [pushWords_round]
    cases shape t with
    | blanks hb =>
      rw [StringStream.extract_blanks hb, pushWords_end, words_of_blanks hb, List.append_nil]
      rfl
    | last hb hw => exact absurd (endsInWord_word hw _) ht
    | @more blanks w rest b hb hw hs =>
      have hlen := more_length hw hr
      rw [endsInWord_more] at ht
      rw [StringStream.extract_word hb hw hs, words_blanks hb, words_append hs, words_word hw,
        ih ht hlen, words_cons hs]
      simp only [List.append_assoc, List.singleton_append, List.getLastD_cons]

theorem pushWords_more {rounds : ℕ} {ss : StringStream} {s : Text} {read v : List Text}
    (h : pushWords rounds ss s read = some v) : pushWords (rounds + 1) ss s read = some v := by
  induction rounds generalizing ss s read with
  | zero => cases h
  | succ rounds ih =>
    rw [pushWords] at h ⊢
    split_ifs at h ⊢ with he
    · exact h
    · exact ih h

theorem pushWords_unique {rounds rounds' : ℕ} {ss : StringStream} {s : Text} {read v v' : List Text}
    (h : pushWords rounds ss s read = some v) (h' : pushWords rounds' ss s read = some v') : v = v' := by
  have hmore {n : ℕ} {u : List Text} (hu : pushWords n ss s read = some u) (k : ℕ) :
      pushWords (n + k) ss s read = some u := by
    induction k with
    | zero => exact hu
    | succ k ih => exact pushWords_more ih
  have hl := hmore h rounds'
  have hr := hmore h' rounds
  rw [Nat.add_comm, hl] at hr
  exact Option.some.inj hr

theorem string2vector_returns (buf : Text) :
    string2vector ((cstring buf).length + 2) buf =
      some (words (cstring buf) ++
        if EndsInWord (cstring buf) then [] else [(words (cstring buf)).getLastD []]) := by
  by_cases h : EndsInWord (cstring buf)
  · rw [if_pos h, List.append_nil]
    exact pushWords_endsInWord h (Nat.lt_succ_self _) [] []
  · rw [if_neg h]
    exact pushWords_endsInBlank h (Nat.lt_succ_self _) [] []

theorem string2vector_words (buf : Text) :
    (∃ rounds v, string2vector rounds buf = some v) ∧
      ((∃ rounds, string2vector rounds buf = some (words (cstring buf))) ↔ EndsInWord (cstring buf)) := by
  have hret := string2vector_returns buf
  refine ⟨⟨_, _, hret⟩, ?_, ?_⟩
  · rintro ⟨rounds, h⟩
    by_contra hend
    have heq := pushWords_unique h hret
    rw [if_neg hend] at heq
    simp at heq
  · intro h
    rw [if_pos h, List.append_nil] at hret
    exact ⟨_, hret⟩

theorem string2vector_newline :
    string2vector 5 (lit "a b\n" ++ [0]) = some [lit "a", lit "b", lit "b"] ∧
      words (cstring (lit "a b\n" ++ [0])) = [lit "a", lit "b"] ∧
      ¬ ∃ rounds, string2vector rounds (lit "a b\n" ++ [0]) = some (words (cstring (lit "a b\n" ++ [0]))) := by
  have hrun : string2vector 5 (lit "a b\n" ++ [0]) = some [lit "a", lit "b", lit "b"] := by decide
  have hwords : words (cstring (lit "a b\n" ++ [0])) = [lit "a", lit "b"] := by decide
  refine ⟨hrun, hwords, ?_⟩
  rintro ⟨rounds, h⟩
  rw [hwords] at h
  exact absurd (pushWords_unique h hrun) (by decide)

end EmbeddedOS.Hw2
