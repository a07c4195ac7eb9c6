import EmbeddedOS.Library.Lines

/-!
String streams with their state. `Stream` of the line functions forgets when the end was noticed;
a loop on `eof()` does not.
-/

namespace EmbeddedOS.CText

/-- The characters left in a string stream, and two of its state bits. -/
structure StringStream where
  left : Text
  eofbit : Bool
  failbit : Bool

namespace StringStream

def ofText (t : Text) : StringStream := ⟨t, false, false⟩

def good (ss : StringStream) : Bool := !ss.eofbit && !ss.failbit

/-- `ss >> str`. The end is noticed when it is reached while blanks are skipped or a word is read. -/
def extract (ss : StringStream) (str : Text) : Text × StringStream :=
  if ss.good then
    match scanWord none ss.left with
    | none => (str, ⟨[], true, true⟩)
    | some (w, rest) => (w, ⟨rest, rest.isEmpty, false⟩)
  else (str, { ss with failbit := true })

theorem extract_blanks {t : Text} (ht : Blanks t) (str : Text) :
    (ofText t).extract str = (str, ⟨[], true, true⟩) := by
  have hdrop : t.dropWhile isspace = [] := List.dropWhile_eq_nil_iff.mpr ht
  simp [extract, ofText, good, scanWord, hdrop]

theorem extract_last {blanks w : Text} (hb : Blanks blanks) (hw : IsWord w) (str : Text) :
    (ofText (blanks ++ w)).extract str = (w, ⟨[], true, false⟩) := by
  have hscan := scanWord_word hb hw (stops_nil isspace)
  rw [List.append_nil] at hscan
  simp [extract, ofText, good, hscan]

theorem extract_word {blanks w rest : Text} {b : Byte} (hb : Blanks blanks) (hw : IsWord w)
    (hs : isspace b = true) (str : Text) :
    (ofText (blanks ++ (w ++ b :: rest))).extract str = (w, ofText (b :: rest)) := by
  have hscan := scanWord_word hb hw (stops_cons (t := rest) hs)
  simp [extract, ofText, good, hscan]

end StringStream

def words (t : Text) : List Text := (t.splitOnP isspace).filter fun w => w ≠ []

theorem words_append {b : Byte} (hb : isspace b = true) (t t' : Text) :
    words (t ++ b :: t') = words t ++ words t' := by
  rw [words, List.splitOnP_append_cons t t' hb, List.filter_append]
  rfl

theorem words_cons {b : Byte} (hb : isspace b = true) (t : Text) : words (b :: t) = words t :=
  words_append hb [] t

theorem words_blanks {blanks : Text} (hb : Blanks blanks) (t : Text) : words (blanks ++ t) = words t := by
  induction blanks with
  | nil => rfl
  | cons b blanks ih =>
    rw [List.cons_append, words_cons (hb b (by simp))]
    apply ih
    intro x hx
    exact hb x (by simp [hx])

theorem words_of_blanks {blanks : Text} (hb : Blanks blanks) : words blanks = [] := by
  have h := words_blanks hb []
  rw [List.append_nil] at h
  exact h

theorem words_word {w : Text} (hw : IsWord w) : words w = [w] := by
  rw [words, List.splitOnP_eq_singleton hw.2]
  simp [hw.1]

inductive Shape : Text → Prop
  | blanks {t : Text} : Blanks t → Shape t
  | last {blanks w : Text} : Blanks blanks → IsWord w → Shape (blanks ++ w)
  | more {blanks w rest : Text} {b : Byte} :
    Blanks blanks → IsWord w → isspace b = true → Shape (blanks ++ (w ++ b :: rest))

theorem shape (t : Text) : Shape t := by
  have ht : t.takeWhile isspace ++ t.dropWhile isspace = t := List.takeWhile_append_dropWhile
  have hb : Blanks (t.takeWhile isspace) := fun b hm => List.mem_takeWhile_imp hm
  cases hu : t.dropWhile isspace with
  | nil =>
    rw [hu, List.append_nil] at ht
    rw [← ht]
    exact Shape.blanks hb
  | cons x u =>
    have hx : isspace x = false := by
      have h := List.head_dropWhile_not isspace (l := t) (by simp [hu])
      simpa [hu] using h
    have hw : IsWord ((x :: u).takeWhile fun b => !isspace b) := by
      constructor
      · simp [hx]
      · intro b hm
        simpa using List.mem_takeWhile_imp hm
    have hv : (x :: u).takeWhile (fun b => !isspace b) ++ (x :: u).dropWhile (fun b => !isspace b) = x :: u :=
      List.takeWhile_append_dropWhile
    rw [hu, ← hv] at ht
    rw [← ht]
    cases hr : (x :: u).dropWhile fun b => !isspace b with
    | nil =>
      rw [List.append_nil]
      exact Shape.last hb hw
    | cons b rest =>
      have h := List.head_dropWhile_not (fun b => !isspace b) (l := x :: u) (by simp [hr])
      exact Shape.more hb hw (by simpa [hr] using h)

def EndsInWord (t : Text) : Prop := ∃ b ∈ t.getLast?, isspace b = false

instance (t : Text) : Decidable (EndsInWord t) := inferInstanceAs (Decidable (∃ b ∈ t.getLast?, _))

theorem not_endsInWord {t : Text} (ht : Blanks t) : ¬ EndsInWord t := by
  rintro ⟨b, hb, hs⟩
  rw [ht b (List.mem_of_getLast? hb)] at hs
  cases hs

theorem endsInWord_word {w : Text} (hw : IsWord w) (t : Text) : EndsInWord (t ++ w) := by
  refine ⟨w.getLast hw.1, ?_, hw.2 _ (List.getLast_mem hw.1)⟩
  rw [List.getLast?_append_of_ne_nil _ hw.1, List.getLast?_eq_some_getLast hw.1]
  rfl

theorem endsInWord_append {t : Text} (ht : t ≠ []) (t' : Text) : EndsInWord (t' ++ t) ↔ EndsInWord t := by
  simp only [EndsInWord, List.getLast?_append_of_ne_nil _ ht]

end EmbeddedOS.CText
