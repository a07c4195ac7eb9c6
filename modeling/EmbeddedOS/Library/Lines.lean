import EmbeddedOS.Library.Scanning

namespace EmbeddedOS.CText

/-- The lines a `getline` loop yields: what follows the last newline is dropped. -/
def completeLines : Text → Text → List Text
  | _, [] => []
  | current, b :: t => if b = newline then current :: completeLines [] t else completeLines (current ++ [b]) t

def fileLines (t : Text) : List Text := completeLines [] t

/-- A string stream: the characters left, or `none` once nothing more can be read. -/
abbrev Stream := Option Text

def getline (delim : Byte) (ss : Stream) (str : Text) : Text × Stream :=
  match ss with
  | none => (str, none)
  | some t =>
    (t.takeWhile (fun b => b != delim),
      if delim ∈ t then some (t.dropWhile (fun b => b != delim)).tail else none)

theorem completeLines_append {l : Text} (hl : newline ∉ l) (current t : Text) :
    completeLines current (l ++ newline :: t) = (current ++ l) :: fileLines t := by
  induction l generalizing current with
  | nil => simp [completeLines, fileLines]
  | cons b l ih =>
    have hb : b ≠ newline := fun h => hl (by simp [h])
    have hm : newline ∉ l := fun h => hl (by simp [h])
    simp only [List.cons_append, completeLines, hb, ↓reduceIte, ih hm]
    simp

theorem fileLines_cons {l : Text} (hl : newline ∉ l) (t : Text) :
    fileLines (l ++ newline :: t) = l :: fileLines t := by
  simpa [fileLines] using completeLines_append hl [] t

theorem fileLines_flatten {ls : List Text} (h : ∀ l ∈ ls, newline ∉ l) :
    fileLines (ls.flatMap (fun l => l ++ [newline])) = ls := by
  induction ls with
  | nil => rfl
  | cons l ls ih =>
    have hl : newline ∉ l := h l (by simp)
    simp only [List.flatMap_cons, List.append_assoc, List.singleton_append]
    rw [fileLines_cons hl, ih (fun l hm => h l (by simp [hm]))]

theorem takeWhile_field {delim : Byte} {f : Text} (hf : delim ∉ f) (t : Text) :
    (f ++ delim :: t).takeWhile (fun b => b != delim) = f ∧
      (f ++ delim :: t).dropWhile (fun b => b != delim) = delim :: t := by
  have hp : ∀ b ∈ f, (b != delim) = true := by
    intro b hb
    simp only [bne_iff_ne]
    rintro rfl
    exact hf hb
  constructor
  · rw [List.takeWhile_append_of_pos hp]
    simp
  · rw [List.dropWhile_append_of_pos hp]
    simp

theorem getline_field {delim : Byte} {f : Text} (hf : delim ∉ f) (t str : Text) :
    getline delim (some (f ++ delim :: t)) str = (f, some t) := by
  obtain ⟨ht, hd⟩ := takeWhile_field hf t
  simp [getline, ht, hd]

theorem getline_last {delim : Byte} {f : Text} (hf : delim ∉ f) (str : Text) :
    getline delim (some f) str = (f, none) := by
  have ht : f.takeWhile (fun b => b != delim) = f := by
    rw [List.takeWhile_eq_self_iff]
    intro b hb
    simp only [bne_iff_ne]
    rintro rfl
    exact hf hb
  simp [getline, ht, hf]

/-- `fgets(s, size, fp)`: the string it stores and what is left of the file, or `none` at the end. -/
def fgets (size : ℕ) (fp : Text) : Option (Text × Text) :=
  if fp = [] then none
  else
    let line := fp.takeWhile (fun b => b != newline) ++ (if newline ∈ fp then [newline] else [])
    some (line.take (size - 1), fp.drop (line.take (size - 1)).length)

def IsLine (size : ℕ) (l : Text) : Prop := ∃ body, newline ∉ body ∧ l = body ++ [newline] ∧ l.length < size

theorem fgets_line {size : ℕ} {l : Text} (h : IsLine size l) (rest : Text) :
    fgets size (l ++ rest) = some (l, rest) := by
  obtain ⟨body, hbody, rfl, hlen⟩ := h
  have htext : body ++ [newline] ++ rest = body ++ newline :: rest := by simp
  have htake := (takeWhile_field hbody rest).1
  have hall : (body ++ [newline]).take (size - 1) = body ++ [newline] := List.take_of_length_le (by omega)
  rw [fgets, if_neg (by simp), htext, htake, if_pos (by simp)]
  simp only [hall, ← htext, List.drop_left]

def getWord (ss : Stream) (str : Text) : Text × Stream :=
  match ss.bind (scanWord none) with
  | none => (str, none)
  | some (w, rest) => (w, some rest)

/-- `ss >> v` for an `int`: `0` when there is no digit, the nearest bound when the number does not
fit, and `v` as it was when there is no character to read. -/
def getInt (ss : Stream) (v : ℤ) : ℤ × Stream :=
  match ss.map (fun t => t.dropWhile isspace) with
  | none => (v, none)
  | some [] => (v, none)
  | some t =>
    let s := scanSign t
    let ds := s.2.takeWhile isdigit
    let n : ℤ := if s.1 then -digitsValue ds else digitsValue ds
    if ds = [] then (0, none)
    else if IsInt32 n then (n, some (s.2.dropWhile isdigit))
    else (max (-2 ^ 31) (min n (2 ^ 31 - 1)), none)

def skipInt (ss : Stream) : Stream := (getInt ss 0).2

theorem getInt_skipInt (ss : Stream) (v : ℤ) : (getInt ss v).2 = skipInt ss := by
  unfold skipInt getInt
  cases ss.map (fun t => t.dropWhile isspace) with
  | none => rfl
  | some t => cases t <;> rfl

theorem isSome_of_skipInt {ss : Stream} (h : (skipInt ss).isSome = true) : ss.isSome = true := by
  cases ss with
  | none => cases h
  | some t => rfl

theorem getInt_eq {ss : Stream} (h : (skipInt ss).isSome = true) (v w : ℤ) : getInt ss v = getInt ss w := by
  rw [← getInt_skipInt ss v] at h
  unfold getInt at h ⊢
  cases ht : ss.map (fun t => t.dropWhile isspace) with
  | none => simp [ht] at h
  | some t =>
    cases t with
    | nil => simp [ht] at h
    | cons b t => rfl

theorem getWord_word {blanks w rest : Text} (hb : ∀ b ∈ blanks, isspace b = true) (hw : IsWord w)
    (hr : Stops isspace rest) (str : Text) :
    getWord (some (blanks ++ (w ++ rest))) str = (w, some rest) := by
  simp only [getWord, Option.bind_some, scanWord_word hb hw hr]

theorem getInt_numeral {blanks w rest : Text} {n : ℤ} (hb : ∀ b ∈ blanks, isspace b = true)
    (hw : Numeral n w) (hi : IsInt32 n) (hr : Stops (fun b => !isdigit b) rest) (v : ℤ) :
    getInt (some (blanks ++ (w ++ rest))) v = (n, some rest) := by
  have hdrop := dropWhile_blanks hb (hw.isWord.stops rest)
  have hne : w ++ rest ≠ [] := by simp [hw.isWord.1]
  obtain ⟨sign, ds, hs, hn, hd, rfl, rfl⟩ := hw
  have ht : (ds ++ rest).takeWhile isdigit = ds := takeWhile_append_stops hd hr (by simp)
  have hw : (ds ++ rest).dropWhile isdigit = rest := dropWhile_append_stops hd hr (by simp)
  simp only [getInt, Option.map_some, hdrop, scanSign_numeral hs hn hd, ht, hw, hn, hi,
    ↓reduceIte, decide_eq_true_eq]

end EmbeddedOS.CText
