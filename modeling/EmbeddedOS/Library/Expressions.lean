import Mathlib

namespace EmbeddedOS.Expressions

inductive Operator where
  | plus
  | minus
  | times
  | divide
  deriving DecidableEq

inductive Product (α : Type*) where
  | operand (x : α)
  | times (p : Product α) (x : α)
  | divide (p : Product α) (x : α)

inductive Sum (α : Type*) where
  | product (p : Product α)
  | plus (s : Sum α) (p : Product α)
  | minus (s : Sum α) (p : Product α)

variable {α β : Type*}

def Product.first : Product α → α
  | operand x => x
  | times p _ => p.first
  | divide p _ => p.first

def Product.rest : Product α → List (Operator × α)
  | operand _ => []
  | times p x => p.rest ++ [(.times, x)]
  | divide p x => p.rest ++ [(.divide, x)]

def Sum.first : Sum α → α
  | product p => p.first
  | plus s _ => s.first
  | minus s _ => s.first

def Sum.rest : Sum α → List (Operator × α)
  | product p => p.rest
  | plus s p => s.rest ++ (.plus, p.first) :: p.rest
  | minus s p => s.rest ++ (.minus, p.first) :: p.rest

def Sum.push (s : Sum α) (o : Operator) (x : α) : Sum α :=
  match o, s with
  | .plus, s => plus s (.operand x)
  | .minus, s => minus s (.operand x)
  | .times, product p => product (.times p x)
  | .times, plus s p => plus s (.times p x)
  | .times, minus s p => minus s (.times p x)
  | .divide, product p => product (.divide p x)
  | .divide, plus s p => plus s (.divide p x)
  | .divide, minus s p => minus s (.divide p x)

def parse (x : α) (row : List (Operator × α)) : Sum α :=
  row.foldl (fun s q => s.push q.1 q.2) (.product (.operand x))

theorem push_first (s : Sum α) (o : Operator) (x : α) : (s.push o x).first = s.first := by
  cases o <;> cases s <;> rfl

theorem push_rest (s : Sum α) (o : Operator) (x : α) : (s.push o x).rest = s.rest ++ [(o, x)] := by
  cases o <;> cases s <;> simp [Sum.push, Sum.rest, Product.rest, Product.first]

theorem parse_row (x : α) (row : List (Operator × α)) : (parse x row).first = x ∧ (parse x row).rest = row := by
  induction row using List.reverseRecOn with
  | nil => exact ⟨rfl, rfl⟩
  | append_singleton row q ih =>
    obtain ⟨hfirst, hrest⟩ := ih
    have hpush : parse x (row ++ [q]) = (parse x row).push q.1 q.2 := by simp [parse]
    rw [hpush, push_first, push_rest, hfirst, hrest]
    exact ⟨rfl, rfl⟩

theorem push_product {f : Product α → Sum α} (hf : f = .product ∨ ∃ s, f = .plus s ∨ f = .minus s) (p : Product α) :
    p.rest.foldl (fun s q => s.push q.1 q.2) (f (.operand p.first)) = f p := by
  induction p with
  | operand x => rfl
  | times p x ih =>
    rw [Product.rest, List.foldl_append, Product.first, ih]
    rcases hf with rfl | ⟨s, rfl | rfl⟩ <;> rfl
  | divide p x ih =>
    rw [Product.rest, List.foldl_append, Product.first, ih]
    rcases hf with rfl | ⟨s, rfl | rfl⟩ <;> rfl

theorem parse_eq (s : Sum α) : parse s.first s.rest = s := by
  induction s with
  | product p => exact push_product (Or.inl rfl) p
  | plus s p ih =>
    rw [parse] at ih
    rw [parse, Sum.rest, List.foldl_append, Sum.first, ih]
    exact push_product (Or.inr ⟨s, Or.inl rfl⟩) p
  | minus s p ih =>
    rw [parse] at ih
    rw [parse, Sum.rest, List.foldl_append, Sum.first, ih]
    exact push_product (Or.inr ⟨s, Or.inr rfl⟩) p

section Values

variable (v : α → ℤ)

def Product.value : Product α → ℤ
  | operand x => v x
  | times p x => p.value * v x
  | divide p x => p.value.tdiv (v x)

def Sum.value : Sum α → ℤ
  | product p => p.value v
  | plus s p => s.value + p.value v
  | minus s p => s.value - p.value v

def Product.Defined : Product α → Prop
  | operand _ => True
  | times p _ => p.Defined
  | divide p x => p.Defined ∧ v x ≠ 0

def Sum.Defined : Sum α → Prop
  | product p => p.Defined v
  | plus s p => s.Defined ∧ p.Defined v
  | minus s p => s.Defined ∧ p.Defined v

variable (P : ℤ → Prop)

def Product.Within : Product α → Prop
  | operand x => P (v x)
  | times p x => p.Within ∧ P (v x) ∧ P (p.value v * v x)
  | divide p x => p.Within ∧ P (v x) ∧ P ((p.value v).tdiv (v x))

def Sum.Within : Sum α → Prop
  | product p => p.Within v P
  | plus s p => s.Within ∧ p.Within v P ∧ P (s.value v + p.value v)
  | minus s p => s.Within ∧ p.Within v P ∧ P (s.value v - p.value v)

instance Product.decidableDefined : (p : Product α) → Decidable (p.Defined v)
  | operand _ => inferInstanceAs (Decidable True)
  | times p _ => p.decidableDefined
  | divide p x =>
    have := p.decidableDefined
    inferInstanceAs (Decidable (p.Defined v ∧ v x ≠ 0))

instance Sum.decidableDefined : (s : Sum α) → Decidable (s.Defined v)
  | product p => inferInstanceAs (Decidable (p.Defined v))
  | plus s p =>
    have := s.decidableDefined
    inferInstanceAs (Decidable (s.Defined v ∧ p.Defined v))
  | minus s p =>
    have := s.decidableDefined
    inferInstanceAs (Decidable (s.Defined v ∧ p.Defined v))

instance Product.decidableWithin [DecidablePred P] : (p : Product α) → Decidable (p.Within v P)
  | operand x => inferInstanceAs (Decidable (P (v x)))
  | times p x =>
    have := p.decidableWithin
    inferInstanceAs (Decidable (p.Within v P ∧ P (v x) ∧ P (p.value v * v x)))
  | divide p x =>
    have := p.decidableWithin
    inferInstanceAs (Decidable (p.Within v P ∧ P (v x) ∧ P ((p.value v).tdiv (v x))))

instance Sum.decidableWithin [DecidablePred P] : (s : Sum α) → Decidable (s.Within v P)
  | product p => inferInstanceAs (Decidable (p.Within v P))
  | plus s p =>
    have := s.decidableWithin
    inferInstanceAs (Decidable (s.Within v P ∧ p.Within v P ∧ P (s.value v + p.value v)))
  | minus s p =>
    have := s.decidableWithin
    inferInstanceAs (Decidable (s.Within v P ∧ p.Within v P ∧ P (s.value v - p.value v)))

variable (wrap : ℤ → ℤ)

def Product.evaluate : Product α → Option ℤ
  | operand x => some (v x)
  | times p x => p.evaluate.map fun n => wrap (n * v x)
  | divide p x => p.evaluate.bind fun n => if v x = 0 then none else some (wrap (n.tdiv (v x)))

def Sum.evaluate : Sum α → Option ℤ
  | product p => p.evaluate v wrap
  | plus s p => s.evaluate.bind fun m => (p.evaluate v wrap).map fun n => wrap (m + n)
  | minus s p => s.evaluate.bind fun m => (p.evaluate v wrap).map fun n => wrap (m - n)

variable {v P wrap}

theorem Product.evaluate_exact (hwrap : ∀ n, P n → wrap n = n) {p : Product α} (hd : p.Defined v)
    (hw : p.Within v P) : p.evaluate v wrap = some (p.value v) := by
  induction p with
  | operand x => rfl
  | times p x ih =>
    obtain ⟨hp, -, hn⟩ := hw
    rw [Product.evaluate, ih hd hp, Option.map_some, hwrap _ hn]
    rfl
  | divide p x ih =>
    obtain ⟨hd, hx⟩ := hd
    obtain ⟨hp, -, hn⟩ := hw
    rw [Product.evaluate, ih hd hp, Option.bind_some, if_neg hx, hwrap _ hn]
    rfl

theorem Sum.evaluate_exact (hwrap : ∀ n, P n → wrap n = n) {s : Sum α} (hd : s.Defined v)
    (hw : s.Within v P) : s.evaluate v wrap = some (s.value v) := by
  induction s with
  | product p => exact p.evaluate_exact hwrap hd hw
  | plus s p ih =>
    obtain ⟨hds, hdp⟩ := hd
    obtain ⟨hs, hp, hn⟩ := hw
    rw [Sum.evaluate, ih hds hs, p.evaluate_exact hwrap hdp hp, Option.bind_some, Option.map_some, hwrap _ hn]
    rfl
  | minus s p ih =>
    obtain ⟨hds, hdp⟩ := hd
    obtain ⟨hs, hp, hn⟩ := hw
    rw [Sum.evaluate, ih hds hs, p.evaluate_exact hwrap hdp hp, Option.bind_some, Option.map_some, hwrap _ hn]
    rfl

end Values

theorem Product.evaluate_mem {v : α → ℤ} {P : ℤ → Prop} {wrap : ℤ → ℤ} (hv : ∀ x, P (v x))
    (hwrap : ∀ n, P (wrap n)) {p : Product α} {n : ℤ} (h : p.evaluate v wrap = some n) : P n := by
  cases p with
  | operand x =>
    obtain rfl := Option.some.inj h
    exact hv x
  | times p x =>
    obtain ⟨m, -, rfl⟩ := Option.map_eq_some_iff.mp h
    exact hwrap _
  | divide p x =>
    obtain ⟨m, -, hm⟩ := Option.bind_eq_some_iff.mp h
    split_ifs at hm
    obtain rfl := Option.some.inj hm
    exact hwrap _

def Sum.size : Sum α → ℕ
  | product _ => 1
  | plus s _ => s.size + 1
  | minus s _ => s.size + 1

theorem Sum.size_le (s : Sum α) : s.size ≤ s.rest.length + 1 := by
  induction s with
  | product p => exact Nat.le_add_left 1 _
  | plus s p ih =>
    simp only [Sum.size, Sum.rest, List.length_append, List.length_cons]
    omega
  | minus s p ih =>
    simp only [Sum.size, Sum.rest, List.length_append, List.length_cons]
    omega

def Product.map (f : α → β) : Product α → Product β
  | operand x => .operand (f x)
  | times p x => .times (p.map f) (f x)
  | divide p x => .divide (p.map f) (f x)

def Sum.map (f : α → β) : Sum α → Sum β
  | product p => .product (p.map f)
  | plus s p => .plus (s.map f) (p.map f)
  | minus s p => .minus (s.map f) (p.map f)

def Sum.operands (s : Sum α) : List α := s.first :: s.rest.map Prod.snd

theorem Product.map_row (f : α → β) (p : Product α) :
    (p.map f).first = f p.first ∧ (p.map f).rest = p.rest.map fun q => (q.1, f q.2) := by
  induction p with
  | operand x => exact ⟨rfl, rfl⟩
  | times p x ih => exact ⟨ih.1, by simp [Product.map, Product.rest, ih.2]⟩
  | divide p x ih => exact ⟨ih.1, by simp [Product.map, Product.rest, ih.2]⟩

theorem Sum.map_row (f : α → β) (s : Sum α) :
    (s.map f).first = f s.first ∧ (s.map f).rest = s.rest.map fun q => (q.1, f q.2) := by
  induction s with
  | product p => exact p.map_row f
  | plus s p ih => exact ⟨ih.1, by simp [Sum.map, Sum.rest, ih.2, (p.map_row f).1, (p.map_row f).2]⟩
  | minus s p ih => exact ⟨ih.1, by simp [Sum.map, Sum.rest, ih.2, (p.map_row f).1, (p.map_row f).2]⟩

theorem Product.evaluate_map (f : α → β) (v : β → ℤ) (wrap : ℤ → ℤ) (p : Product α) :
    (p.map f).evaluate v wrap = p.evaluate (fun x => v (f x)) wrap := by
  induction p with
  | operand x => rfl
  | times p x ih => simp [Product.map, Product.evaluate, ih]
  | divide p x ih => simp [Product.map, Product.evaluate, ih]

theorem Sum.evaluate_map (f : α → β) (v : β → ℤ) (wrap : ℤ → ℤ) (s : Sum α) :
    (s.map f).evaluate v wrap = s.evaluate (fun x => v (f x)) wrap := by
  induction s with
  | product p => exact p.evaluate_map f v wrap
  | plus s p ih => simp [Sum.map, Sum.evaluate, ih, p.evaluate_map]
  | minus s p ih => simp [Sum.map, Sum.evaluate, ih, p.evaluate_map]

theorem Product.evaluate_congr {v w : α → ℤ} (wrap : ℤ → ℤ) {p : Product α} (hfirst : v p.first = w p.first)
    (hrest : ∀ q ∈ p.rest, v q.2 = w q.2) : p.evaluate v wrap = p.evaluate w wrap := by
  induction p with
  | operand x => exact congrArg some hfirst
  | times p x ih =>
    have hx : v x = w x := hrest (.times, x) (by simp [Product.rest])
    rw [Product.evaluate, Product.evaluate, ih hfirst (fun q hq => hrest q (by simp [Product.rest, hq])), hx]
  | divide p x ih =>
    have hx : v x = w x := hrest (.divide, x) (by simp [Product.rest])
    rw [Product.evaluate, Product.evaluate, ih hfirst (fun q hq => hrest q (by simp [Product.rest, hq])), hx]

theorem Sum.evaluate_congr {v w : α → ℤ} (wrap : ℤ → ℤ) {s : Sum α} (h : ∀ x ∈ s.operands, v x = w x) :
    s.evaluate v wrap = s.evaluate w wrap := by
  have hfirst : v s.first = w s.first := h _ (by simp [Sum.operands])
  have hrest : ∀ q ∈ s.rest, v q.2 = w q.2 := by
    intro q hq
    apply h
    exact List.mem_cons_of_mem _ (List.mem_map_of_mem hq)
  clear h
  induction s with
  | product p => exact p.evaluate_congr wrap hfirst hrest
  | plus s p ih =>
    have hp : p.evaluate v wrap = p.evaluate w wrap :=
      p.evaluate_congr wrap (hrest (.plus, p.first) (by simp [Sum.rest])) fun q hq => hrest q (by simp [Sum.rest, hq])
    rw [Sum.evaluate, Sum.evaluate, ih hfirst (fun q hq => hrest q (by simp [Sum.rest, hq])), hp]
  | minus s p ih =>
    have hp : p.evaluate v wrap = p.evaluate w wrap :=
      p.evaluate_congr wrap (hrest (.minus, p.first) (by simp [Sum.rest])) fun q hq => hrest q (by simp [Sum.rest, hq])
    rw [Sum.evaluate, Sum.evaluate, ih hfirst (fun q hq => hrest q (by simp [Sum.rest, hq])), hp]

end EmbeddedOS.Expressions
