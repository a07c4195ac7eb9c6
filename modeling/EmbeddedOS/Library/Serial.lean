import Mathlib

namespace EmbeddedOS.Serial

structure Wires where
  select : Bool
  clock : Bool
  data : Bool
  deriving DecidableEq

/-- `clock` is the level that was sampled last. -/
structure Receiver where
  clock : Bool
  bits : List Bool
  words : List (List Bool)

namespace Receiver

def sample (r : Receiver) (w : Wires) : Receiver :=
  if w.select then ⟨w.clock, if !r.clock && w.clock then r.bits ++ [w.data] else r.bits, r.words⟩
  else ⟨w.clock, [], if r.bits = [] then r.words else r.words ++ [r.bits]⟩

def hear (r : Receiver) (ws : List Wires) : Receiver := ws.foldl sample r

def Knows (r : Receiver) (w : Wires) : Prop := r.sample w = r

variable (r : Receiver)

@[simp] theorem hear_nil : r.hear [] = r := rfl

@[simp] theorem hear_cons (w : Wires) (ws : List Wires) : r.hear (w :: ws) = (r.sample w).hear ws := rfl

theorem hear_append (ws vs : List Wires) : r.hear (ws ++ vs) = (r.hear ws).hear vs := List.foldl_append ..

theorem sample_knows (w : Wires) : (r.sample w).Knows w := by
  obtain ⟨select, clock, data⟩ := w
  cases select with
  | false => simp [Knows, sample]
  | true => cases clock <;> simp [Knows, sample]

theorem Knows.hear {r : Receiver} {w : Wires} (h : r.Knows w) {ws : List Wires} (hws : ∀ v ∈ ws, v = w) :
    r.hear ws = r := by
  induction ws with
  | nil => rfl
  | cons v ws ih =>
    obtain rfl := hws v (List.mem_cons_self ..)
    rw [hear_cons, h]
    exact ih fun u hu => hws u (List.mem_cons_of_mem _ hu)

end Receiver

section Word

variable (bits : List Bool) (words : List (List Bool)) (data : Bool)

theorem sample_low (clock : Bool) : Receiver.sample ⟨clock, bits, words⟩ ⟨true, false, data⟩ = ⟨false, bits, words⟩ := by
  simp [Receiver.sample]

theorem sample_rise : Receiver.sample ⟨false, bits, words⟩ ⟨true, true, data⟩ = ⟨true, bits ++ [data], words⟩ := by
  simp [Receiver.sample]

theorem sample_high : Receiver.sample ⟨true, bits, words⟩ ⟨true, true, data⟩ = ⟨true, bits, words⟩ := by
  simp [Receiver.sample]

theorem sample_stop (clock : Bool) {bits : List Bool} (hbits : bits ≠ []) :
    Receiver.sample ⟨clock, bits, words⟩ ⟨false, false, data⟩ = ⟨false, [], words ++ [bits]⟩ := by
  simp [Receiver.sample, hbits]

end Word

end EmbeddedOS.Serial
