import EmbeddedOS.Board.Lights
import EmbeddedOS.Library.Serial

/-!
What the EEPROM hears. `EE_ISSUE_CMD` changes `io_reg0`, which is not the register: an interrupt of the digits must fall
into each of its delays to bring the change to the chip.
-/

namespace EmbeddedOS.Board

open Runs Serial

def EE_CMD_READ : BitVec 32 := 0x30000
def EE_CMD_EWEN : BitVec 32 := 0x26000
def EE_CMD_WRITE : BitVec 32 := 0x28000
def EE_CMD_EWDS : BitVec 32 := 0x20000

/-- The loop, with the number of rounds left. `CPLD_STATUS idx` is what the register holds in round `idx`. -/
def issueLoop (command : BitVec 32) (CPLD_STATUS : ℕ → BitVec 16) : ℕ → ℕ → BitVec 32 → List EeStep
  | 0, _, _ => []
  | rounds + 1, idx, mask =>
    .data (mask &&& command != 0) :: .clock_up :: .sample (CPLD_STATUS idx) :: .clock_down ::
      issueLoop command CPLD_STATUS rounds (idx + 1) (mask >>> 1)

def EE_ISSUE_CMD (command : BitVec 32) (CPLD_STATUS : ℕ → BitVec 16) : List EeStep :=
  .select :: .clock_down :: (issueLoop command CPLD_STATUS 18 0 0x20000 ++ [.stop])

/-- The `ioctl`s, with what `CPLD_STATUS` holds in the rounds of their commands. -/
inductive EeCall where
  | set (addr data : BitVec 8) (CPLD_STATUS : Fin 3 → ℕ → BitVec 16)
  | get (addr : BitVec 8) (CPLD_STATUS : ℕ → BitVec 16)

def EE_WRITE (addr data : BitVec 8) (CPLD_STATUS : Fin 3 → ℕ → BitVec 16) : List EeStep :=
  let addr1 := addr.setWidth 32
  let data1 := data.setWidth 32
  EE_ISSUE_CMD (EE_CMD_EWEN ||| 0 ||| 0) (CPLD_STATUS 0) ++
    EE_ISSUE_CMD (EE_CMD_WRITE ||| (addr1 <<< 8) ||| data1) (CPLD_STATUS 1) ++
    EE_ISSUE_CMD (EE_CMD_EWDS ||| 0 ||| 0) (CPLD_STATUS 2)

def EE_READ (addr : BitVec 8) (CPLD_STATUS : ℕ → BitVec 16) : List EeStep :=
  let addr1 := addr.setWidth 32
  EE_ISSUE_CMD (EE_CMD_READ ||| (addr1 <<< 8) ||| 0) CPLD_STATUS

def EeCall.steps : EeCall → List EeStep
  | set addr data CPLD_STATUS => EE_WRITE addr data CPLD_STATUS
  | get addr CPLD_STATUS => EE_READ addr CPLD_STATUS

def wires (IO_REG0 : BitVec 16) : Wires := ⟨IO_REG0.getLsbD 12, IO_REG0.getLsbD 13, IO_REG0.getLsbD 14⟩

def samples (tr : List (Moment Lights LightCall ℤ)) : List Wires := tr.map fun q => wires q.post.IO_REG0

def IsEe : LightCall → Prop
  | .ee _ => True
  | _ => False

def Refreshed (tr : List (Moment Lights LightCall ℤ)) : Prop := ∃ q ∈ tr, isIrq q.event = true ∧ q.pre.OMCR4 ≠ 0

/-- Each step comes with the calls of the others before the next step. All but `sample` are followed by a delay. -/
def Paced (s : Lights) : List (EeStep × List LightCall) → Prop
  | [] => True
  | p :: ps =>
    ((∀ status, p.1 ≠ .sample status) → Refreshed (lights.trace (p.1.run s) p.2)) ∧
      Paced (lights.run (p.1.run s) p.2) ps

def callsOf (ps : List (EeStep × List LightCall)) : List LightCall := ps.flatMap fun p => .ee p.1 :: p.2

def EeStep.reg (io_reg0 : BitVec 16) : EeStep → BitVec 16
  | select => io_reg0 ||| 0x1000
  | clock_down => io_reg0 &&& 0xdfff
  | data bit => if bit then io_reg0 ||| 0x4000 else io_reg0 &&& 0xbfff
  | clock_up => io_reg0 ||| 0x2000
  | sample _ => io_reg0
  | stop => io_reg0 &&& 0xcfff

def EeStep.shift (d_out : BitVec 16) : EeStep → BitVec 16
  | sample CPLD_STATUS => (d_out <<< 1) ||| (CPLD_STATUS &&& 1)
  | _ => d_out

def line (io_reg0 : BitVec 16) : List EeStep → List Wires
  | [] => []
  | e :: es => wires (e.reg io_reg0) :: line (e.reg io_reg0) es

theorem EeStep.run_reg (s : Lights) (e : EeStep) : (e.run s).io_reg0 = e.reg s.io_reg0 := by
  cases e <;> rfl

theorem EeStep.reg_sample (io_reg0 status : BitVec 16) : (EeStep.sample status).reg io_reg0 = io_reg0 := rfl

theorem EeStep.run_IO_REG0 (s : Lights) (e : EeStep) : (e.run s).IO_REG0 = s.IO_REG0 := by
  cases e <;> rfl

structure Settled (s : Lights) (r : Receiver) : Prop where
  shown : wires s.IO_REG0 = wires s.io_reg0
  known : r.Knows (wires s.io_reg0)

theorem wires_irq (io_reg0 : BitVec 16) (j : Fin 4) (d : BitVec 8) :
    wires (io_reg0 ||| tbl_7seg_com j ||| d.setWidth 16) = wires io_reg0 := by
  have hcom : ∀ j : Fin 4, ∀ k : Fin 3, (tbl_7seg_com j).getLsbD (12 + k) = false := by decide
  have h12 := hcom j 0
  have h13 := hcom j 1
  have h14 := hcom j 2
  simp only [Fin.isValue, Fin.val_zero, Fin.val_one, Fin.val_two, Nat.reduceAdd] at h12 h13 h14
  simp only [wires, BitVec.getLsbD_or, h12, h13, h14]
  simp

theorem other_call (s : Lights) {e : LightCall} (he : ¬ IsEe e) :
    (lights.step s e).1.io_reg0 = s.io_reg0 ∧ (lights.step s e).1.d_out = s.d_out ∧
      if isIrq e = true ∧ s.OMCR4 ≠ 0 then wires (lights.step s e).1.IO_REG0 = wires s.io_reg0
      else (lights.step s e).1.IO_REG0 = s.IO_REG0 := by
  cases e with
  | led cmd led =>
    simp only [isIrq, Bool.false_eq_true, false_and, ↓reduceIte]
    cases cmd with
    | set => exact ⟨rfl, rfl, rfl⟩
    | bit_set =>
      simp only [lights, Creator_pxa270_led_cmd]
      split_ifs <;> exact ⟨rfl, rfl, rfl⟩
    | bit_clear =>
      simp only [lights, Creator_pxa270_led_cmd]
      split_ifs <;> exact ⟨rfl, rfl, rfl⟩
  | seg_on =>
    simp only [isIrq, Bool.false_eq_true, false_and, ↓reduceIte, lights]
    split_ifs <;> exact ⟨rfl, rfl, rfl⟩
  | seg_off =>
    simp only [isIrq, Bool.false_eq_true, false_and, ↓reduceIte, lights]
    split_ifs <;> exact ⟨rfl, rfl, rfl⟩
  | seg_set info =>
    simp only [isIrq, Bool.false_eq_true, false_and, ↓reduceIte, lights, _7SEG_put_led]
    split_ifs <;> exact ⟨rfl, rfl, rfl⟩
  | scan =>
    simp only [isIrq, Bool.false_eq_true, false_and, ↓reduceIte]
    exact ⟨rfl, rfl, rfl⟩
  | irq =>
    simp only [isIrq, true_and, lights]
    by_cases hzero : s.OMCR4 = 0
    · rw [if_pos hzero, if_neg (by simpa using hzero)]
      exact ⟨rfl, rfl, rfl⟩
    · rw [if_neg hzero, if_pos hzero]
      exact ⟨rfl, rfl, wires_irq ..⟩
  | ee e => exact (he trivial).elim

theorem Settled.others {s : Lights} {r : Receiver} (h : Settled s r) {cs : List LightCall} (hcs : ∀ e ∈ cs, ¬ IsEe e) :
    r.hear (samples (lights.trace s cs)) = r ∧ Settled (lights.run s cs) r ∧
      (lights.run s cs).io_reg0 = s.io_reg0 := by
  induction cs generalizing s with
  | nil => exact ⟨rfl, h, rfl⟩
  | cons e cs ih =>
    obtain ⟨hreg, -, hshown⟩ := other_call s (hcs e (List.mem_cons_self ..))
    have hwires : wires (lights.step s e).1.IO_REG0 = wires s.io_reg0 := by
      split_ifs at hshown
      · exact hshown
      · rw [hshown]
        exact h.shown
    have hsettled : Settled (lights.step s e).1 r := by
      refine ⟨?_, ?_⟩
      · rw [hwires, hreg]
      · rw [hreg]
        exact h.known
    obtain ⟨hhear, hrest, hregs⟩ := ih hsettled fun f hf => hcs f (List.mem_cons_of_mem _ hf)
    refine ⟨?_, hrest, hregs.trans hreg⟩
    rw [Machine.trace, samples, List.map_cons, Receiver.hear_cons, Machine.moment_post, hwires, h.known]
    exact hhear

theorem delay_heard {s : Lights} {r : Receiver} (h : r.Knows (wires s.IO_REG0)) {cs : List LightCall}
    (hcs : ∀ e ∈ cs, ¬ IsEe e) (hirq : Refreshed (lights.trace s cs)) :
    r.hear (samples (lights.trace s cs)) = r.sample (wires s.io_reg0) ∧
      Settled (lights.run s cs) (r.sample (wires s.io_reg0)) ∧ (lights.run s cs).io_reg0 = s.io_reg0 := by
  induction cs generalizing s with
  | nil =>
    obtain ⟨q, hq, -⟩ := hirq
    cases hq
  | cons e cs ih =>
    have hrest : ∀ f ∈ cs, ¬ IsEe f := fun f hf => hcs f (List.mem_cons_of_mem _ hf)
    obtain ⟨hreg, -, hshown⟩ := other_call s (hcs e (List.mem_cons_self ..))
    rw [Machine.trace, samples, List.map_cons, Receiver.hear_cons, Machine.moment_post]
    by_cases hnow : isIrq e = true ∧ s.OMCR4 ≠ 0
    · rw [if_pos hnow] at hshown
      have hsettled : Settled (lights.step s e).1 (r.sample (wires s.io_reg0)) := by
        refine ⟨?_, ?_⟩
        · rw [hshown, hreg]
        · rw [hreg]
          exact r.sample_knows _
      obtain ⟨hhear, hafter, hregs⟩ := hsettled.others hrest
      rw [hshown]
      exact ⟨hhear, hafter, hregs.trans hreg⟩
    · rw [if_neg hnow] at hshown
      have hlater : Refreshed (lights.trace (lights.step s e).1 cs) := by
        obtain ⟨q, hq, hq'⟩ := hirq
        rcases List.mem_cons.mp hq with rfl | hq
        · exact absurd hq' hnow
        · exact ⟨q, hq, hq'⟩
      have hknows : r.Knows (wires (lights.step s e).1.IO_REG0) := by
        rw [hshown]
        exact h
      obtain ⟨hhear, hafter, hregs⟩ := ih hknows hrest hlater
      rw [hreg] at hhear hafter hregs
      rw [hshown, h]
      exact ⟨hhear, hafter, hregs⟩

theorem step_heard {s : Lights} {r : Receiver} (h : Settled s r) (e : EeStep) {cs : List LightCall}
    (hcs : ∀ f ∈ cs, ¬ IsEe f)
    (hirq : (∀ status, e ≠ .sample status) → Refreshed (lights.trace (e.run s) cs)) :
    let r' := r.sample (wires (e.reg s.io_reg0))
    r.hear (samples (lights.trace s (.ee e :: cs))) = r' ∧ Settled (lights.run s (.ee e :: cs)) r' ∧
      (lights.run s (.ee e :: cs)).io_reg0 = e.reg s.io_reg0 := by
  intro r'
  have hfirst : r.hear (samples (lights.trace s (.ee e :: cs))) = r.hear (samples (lights.trace (e.run s) cs)) := by
    have hsame : wires (lights.step s (.ee e)).1.IO_REG0 = wires s.io_reg0 := by
      rw [← h.shown]
      exact congrArg wires (e.run_IO_REG0 s)
    rw [Machine.trace, samples, List.map_cons, Receiver.hear_cons, Machine.moment_post, hsame, h.known]
    rfl
  have hknows : r.Knows (wires (e.run s).IO_REG0) := by
    rw [e.run_IO_REG0, h.shown]
    exact h.known
  rw [hfirst]
  by_cases hsample : ∃ status, e = .sample status
  · obtain ⟨status, rfl⟩ := hsample
    have hsettled : Settled (EeStep.run s (.sample status)) r := ⟨h.shown, h.known⟩
    have hr : r' = r := h.known
    rw [hr]
    exact hsettled.others hcs
  · have hdelay := delay_heard hknows hcs (hirq fun status he => hsample ⟨status, he⟩)
    rw [e.run_reg] at hdelay
    exact hdelay

theorem paced_heard {s : Lights} {r : Receiver} (h : Settled s r) {ps : List (EeStep × List LightCall)}
    (hcs : ∀ p ∈ ps, ∀ f ∈ p.2, ¬ IsEe f) (hpaced : Paced s ps) :
    r.hear (samples (lights.trace s (callsOf ps))) = r.hear (line s.io_reg0 (ps.map Prod.fst)) := by
  induction ps generalizing s r with
  | nil => rfl
  | cons p ps ih =>
    obtain ⟨e, cs⟩ := p
    obtain ⟨hirq, hlater⟩ := hpaced
    obtain ⟨hhear, hsettled, hreg⟩ := step_heard h e (hcs _ (List.mem_cons_self ..)) hirq
    have hrest := ih hsettled (fun p hp => hcs p (List.mem_cons_of_mem _ hp)) hlater
    have hcalls : callsOf ((e, cs) :: ps) = (.ee e :: cs) ++ callsOf ps := rfl
    rw [hcalls, Machine.trace_append, samples, List.map_append, Receiver.hear_append, ← samples, ← samples, hhear, hrest,
      hreg]
    rfl

section Wires

variable (io_reg0 : BitVec 16)

theorem wires_select : wires (EeStep.select.reg io_reg0) = { wires io_reg0 with select := true } := by
  simp [wires, EeStep.reg]

theorem wires_down : wires (EeStep.clock_down.reg io_reg0) = { wires io_reg0 with clock := false } := by
  simp [wires, EeStep.reg]

theorem wires_data (b : Bool) : wires ((EeStep.data b).reg io_reg0) = { wires io_reg0 with data := b } := by
  cases b <;> simp [wires, EeStep.reg]

theorem wires_up : wires (EeStep.clock_up.reg io_reg0) = { wires io_reg0 with clock := true } := by
  simp [wires, EeStep.reg]

theorem wires_stop : wires (EeStep.stop.reg io_reg0) = { wires io_reg0 with select := false, clock := false } := by
  simp [wires, EeStep.reg]

end Wires

def Idle (io_reg0 : BitVec 16) : Prop := (wires io_reg0).select = false ∧ (wires io_reg0).clock = false

def Selected (io_reg0 : BitVec 16) : Prop := (wires io_reg0).select = true ∧ (wires io_reg0).clock = false

def regAfter (io_reg0 : BitVec 16) (es : List EeStep) : BitVec 16 := es.foldl EeStep.reg io_reg0

theorem line_append (io_reg0 : BitVec 16) (es fs : List EeStep) :
    line io_reg0 (es ++ fs) = line io_reg0 es ++ line (regAfter io_reg0 es) fs := by
  induction es generalizing io_reg0 with
  | nil => rfl
  | cons e es ih => exact congrArg (wires (e.reg io_reg0) :: ·) (ih (e.reg io_reg0))

theorem regAfter_append (io_reg0 : BitVec 16) (es fs : List EeStep) :
    regAfter io_reg0 (es ++ fs) = regAfter (regAfter io_reg0 es) fs := List.foldl_append ..

def bitsDown {w : ℕ} (x : BitVec w) : ℕ → List Bool
  | 0 => []
  | n + 1 => x.getLsbD n :: bitsDown x n

def commandBits (command : BitVec 32) : List Bool := bitsDown command 18

section Word

variable {io_reg0 : BitVec 16} (bits : List Bool) (words : List (List Bool))

theorem bit_heard (h : Selected io_reg0) (b : Bool) (status : BitVec 16) :
    let es := [EeStep.data b, .clock_up, .sample status, .clock_down]
    Receiver.hear ⟨false, bits, words⟩ (line io_reg0 es) = ⟨false, bits ++ [b], words⟩ ∧
      Selected (regAfter io_reg0 es) := by
  intro es
  have hline : line io_reg0 es = [⟨true, false, b⟩, ⟨true, true, b⟩, ⟨true, true, b⟩, ⟨true, false, b⟩] := by
    simp only [es, line, EeStep.reg_sample, wires_down, wires_up, wires_data, h.1, h.2]
  refine ⟨?_, ?_⟩
  · rw [hline]
    simp only [Receiver.hear_cons, Receiver.hear_nil, sample_low, sample_rise, sample_high]
  · change Selected (EeStep.clock_down.reg _)
    refine ⟨?_, ?_⟩
    · simp only [EeStep.reg_sample, wires_down, wires_up, wires_data, h.1]
    · rw [wires_down]

theorem loop_heard (command : BitVec 32) (CPLD_STATUS : ℕ → BitVec 16) {rounds : ℕ} (hrounds : rounds < 32) (idx : ℕ)
    (h : Selected io_reg0) :
    let es := issueLoop command CPLD_STATUS rounds idx (BitVec.twoPow 32 rounds >>> 1)
    Receiver.hear ⟨false, bits, words⟩ (line io_reg0 es) = ⟨false, bits ++ bitsDown command rounds, words⟩ ∧
      Selected (regAfter io_reg0 es) := by
  induction rounds generalizing io_reg0 bits idx with
  | zero => exact ⟨by simp [issueLoop, line, bitsDown], h⟩
  | succ rounds ih =>
    intro es
    have hmask : BitVec.twoPow 32 (rounds + 1) >>> 1 = BitVec.twoPow 32 rounds := by
      apply BitVec.eq_of_getLsbD_eq
      intro j hj
      rw [BitVec.getLsbD_ushiftRight, BitVec.getLsbD_twoPow, BitVec.getLsbD_twoPow, Bool.eq_iff_iff]
      simp only [Bool.and_eq_true, decide_eq_true_eq]
      omega
    have hbit : (BitVec.twoPow 32 rounds &&& command != 0) = command.getLsbD rounds := by
      have hnonzero : BitVec.twoPow 32 rounds ≠ 0 := by
        intro hzero
        have hone := congrArg (fun x => x.getLsbD rounds) hzero
        rw [BitVec.getLsbD_twoPow] at hone
        simp at hone
        omega
      rw [BitVec.twoPow_and]
      cases command.getLsbD rounds with
      | false => rfl
      | true => exact bne_iff_ne.mpr hnonzero
    have hes : es = [EeStep.data (command.getLsbD rounds), .clock_up, .sample (CPLD_STATUS idx), .clock_down] ++
        issueLoop command CPLD_STATUS rounds (idx + 1) (BitVec.twoPow 32 rounds >>> 1) := by
      change issueLoop _ _ _ _ _ = _
      rw [hmask, issueLoop, hbit]
      rfl
    obtain ⟨hhear, hselected⟩ := bit_heard bits words h (command.getLsbD rounds) (CPLD_STATUS idx)
    obtain ⟨hrest, hend⟩ := ih (bits ++ [command.getLsbD rounds]) (by omega) (idx + 1) hselected
    rw [hes, line_append, Receiver.hear_append, regAfter_append, hhear, hrest, List.append_assoc]
    exact ⟨rfl, hend⟩

theorem command_heard (command : BitVec 32) (CPLD_STATUS : ℕ → BitVec 16) (h : Idle io_reg0) :
    Receiver.hear ⟨false, [], words⟩ (line io_reg0 (EE_ISSUE_CMD command CPLD_STATUS)) =
        ⟨false, [], words ++ [commandBits command]⟩ ∧
      Idle (regAfter io_reg0 (EE_ISSUE_CMD command CPLD_STATUS)) := by
  have hselect : Selected (EeStep.clock_down.reg (EeStep.select.reg io_reg0)) := by
    refine ⟨?_, ?_⟩
    · simp only [wires_down, wires_select]
    · rw [wires_down]
  have hloop := loop_heard [] words command CPLD_STATUS (by norm_num : 18 < 32) 0 hselect
  have hmask : BitVec.twoPow 32 18 >>> 1 = 0x20000 := by decide
  rw [hmask] at hloop
  obtain ⟨hhear, hselected⟩ := hloop
  have hfirst : wires (EeStep.select.reg io_reg0) = ⟨true, false, (wires io_reg0).data⟩ := by
    simp only [wires_select, h.2]
  have hsecond : wires (EeStep.clock_down.reg (EeStep.select.reg io_reg0)) = ⟨true, false, (wires io_reg0).data⟩ := by
    simp only [wires_down, wires_select]
  refine ⟨?_, ?_⟩
  · rw [EE_ISSUE_CMD, line, line, Receiver.hear_cons, Receiver.hear_cons, hfirst, hsecond, sample_low, sample_low,
      line_append, Receiver.hear_append, hhear, line, line, Receiver.hear_cons, Receiver.hear_nil, wires_stop]
    exact sample_stop words _ false (by simp [bitsDown])
  · have hend : regAfter io_reg0 (EE_ISSUE_CMD command CPLD_STATUS) = EeStep.stop.reg (regAfter
        (EeStep.clock_down.reg (EeStep.select.reg io_reg0)) (issueLoop command CPLD_STATUS 18 0 0x20000)) :=
      regAfter_append ..
    rw [hend]
    refine ⟨?_, ?_⟩
    · rw [wires_stop]
    · rw [wires_stop]

end Word

def commandsOf : EeCall → List (List Bool)
  | .set addr data _ => [
      [true, false, false, true, true] ++ List.replicate 13 false,
      [true, false, true] ++ bitsDown addr 7 ++ bitsDown data 8,
      [true, false, false, false, false] ++ List.replicate 13 false]
  | .get addr _ => [[true, true, addr.getLsbD 7] ++ bitsDown addr 7 ++ List.replicate 8 false]

theorem ewen_bits : commandBits (EE_CMD_EWEN ||| 0 ||| 0) =
    [true, false, false, true, true] ++ List.replicate 13 false := by decide

theorem ewds_bits : commandBits (EE_CMD_EWDS ||| 0 ||| 0) =
    [true, false, false, false, false] ++ List.replicate 13 false := by decide

theorem write_bits (addr data : BitVec 8) :
    commandBits (EE_CMD_WRITE ||| (addr.setWidth 32 <<< 8) ||| data.setWidth 32) =
      [true, false, true] ++ bitsDown addr 7 ++ bitsDown data 8 := by
  simp [commandBits, bitsDown, EE_CMD_WRITE]

theorem read_bits (addr : BitVec 8) :
    commandBits (EE_CMD_READ ||| (addr.setWidth 32 <<< 8) ||| 0) =
      [true, true, addr.getLsbD 7] ++ bitsDown addr 7 ++ List.replicate 8 false := by
  simp [commandBits, bitsDown, EE_CMD_READ]

theorem call_heard {io_reg0 : BitVec 16} (h : Idle io_reg0) (words : List (List Bool)) (c : EeCall) :
    Receiver.hear ⟨false, [], words⟩ (line io_reg0 c.steps) = ⟨false, [], words ++ commandsOf c⟩ ∧
      Idle (regAfter io_reg0 c.steps) := by
  cases c with
  | set addr data CPLD_STATUS =>
    obtain ⟨hewen, hidle⟩ := command_heard words (EE_CMD_EWEN ||| 0 ||| 0) (CPLD_STATUS 0) h
    rw [ewen_bits] at hewen
    have hwrite := command_heard (words ++ [[true, false, false, true, true] ++ List.replicate 13 false])
      (EE_CMD_WRITE ||| (addr.setWidth 32 <<< 8) ||| data.setWidth 32) (CPLD_STATUS 1) hidle
    rw [write_bits] at hwrite
    obtain ⟨hwrite, hidle'⟩ := hwrite
    have hewds := command_heard (words ++ [[true, false, false, true, true] ++ List.replicate 13 false] ++
      [[true, false, true] ++ bitsDown addr 7 ++ bitsDown data 8]) (EE_CMD_EWDS ||| 0 ||| 0) (CPLD_STATUS 2) hidle'
    rw [ewds_bits] at hewds
    obtain ⟨hewds, hidle''⟩ := hewds
    refine ⟨?_, ?_⟩
    · rw [EeCall.steps, EE_WRITE, line_append, line_append, Receiver.hear_append, Receiver.hear_append, hewen, hwrite,
        regAfter_append, hewds, commandsOf]
      simp only [List.append_assoc, List.cons_append, List.nil_append]
    · rw [EeCall.steps, EE_WRITE, regAfter_append, regAfter_append]
      exact hidle''
  | get addr CPLD_STATUS =>
    have hread := command_heard words (EE_CMD_READ ||| (addr.setWidth 32 <<< 8) ||| 0) CPLD_STATUS h
    rw [read_bits] at hread
    exact hread

theorem calls_heard {io_reg0 : BitVec 16} (h : Idle io_reg0) (words : List (List Bool)) (calls : List EeCall) :
    Receiver.hear ⟨false, [], words⟩ (line io_reg0 (calls.flatMap EeCall.steps)) =
      ⟨false, [], words ++ calls.flatMap commandsOf⟩ := by
  induction calls generalizing io_reg0 words with
  | nil => simp [line]
  | cons c calls ih =>
    obtain ⟨hcall, hidle⟩ := call_heard h words c
    rw [List.flatMap_cons, line_append, Receiver.hear_append, hcall, ih hidle, List.flatMap_cons, List.append_assoc]

theorem others_d_out (s : Lights) {cs : List LightCall} (hcs : ∀ e ∈ cs, ¬ IsEe e) :
    (lights.run s cs).d_out = s.d_out := by
  induction cs generalizing s with
  | nil => rfl
  | cons e cs ih =>
    obtain ⟨-, hkept, -⟩ := other_call s (hcs e (List.mem_cons_self ..))
    exact (ih _ fun f hf => hcs f (List.mem_cons_of_mem _ hf)).trans hkept

theorem callsOf_d_out (s : Lights) {ps : List (EeStep × List LightCall)} (hcs : ∀ p ∈ ps, ∀ f ∈ p.2, ¬ IsEe f) :
    (lights.run s (callsOf ps)).d_out = (ps.map Prod.fst).foldl EeStep.shift s.d_out := by
  induction ps generalizing s with
  | nil => rfl
  | cons p ps ih =>
    obtain ⟨e, cs⟩ := p
    have hcalls : callsOf ((e, cs) :: ps) = (.ee e :: cs) ++ callsOf ps := rfl
    have hstep : (lights.run s (.ee e :: cs)).d_out = e.shift s.d_out := by
      rw [Machine.run_cons, others_d_out _ (hcs _ (List.mem_cons_self ..))]
      cases e <;> rfl
    rw [hcalls, Machine.run_append, ih _ fun p hp => hcs p (List.mem_cons_of_mem _ hp), hstep]
    rfl

theorem loop_d_out (command : BitVec 32) (CPLD_STATUS : ℕ → BitVec 16) (rounds idx : ℕ) (mask : BitVec 32)
    (d_out : BitVec 16) {j : ℕ} (hj : j < 16) :
    ((issueLoop command CPLD_STATUS rounds idx mask).foldl EeStep.shift d_out).getLsbD j =
      if j < rounds then (CPLD_STATUS (idx + rounds - 1 - j)).getLsbD 0 else d_out.getLsbD (j - rounds) := by
  induction rounds generalizing idx mask d_out with
  | zero => rfl
  | succ rounds ih =>
    have hround : (issueLoop command CPLD_STATUS (rounds + 1) idx mask).foldl EeStep.shift d_out =
        (issueLoop command CPLD_STATUS rounds (idx + 1) (mask >>> 1)).foldl EeStep.shift
          ((d_out <<< 1) ||| (CPLD_STATUS idx &&& 1)) := rfl
    rw [hround, ih]
    rcases lt_trichotomy j rounds with hlt | heq | hgt
    · have hidx : idx + 1 + rounds - 1 - j = idx + (rounds + 1) - 1 - j := by omega
      rw [if_pos hlt, if_pos (by omega), hidx]
    · have hidx : idx + (rounds + 1) - 1 - j = idx := by omega
      have hzero : j - rounds = 0 := by omega
      rw [if_neg (by omega), if_pos (by omega), hidx, hzero]
      simp
    · have hsucc : j - rounds = j - (rounds + 1) + 1 := by omega
      rw [if_neg (by omega), if_neg (by omega), hsucc]
      have hlow : j - (rounds + 1) + 1 < 16 := by omega
      simp [hlow, -BitVec.getLsbD_eq_getElem]

theorem command_d_out (command : BitVec 32) (CPLD_STATUS : ℕ → BitVec 16) (d_out : BitVec 16) {j : ℕ} (hj : j < 8) :
    ((EE_ISSUE_CMD command CPLD_STATUS).foldl EeStep.shift d_out).getLsbD j = (CPLD_STATUS (17 - j)).getLsbD 0 := by
  have hcommand : (EE_ISSUE_CMD command CPLD_STATUS).foldl EeStep.shift d_out =
      (issueLoop command CPLD_STATUS 18 0 0x20000).foldl EeStep.shift d_out := List.foldl_append ..
  rw [hcommand, loop_d_out _ _ _ _ _ _ (by omega), if_pos (by omega)]

theorem start_settled : Settled Initial_7SEG ⟨false, [], []⟩ := ⟨rfl, rfl⟩

theorem eeprom_heard (calls : List EeCall) (es : List LightCall) (hes : ∀ e ∈ es, ¬ IsEe e)
    (ps : List (EeStep × List LightCall)) (hps : ps.map Prod.fst = calls.flatMap EeCall.steps)
    (hcs : ∀ p ∈ ps, ∀ f ∈ p.2, ¬ IsEe f) (hpaced : Paced (lights.run Initial_7SEG es) ps) :
    Receiver.hear ⟨false, [], []⟩ (samples (lights.trace Initial_7SEG (es ++ callsOf ps))) =
        ⟨false, [], calls.flatMap commandsOf⟩ ∧
      ∀ addr CPLD_STATUS, calls.getLast? = some (.get addr CPLD_STATUS) →
        ∀ j < 8, (lights.run Initial_7SEG (es ++ callsOf ps)).d_out.getLsbD j = (CPLD_STATUS (17 - j)).getLsbD 0 := by
  obtain ⟨hquiet, hsettled, hreg⟩ := start_settled.others hes
  refine ⟨?_, ?_⟩
  · have hidle : Idle (lights.run Initial_7SEG es).io_reg0 := by
      rw [hreg]
      exact ⟨rfl, rfl⟩
    rw [Machine.trace_append, samples, List.map_append, Receiver.hear_append, ← samples, ← samples, hquiet,
      paced_heard hsettled hcs hpaced, hps, calls_heard hidle]
    rfl
  · intro addr CPLD_STATUS hlast j hj
    obtain ⟨before, hcalls⟩ := List.getLast?_eq_some_iff.mp hlast
    rw [Machine.run_append, callsOf_d_out _ hcs, hps, hcalls, List.flatMap_append, List.foldl_append]
    simp only [List.flatMap_cons, List.flatMap_nil, List.append_nil]
    exact command_d_out _ _ _ hj

theorem irqs_paced {s : Lights} (hon : s.OMCR4 ≠ 0) (es : List EeStep) :
    Paced s (es.map fun e => (e, [.irq])) := by
  induction es generalizing s with
  | nil => trivial
  | cons e es ih =>
    have hkept : (e.run s).OMCR4 = s.OMCR4 := by cases e <;> rfl
    refine ⟨fun _ => ⟨_, List.mem_cons_self .., rfl, ?_⟩, ih ?_⟩
    · rw [Machine.moment_pre, hkept]
      exact hon
    · have hirq : (lights.run (e.run s) [.irq]).OMCR4 = (e.run s).OMCR4 := by
        rw [Machine.run_cons, Machine.run_nil]
        simp only [lights]
        split_ifs <;> rfl
      rw [hirq, hkept]
      exact hon

theorem eeprom_heard_erase :
    let calls := [EeCall.set 5 7 fun _ _ => 0, .get 0x85 fun _ => 1]
    Receiver.hear ⟨false, [], []⟩ (samples (lights.trace Initial_7SEG (callsOf
      ((calls.flatMap EeCall.steps).map fun e => (e, [.irq]))))) = ⟨false, [], calls.flatMap commandsOf⟩ := by
  intro calls
  have hothers : ∀ p ∈ (calls.flatMap EeCall.steps).map fun e => (e, [LightCall.irq]), ∀ f ∈ p.2, ¬ IsEe f := by
    intro p hp f hf
    obtain ⟨e, -, rfl⟩ := List.mem_map.mp hp
    obtain rfl := List.mem_singleton.mp hf
    exact id
  have hsteps : ((calls.flatMap EeCall.steps).map fun e => (e, [LightCall.irq])).map Prod.fst =
      calls.flatMap EeCall.steps := by
    rw [List.map_map]
    exact List.map_id _
  exact (eeprom_heard calls [] (by simp) _ hsteps hothers (irqs_paced (by decide) _)).1

end EmbeddedOS.Board
