import EmbeddedOS.Library.Bytes
import EmbeddedOS.Library.Rings
import EmbeddedOS.Library.Runs

/-!
The keypad of `creator-pxa270-lcd.c`: a timer that scans the keys and counts the time, and a buffer that the programs
take the keys from.
-/

namespace EmbeddedOS.Board

open Runs Rings

def KEY_NONE : ℕ := 0xffff

def key2num_tbl : List ℕ :=
  [0xdfff, 0xfffe, 0xfffd, 0xfffb, 0xffef, 0xffdf, 0xffbf, 0xfeff, 0xfdff, 0xfbff, 0xfff7, 0xff7f, 0xf7ff, 0x7fff,
    0xefff, 0xbfff]

/-- `beyond` is what is behind the array: two keys at once have the number `0xff`. -/
def KeyASCIICode (beyond : ℕ → ℕ) (key : ℕ) : ℕ :=
  if h : key < 16 then ("0123456789ABCD*#".toList.map Char.toNat).get ⟨key, h⟩ else beyond key

def Creator_key2num (ch : ℕ) : ℕ := if ch ∈ key2num_tbl then key2num_tbl.idxOf ch else 0xff

def keyData (beyond : ℕ → ℕ) (scan : ℕ) : ℕ :=
  let key := Creator_key2num scan
  (key * 0x100 + KeyASCIICode beyond key) % 0x10000

structure Clock where
  tick_count : ℕ
  tick_sec : ℕ
  tick_min : ℕ
  tick_hour : ℕ
  deriving DecidableEq

abbrev KEYPAD_SCAN_FREQ : ℕ := 5

def Clock.second (k : Clock) : Clock :=
  let k := { k with tick_sec := (k.tick_sec + 1) % 0x100 }
  if k.tick_sec ≥ 60 then
    let k := { k with tick_sec := 0, tick_min := (k.tick_min + 1) % 0x100 }
    if k.tick_min ≥ 60 then { k with tick_min := 0, tick_hour := (k.tick_hour + 1) % 0x100 } else k
  else k

def Clock.tick (k : Clock) : Clock :=
  let k := { k with tick_count := (k.tick_count + 1) % 0x100 }
  if k.tick_count = KEYPAD_SCAN_FREQ then Clock.second { k with tick_count := 0 } else k

structure Keypad where
  scan_key_buf : ℕ → ℕ
  scan_key_in_idx : ℕ
  scan_key_out_idx : ℕ
  last_scan_key : ℕ
  key_assigned : Bool
  clock : Clock

def scanWord (IO_REG1 : Fin 4 → ℕ) : ℕ :=
  let b0 := ((IO_REG1 0 &&& 0x0f00) >>> 8) ||| ((IO_REG1 1 &&& 0x0f00) >>> 4)
  let b1 := ((IO_REG1 2 &&& 0x0f00) >>> 8) ||| ((IO_REG1 3 &&& 0x0f00) >>> 4)
  b1 * 0x100 + b0

/-- The part of `ScanTimer` that stands behind the test for an overflow. -/
def scanKeys (s : Keypad) (scan : ℕ) : Keypad :=
  let s :=
    if s.last_scan_key = scan then
      if s.key_assigned = false then
        let s :=
          if scan ≠ KEY_NONE then
            { s with
              scan_key_buf := Function.update s.scan_key_buf s.scan_key_in_idx scan
              scan_key_in_idx := (s.scan_key_in_idx + 1) &&& 0xf }
          else s
        { s with key_assigned := true }
      else s
    else { s with key_assigned := false }
  { s with last_scan_key := scan }

def ScanTimer (s : Keypad) (IO_REG1 : Fin 4 → ℕ) : Keypad :=
  let s := if s.scan_key_in_idx + 1 = s.scan_key_out_idx then s else scanKeys s (scanWord IO_REG1)
  { s with clock := s.clock.tick }

def KEYPAD_get_key (s : Keypad) : Keypad × Option ℕ :=
  if s.scan_key_out_idx ≠ s.scan_key_in_idx then
    ({ s with scan_key_out_idx := (s.scan_key_out_idx + 1) &&& 0xf }, some (s.scan_key_buf s.scan_key_out_idx))
  else (s, none)

def KEYPAD_chk_key (s : Keypad) : Option ℕ :=
  if s.scan_key_out_idx ≠ s.scan_key_in_idx then some (s.scan_key_buf s.scan_key_out_idx) else none

def Reset_KEYPAD (s : Keypad) : Keypad :=
  { s with last_scan_key := KEY_NONE, scan_key_in_idx := 0, scan_key_out_idx := 0, key_assigned := false }

/-- `Initial_KEYPAD`, after `lcd_hwsetup`. -/
def Initial_KEYPAD : Keypad := Reset_KEYPAD ⟨fun _ => KEY_NONE, 0, 0, 0, false, ⟨0, 0, 0, 0⟩⟩

inductive KeyCall where
  | timer (IO_REG1 : Fin 4 → ℕ)
  | get_char
  | check_empty
  | clear
  | time_get
  | time_set (sec min hour : ℕ)

inductive Reply where
  | done
  | data (d : ℕ)
  | failed
  | time (sec min hour : ℕ)
  deriving DecidableEq

def keypad (beyond : ℕ → ℕ) : Machine Keypad KeyCall Reply where
  step s e :=
    match e with
    | .timer reads => (ScanTimer s reads, .done)
    | .get_char =>
      match KEYPAD_get_key s with
      | (s', some scan) => (s', .data (keyData beyond scan))
      | (s', none) => (s', .failed)
    | .check_empty =>
      match KEYPAD_chk_key s with
      | some scan => (s, .data (keyData beyond scan))
      | none => (s, .failed)
    | .clear => (Reset_KEYPAD s, .done)
    | .time_get => (s, .time s.clock.tick_sec s.clock.tick_min s.clock.tick_hour)
    | .time_set sec min hour =>
      ({ s with clock := { s.clock with tick_sec := sec % 0x100, tick_min := min % 0x100, tick_hour := hour % 0x100 } },
        .done)

structure Queue where
  keys : List ℕ
  taken : ℕ
  last : ℕ
  assigned : Bool
  clock : Clock

def isPress (last : ℕ) (assigned : Bool) (scan : ℕ) : Bool := scan = last && !assigned && decide (scan ≠ KEY_NONE)

/-- With fifteen keys in the queue the driver stops scanning, unless the next key is to be taken from the first
entry of the buffer: then it stores a sixteenth, and all are gone. -/
def Queue.timer (t : Queue) (scan : ℕ) : Queue :=
  if t.keys.length = 15 ∧ t.taken % 16 ≠ 0 then { t with clock := t.clock.tick }
  else
    { t with
      keys := if isPress t.last t.assigned scan then if t.keys.length = 15 then [] else t.keys ++ [scan] else t.keys
      last := scan
      assigned := decide (scan = t.last)
      clock := t.clock.tick }

def queue (beyond : ℕ → ℕ) : Machine Queue KeyCall Reply where
  step t e :=
    match e with
    | .timer reads => (t.timer (scanWord reads), .done)
    | .get_char =>
      match t.keys with
      | scan :: keys => ({ t with keys := keys, taken := t.taken + 1 }, .data (keyData beyond scan))
      | [] => (t, .failed)
    | .check_empty =>
      match t.keys with
      | scan :: _ => (t, .data (keyData beyond scan))
      | [] => (t, .failed)
    | .clear => (⟨[], 0, KEY_NONE, false, t.clock⟩, .done)
    | .time_get => (t, .time t.clock.tick_sec t.clock.tick_min t.clock.tick_hour)
    | .time_set sec min hour =>
      ({ t with clock := { t.clock with tick_sec := sec % 0x100, tick_min := min % 0x100, tick_hour := hour % 0x100 } },
        .done)

def Queue.start : Queue := ⟨[], 0, KEY_NONE, false, ⟨0, 0, 0, 0⟩⟩

structure Holds (s : Keypad) (t : Queue) : Prop where
  out : s.scan_key_out_idx = t.taken % 16
  in_ : s.scan_key_in_idx = (s.scan_key_out_idx + t.keys.length) % 16
  room : t.keys.length ≤ 15
  keys : ring 16 s.scan_key_buf s.scan_key_out_idx t.keys.length = t.keys
  last : s.last_scan_key = t.last
  assigned : s.key_assigned = t.assigned
  clock : s.clock = t.clock

theorem and_fifteen (n : ℕ) : n &&& 0xf = n % 16 := Nat.and_two_pow_sub_one_eq_mod n 4

section Holds

variable {s : Keypad} {t : Queue}

theorem Holds.empty_iff (h : Holds s t) : s.scan_key_out_idx = s.scan_key_in_idx ↔ t.keys = [] := by
  obtain ⟨out, in_, room, -, -, -, -⟩ := h
  rw [← List.length_eq_zero_iff]
  omega

theorem Holds.full_iff (h : Holds s t) :
    s.scan_key_in_idx + 1 = s.scan_key_out_idx ↔ t.keys.length = 15 ∧ t.taken % 16 ≠ 0 := by
  obtain ⟨out, in_, room, -, -, -, -⟩ := h
  omega

theorem Holds.first (h : Holds s t) {scan : ℕ} {keys : List ℕ} (hkeys : t.keys = scan :: keys) :
    s.scan_key_buf s.scan_key_out_idx = scan ∧
      ring 16 s.scan_key_buf (s.scan_key_out_idx + 1) keys.length = keys := by
  have hring := h.keys
  have hlt : s.scan_key_out_idx < 16 := by
    rw [h.out]
    omega
  rw [hkeys, List.length_cons, ring_take, Nat.mod_eq_of_lt hlt] at hring
  exact ⟨(List.cons.inj hring).1, (List.cons.inj hring).2⟩

theorem Holds.take (h : Holds s t) {scan : ℕ} {keys : List ℕ} (hkeys : t.keys = scan :: keys) :
    Holds { s with scan_key_out_idx := (s.scan_key_out_idx + 1) &&& 0xf }
      { t with keys := keys, taken := t.taken + 1 } := by
  have hfirst := (h.first hkeys).2
  obtain ⟨out, in_, room, -, last, assigned, clock⟩ := h
  rw [hkeys, List.length_cons] at in_ room
  rw [and_fifteen]
  refine ⟨?_, ?_, ?_, ?_, last, assigned, clock⟩
  · change (s.scan_key_out_idx + 1) % 16 = (t.taken + 1) % 16
    omega
  · change s.scan_key_in_idx = ((s.scan_key_out_idx + 1) % 16 + keys.length) % 16
    omega
  · change keys.length ≤ 15
    omega
  · rw [ring_out (Nat.mod_mod ..)]
    exact hfirst

theorem Holds.store (h : Holds s t) (scan : ℕ) :
    Holds { s with
        scan_key_buf := Function.update s.scan_key_buf s.scan_key_in_idx scan
        scan_key_in_idx := (s.scan_key_in_idx + 1) &&& 0xf }
      { t with keys := if t.keys.length = 15 then [] else t.keys ++ [scan] } := by
  obtain ⟨out, in_, room, keys, last, assigned, clock⟩ := h
  rw [and_fifteen]
  by_cases hfull : t.keys.length = 15
  · rw [if_pos hfull]
    refine ⟨out, ?_, Nat.zero_le _, rfl, last, assigned, clock⟩
    change (s.scan_key_in_idx + 1) % 16 = (s.scan_key_out_idx + 0) % 16
    omega
  · rw [if_neg hfull]
    refine ⟨out, ?_, ?_, ?_, last, assigned, clock⟩
    · change (s.scan_key_in_idx + 1) % 16 = (s.scan_key_out_idx + (t.keys ++ [scan]).length) % 16
      rw [List.length_append, List.length_singleton]
      omega
    · change (t.keys ++ [scan]).length ≤ 15
      rw [List.length_append, List.length_singleton]
      omega
    · change ring 16 (Function.update s.scan_key_buf s.scan_key_in_idx scan) s.scan_key_out_idx
        (t.keys ++ [scan]).length = t.keys ++ [scan]
      rw [List.length_append, List.length_singleton, in_, ring_store _ (by omega), keys]

theorem Holds.debounced (h : Holds s t) (assigned : Bool) (scan : ℕ) :
    Holds { s with key_assigned := assigned, last_scan_key := scan } { t with last := scan, assigned := assigned } :=
  ⟨h.out, h.in_, h.room, h.keys, rfl, rfl, h.clock⟩

theorem Holds.scan (h : Holds s t) (scan : ℕ) :
    Holds (scanKeys s scan) { t with
      keys := if isPress t.last t.assigned scan then if t.keys.length = 15 then [] else t.keys ++ [scan] else t.keys
      last := scan
      assigned := decide (scan = t.last) } := by
  unfold scanKeys isPress
  rw [← h.last, ← h.assigned]
  by_cases hsame : s.last_scan_key = scan
  · rw [if_pos hsame, decide_eq_true hsame.symm]
    cases ha : s.key_assigned with
    | true =>
      have hkept := h.debounced true scan
      rw [← ha] at hkept
      rw [← ha]
      simpa [ha] using hkept
    | false =>
      by_cases hnone : scan ≠ KEY_NONE
      · have hstored := (h.store scan).debounced true scan
        simpa [hnone] using hstored
      · have hkept := h.debounced true scan
        simpa [hnone] using hkept
  · have hsame' : ¬ scan = s.last_scan_key := fun he => hsame he.symm
    have hkept := h.debounced false scan
    rw [if_neg hsame, decide_eq_false hsame']
    simpa using hkept

theorem Holds.timer (h : Holds s t) (reads : Fin 4 → ℕ) :
    Holds (ScanTimer s reads) (t.timer (scanWord reads)) := by
  unfold ScanTimer Queue.timer
  have htick : s.clock.tick = t.clock.tick := congrArg Clock.tick h.clock
  by_cases hfull : t.keys.length = 15 ∧ t.taken % 16 ≠ 0
  · rw [if_pos hfull, if_pos (h.full_iff.mpr hfull)]
    exact ⟨h.out, h.in_, h.room, h.keys, h.last, h.assigned, htick⟩
  · have hscan := h.scan (scanWord reads)
    have hclock : (scanKeys s (scanWord reads)).clock.tick = t.clock.tick := congrArg Clock.tick hscan.clock
    rw [if_neg hfull, if_neg (mt h.full_iff.mp hfull)]
    exact ⟨hscan.out, hscan.in_, hscan.room, hscan.keys, hscan.last, hscan.assigned, hclock⟩

end Holds

theorem queue_step (beyond : ℕ → ℕ) {s : Keypad} {t : Queue} (h : Holds s t) (e : KeyCall) :
    Holds ((keypad beyond).step s e).1 ((queue beyond).step t e).1 ∧
      ((keypad beyond).moment s e).out = ((queue beyond).moment t e).out := by
  cases e with
  | timer reads => exact ⟨h.timer reads, rfl⟩
  | get_char =>
    cases hkeys : t.keys with
    | nil =>
      have hempty := h.empty_iff.mpr hkeys
      simp only [keypad, queue, Machine.moment, KEYPAD_get_key, hkeys, hempty, ne_eq, not_true_eq_false, ↓reduceIte]
      exact ⟨h, trivial⟩
    | cons scan keys =>
      have hne : s.scan_key_out_idx ≠ s.scan_key_in_idx := by
        intro he
        rw [h.empty_iff.mp he] at hkeys
        cases hkeys
      have hfirst := (h.first hkeys).1
      simp only [keypad, queue, Machine.moment, KEYPAD_get_key, hkeys, if_pos hne, hfirst]
      exact ⟨h.take hkeys, trivial⟩
  | check_empty =>
    cases hkeys : t.keys with
    | nil =>
      have hempty := h.empty_iff.mpr hkeys
      simp only [keypad, queue, Machine.moment, KEYPAD_chk_key, hkeys, hempty, ne_eq, not_true_eq_false, ↓reduceIte]
      exact ⟨h, trivial⟩
    | cons scan keys =>
      have hne : s.scan_key_out_idx ≠ s.scan_key_in_idx := by
        intro he
        rw [h.empty_iff.mp he] at hkeys
        cases hkeys
      have hfirst := (h.first hkeys).1
      simp only [keypad, queue, Machine.moment, KEYPAD_chk_key, hkeys, if_pos hne, hfirst]
      exact ⟨h, trivial⟩
  | clear => exact ⟨⟨rfl, rfl, Nat.zero_le _, rfl, rfl, rfl, h.clock⟩, rfl⟩
  | time_get =>
    refine ⟨h, ?_⟩
    simp only [keypad, queue, Machine.moment, h.clock]
  | time_set sec min hour =>
    refine ⟨⟨h.out, h.in_, h.room, h.keys, h.last, h.assigned, ?_⟩, rfl⟩
    simp only [keypad, queue, h.clock]

def Alike (q : Moment Keypad KeyCall Reply) (q' : Moment Queue KeyCall Reply) : Prop :=
  Holds q.pre q'.pre ∧ q.event = q'.event ∧ q.out = q'.out

theorem queue_run (beyond : ℕ → ℕ) {s : Keypad} {t : Queue} (h : Holds s t) (es : List KeyCall) :
    Holds ((keypad beyond).run s es) ((queue beyond).run t es) ∧
      List.Forall₂ Alike ((keypad beyond).trace s es) ((queue beyond).trace t es) := by
  apply (keypad beyond).lockstep (N := queue beyond) (R := Holds) (Q := Alike)
  · intro s t e hR
    obtain ⟨hstep, hout⟩ := queue_step beyond hR e
    exact ⟨hstep, hR, rfl, hout⟩
  · exact h

theorem start_holds : Holds Initial_KEYPAD Queue.start := ⟨rfl, rfl, Nat.zero_le _, rfl, rfl, rfl, rfl⟩

theorem keypad_is_queue (beyond : ℕ → ℕ) (es : List KeyCall) :
    ((keypad beyond).trace Initial_KEYPAD es).map Moment.out = ((queue beyond).trace Queue.start es).map Moment.out := by
  rw [← List.forall₂_eq_eq_eq, List.forall₂_map_left_iff, List.forall₂_map_right_iff]
  exact (queue_run beyond start_holds es).2.imp fun _ _ hq => hq.2.2

def KeyCall.scan : KeyCall → Option ℕ
  | .timer reads => some (scanWord reads)
  | _ => none

def takenData {σ : Type*} (q : Moment σ KeyCall Reply) : Option ℕ :=
  match q.event, q.out with
  | .get_char, .data d => some d
  | _, _ => none

def pressed (last : ℕ) (assigned : Bool) : List ℕ → List ℕ
  | [] => []
  | scan :: scans => (if isPress last assigned scan then [scan] else []) ++ pressed scan (decide (scan = last)) scans

def scansOf (holds : List (ℕ × ℕ)) : List ℕ := holds.flatMap fun p => List.replicate p.2 p.1

def keysOf (holds : List (ℕ × ℕ)) : List ℕ := (holds.filter fun p => 2 ≤ p.2 ∧ p.1 ≠ KEY_NONE).map Prod.fst

theorem queue_delivers (beyond : ℕ → ℕ) {es : List KeyCall} (hclear : KeyCall.clear ∉ es) {t : Queue}
    (hroom : ∀ q ∈ (queue beyond).trace t es, q.event.scan.isSome → q.pre.keys.length < 15) :
    ((queue beyond).trace t es).filterMap takenData ++ ((queue beyond).run t es).keys.map (keyData beyond) =
      (t.keys ++ pressed t.last t.assigned (es.filterMap KeyCall.scan)).map (keyData beyond) := by
  induction es generalizing t with
  | nil => simp [pressed]
  | cons e es ih =>
    have hrest : KeyCall.clear ∉ es := fun he => hclear (List.mem_cons_of_mem _ he)
    have hroom' : ∀ q ∈ (queue beyond).trace ((queue beyond).step t e).1 es, q.event.scan.isSome →
        q.pre.keys.length < 15 := fun q hq => hroom q (List.mem_cons_of_mem _ hq)
    have hih := ih hrest hroom'
    rw [Machine.trace, Machine.run_cons]
    cases e with
    | timer reads =>
      have hlt : t.keys.length < 15 := hroom _ (List.mem_cons_self ..) rfl
      have hstep : ((queue beyond).step t (.timer reads)).1 = { t with
          keys := if isPress t.last t.assigned (scanWord reads) then t.keys ++ [scanWord reads] else t.keys
          last := scanWord reads
          assigned := decide (scanWord reads = t.last)
          clock := t.clock.tick } := by
        simp only [queue, Queue.timer, hlt.ne, false_and, ↓reduceIte]
      rw [hstep] at hih ⊢
      rw [List.filterMap_cons_none rfl, hih]
      have hscan : (KeyCall.timer reads :: es).filterMap KeyCall.scan = scanWord reads :: es.filterMap KeyCall.scan := rfl
      rw [hscan, pressed]
      split_ifs with hpress <;> simp
    | get_char =>
      cases hkeys : t.keys with
      | nil =>
        have hstep : ((queue beyond).step t .get_char) = (t, .failed) := by simp only [queue, hkeys]
        have hmoment : takenData ((queue beyond).moment t .get_char) = none := by
          simp only [Machine.moment, hstep, takenData]
        rw [hstep] at hih ⊢
        rw [List.filterMap_cons_none hmoment, hih, hkeys]
        rfl
      | cons scan keys =>
        have hstep : ((queue beyond).step t .get_char) =
            ({ t with keys := keys, taken := t.taken + 1 }, .data (keyData beyond scan)) := by
          simp only [queue, hkeys]
        have hmoment : takenData ((queue beyond).moment t .get_char) = some (keyData beyond scan) := by
          simp only [Machine.moment, hstep, takenData]
        rw [hstep] at hih ⊢
        rw [List.filterMap_cons_some hmoment, List.cons_append, hih]
        rfl
    | check_empty =>
      have hstep : ((queue beyond).step t .check_empty).1 = t := by
        cases hkeys : t.keys <;> simp only [queue, hkeys]
      rw [hstep] at hih ⊢
      rw [List.filterMap_cons_none rfl, hih]
      rfl
    | clear => exact absurd (List.mem_cons_self ..) hclear
    | time_get =>
      rw [List.filterMap_cons_none rfl]
      exact hih
    | time_set sec min hour =>
      rw [List.filterMap_cons_none rfl]
      exact hih

theorem pressed_held (v : ℕ) (n : ℕ) (scans : List ℕ) :
    pressed v true (List.replicate n v ++ scans) = pressed v true scans := by
  induction n with
  | zero => rfl
  | succ n ih =>
    rw [List.replicate_succ, List.cons_append, pressed, decide_eq_true rfl, ih]
    simp [isPress]

theorem pressed_hold {last v : ℕ} (assigned : Bool) (hv : last ≠ v) {n : ℕ} (hn : 0 < n) (scans : List ℕ) :
    ∃ assigned', pressed last assigned (List.replicate n v ++ scans) =
      (if 2 ≤ n ∧ v ≠ KEY_NONE then [v] else []) ++ pressed v assigned' scans := by
  obtain ⟨n, rfl⟩ := Nat.exists_eq_succ_of_ne_zero hn.ne'
  have hfirst : isPress last assigned v = false := by simp [isPress, hv.symm]
  rw [List.replicate_succ, List.cons_append, pressed, hfirst, decide_eq_false hv.symm]
  cases n with
  | zero => exact ⟨false, rfl⟩
  | succ n =>
    refine ⟨true, ?_⟩
    have hsecond : isPress v false v = decide (v ≠ KEY_NONE) := by simp [isPress]
    rw [List.replicate_succ, List.cons_append, pressed, decide_eq_true rfl, pressed_held, hsecond]
    simp

theorem pressed_scansOf {last : ℕ} (assigned : Bool) {holds : List (ℕ × ℕ)} (hpos : ∀ p ∈ holds, 0 < p.2)
    (hchain : (last :: holds.map Prod.fst).IsChain (· ≠ ·)) : pressed last assigned (scansOf holds) = keysOf holds := by
  induction holds generalizing last assigned with
  | nil => rfl
  | cons p holds ih =>
    obtain ⟨v, n⟩ := p
    rw [List.map_cons, List.isChain_cons_cons] at hchain
    obtain ⟨assigned', hhold⟩ := pressed_hold assigned hchain.1 (hpos _ (List.mem_cons_self ..)) (scansOf holds)
    have hscans : scansOf ((v, n) :: holds) = List.replicate n v ++ scansOf holds := rfl
    rw [hscans, hhold, ih assigned' (fun q hq => hpos q (List.mem_cons_of_mem _ hq)) hchain.2, keysOf, keysOf,
      List.filter_cons]
    by_cases hkey : 2 ≤ n ∧ v ≠ KEY_NONE
    · simp [hkey]
    · simp [hkey]

theorem pressed_start {holds : List (ℕ × ℕ)} (hpos : ∀ p ∈ holds, 0 < p.2)
    (hchain : (holds.map Prod.fst).IsChain (· ≠ ·)) : pressed KEY_NONE false (scansOf holds) = keysOf holds := by
  cases holds with
  | nil => rfl
  | cons p holds =>
    obtain ⟨v, n⟩ := p
    by_cases hv : KEY_NONE = v
    · obtain ⟨n, rfl⟩ := Nat.exists_eq_succ_of_ne_zero (hpos (v, n) (List.mem_cons_self ..)).ne'
      have hscans : scansOf ((v, n + 1) :: holds) = v :: (List.replicate n v ++ scansOf holds) := rfl
      have hfirst : isPress KEY_NONE false v = false := by simp [isPress, ← hv]
      rw [List.map_cons] at hchain
      rw [hscans, pressed, hfirst, decide_eq_true hv.symm, pressed_held,
        pressed_scansOf true (fun q hq => hpos q (List.mem_cons_of_mem _ hq)) hchain, keysOf, keysOf, List.filter_cons]
      simp [← hv]
    · apply pressed_scansOf false hpos
      rw [List.map_cons] at hchain ⊢
      exact List.isChain_cons_cons.mpr ⟨hv, hchain⟩

def Keypad.waiting (s : Keypad) : List ℕ :=
  ring 16 s.scan_key_buf s.scan_key_out_idx ((s.scan_key_in_idx + 16 - s.scan_key_out_idx) % 16)

theorem Holds.waiting {s : Keypad} {t : Queue} (h : Holds s t) : s.waiting = t.keys := by
  have hlen : (s.scan_key_in_idx + 16 - s.scan_key_out_idx) % 16 = t.keys.length := by
    obtain ⟨out, in_, room, -, -, -, -⟩ := h
    omega
  rw [Keypad.waiting, hlen]
  exact h.keys

theorem takenData_alike {l : List (Moment Keypad KeyCall Reply)} {l' : List (Moment Queue KeyCall Reply)}
    (h : List.Forall₂ Alike l l') : l.filterMap takenData = l'.filterMap takenData := by
  induction h with
  | nil => rfl
  | cons hq _ ih =>
    obtain ⟨-, hevent, hout⟩ := hq
    rw [List.filterMap_cons, List.filterMap_cons, ih, takenData, takenData, hevent, hout]

theorem exists_alike {l : List (Moment Keypad KeyCall Reply)} {l' : List (Moment Queue KeyCall Reply)}
    (h : List.Forall₂ Alike l l') {q' : Moment Queue KeyCall Reply} (hq' : q' ∈ l') : ∃ q ∈ l, Alike q q' := by
  induction h with
  | nil => cases hq'
  | cons hq _ ih =>
    rcases List.mem_cons.mp hq' with rfl | hq'
    · exact ⟨_, List.mem_cons_self .., hq⟩
    · obtain ⟨q, hmem, halike⟩ := ih hq'
      exact ⟨q, List.mem_cons_of_mem _ hmem, halike⟩

theorem keys_delivered (beyond : ℕ → ℕ) (fs es : List KeyCall) (hclear : KeyCall.clear ∉ es) {holds : List (ℕ × ℕ)}
    (hpos : ∀ p ∈ holds, 0 < p.2) (hchain : (holds.map Prod.fst).IsChain (· ≠ ·))
    (hscans : es.filterMap KeyCall.scan = scansOf holds)
    (hroom : ∀ q ∈ (keypad beyond).trace ((keypad beyond).run Initial_KEYPAD (fs ++ [.clear])) es,
      q.event.scan.isSome → q.pre.waiting.length < 15) :
    let s := (keypad beyond).run Initial_KEYPAD (fs ++ [.clear])
    ((keypad beyond).trace s es).filterMap takenData ++ ((keypad beyond).run s es).waiting.map (keyData beyond) =
      (keysOf holds).map (keyData beyond) := by
  intro s
  have hstart := (queue_run beyond start_holds (fs ++ [.clear])).1
  have hcleared : ∃ clock, (queue beyond).run Queue.start (fs ++ [.clear]) = ⟨[], 0, KEY_NONE, false, clock⟩ := by
    rw [Machine.run_snoc]
    exact ⟨_, rfl⟩
  obtain ⟨clock, hcleared⟩ := hcleared
  rw [hcleared] at hstart
  obtain ⟨hrun, htrace⟩ := queue_run beyond hstart es
  have hroom' : ∀ q ∈ (queue beyond).trace ⟨[], 0, KEY_NONE, false, clock⟩ es, q.event.scan.isSome →
      q.pre.keys.length < 15 := by
    intro q hq hscan
    obtain ⟨q', hq', halike⟩ := exists_alike htrace hq
    obtain ⟨hpre, hevent, -⟩ := halike
    rw [← hpre.waiting]
    exact hroom q' hq' (hevent ▸ hscan)
  have hdelivers := queue_delivers beyond hclear hroom'
  rw [hscans, List.nil_append, pressed_start hpos hchain] at hdelivers
  rw [takenData_alike htrace, hrun.waiting]
  exact hdelivers

def one : Fin 4 → ℕ := ![0x0e00, 0x0f00, 0x0f00, 0x0f00]

def released : Fin 4 → ℕ := fun _ => 0x0f00

def twice : List KeyCall :=
  [.timer one, .timer one, .timer one, .timer released, .timer one, .timer released, .get_char, .timer one, .timer one]

set_option maxRecDepth 4000 in
theorem keys_delivered_twice :
    let s := (keypad fun _ => 0).run Initial_KEYPAD ([] ++ [.clear])
    ((keypad fun _ => 0).trace s twice).filterMap takenData ++
      ((keypad fun _ => 0).run s twice).waiting.map (keyData fun _ => 0) =
        (keysOf [(0xfffe, 3), (0xffff, 1), (0xfffe, 1), (0xffff, 1), (0xfffe, 2)]).map (keyData fun _ => 0) :=
  keys_delivered (fun _ => 0) [] twice (by simp [twice]) (by decide) (by decide) (by decide) (by decide)

def Clock.seconds (k : Clock) : ℕ := (k.tick_hour * 60 + k.tick_min) * 60 + k.tick_sec

structure Clock.Valid (k : Clock) : Prop where
  count : k.tick_count < KEYPAD_SCAN_FREQ
  sec : k.tick_sec < 60
  min : k.tick_min < 60
  hour : k.tick_hour < 0x100

theorem second_valid {k : Clock} (h : k.Valid) :
    k.second.Valid ∧ k.second.tick_count = k.tick_count ∧ k.second.seconds = (k.seconds + 1) % 921600 := by
  obtain ⟨tick_count, tick_sec, tick_min, tick_hour⟩ := k
  obtain ⟨count, sec, min, hour⟩ := h
  simp only at count sec min hour
  unfold Clock.second Clock.seconds
  simp only
  have hsec : (tick_sec + 1) % 0x100 = tick_sec + 1 := by omega
  have hmin : (tick_min + 1) % 0x100 = tick_min + 1 := by omega
  rw [hsec, hmin]
  split_ifs with hs hm
  · exact ⟨⟨count, Nat.succ_pos _, Nat.succ_pos _, Nat.mod_lt _ (by decide)⟩, rfl, by simp only; omega⟩
  · exact ⟨⟨count, Nat.succ_pos _, not_le.mp hm, hour⟩, rfl, by simp only; omega⟩
  · exact ⟨⟨count, not_le.mp hs, min, hour⟩, rfl, by simp only; omega⟩

theorem tick_valid {k : Clock} (h : k.Valid) :
    k.tick.Valid ∧ k.tick.tick_count = (k.tick_count + 1) % 5 ∧
      k.tick.seconds = (k.seconds + (k.tick_count + 1) / 5) % 921600 := by
  have hcount : k.tick_count < 5 := h.count
  have hwrap : (k.tick_count + 1) % 0x100 = k.tick_count + 1 := by omega
  have hlt : k.seconds < 921600 := by
    obtain ⟨-, sec, min, hour⟩ := h
    unfold Clock.seconds
    omega
  unfold Clock.tick
  simp only [hwrap]
  split_ifs with hfive
  · change k.tick_count + 1 = 5 at hfive
    have hzero : Clock.Valid { k with tick_count := 0 } := ⟨Nat.succ_pos _, h.sec, h.min, h.hour⟩
    obtain ⟨hvalid, hzero', hseconds⟩ := second_valid hzero
    refine ⟨hvalid, ?_, ?_⟩
    · rw [hzero']
      change 0 = _
      omega
    · rw [hseconds]
      change (k.seconds + 1) % 921600 = _
      rw [hfive]
  · change ¬ k.tick_count + 1 = 5 at hfive
    refine ⟨⟨by change k.tick_count + 1 < 5; omega, h.sec, h.min, h.hour⟩, ?_, ?_⟩
    · change k.tick_count + 1 = _
      omega
    · change k.seconds = _
      rw [Nat.div_eq_of_lt (by omega), Nat.add_zero, Nat.mod_eq_of_lt hlt]

def KeyCall.Timely : KeyCall → Prop
  | .time_set sec min hour => sec < 60 ∧ min < 60 ∧ hour < 0x100
  | _ => True

def KeyCall.isSet : KeyCall → Bool
  | .time_set _ _ _ => true
  | _ => false

theorem scanKeys_clock (s : Keypad) (scan : ℕ) : (scanKeys s scan).clock = s.clock := by
  unfold scanKeys
  split_ifs <;> rfl

theorem clock_step (beyond : ℕ → ℕ) (s : Keypad) {e : KeyCall} (he : e.isSet = false) :
    ((keypad beyond).step s e).1.clock = if e.scan.isSome then s.clock.tick else s.clock := by
  cases e with
  | timer reads =>
    change (ScanTimer s reads).clock = s.clock.tick
    unfold ScanTimer
    split_ifs
    · rfl
    · exact congrArg Clock.tick (scanKeys_clock ..)
  | get_char =>
    change _ = s.clock
    simp only [keypad, KEYPAD_get_key]
    by_cases hkey : s.scan_key_out_idx ≠ s.scan_key_in_idx
    · rw [if_pos hkey]
    · rw [if_neg hkey]
  | check_empty =>
    change _ = s.clock
    simp only [keypad, KEYPAD_chk_key]
    by_cases hkey : s.scan_key_out_idx ≠ s.scan_key_in_idx
    · rw [if_pos hkey]
    · rw [if_neg hkey]
  | clear => rfl
  | time_get => rfl
  | time_set sec min hour => cases he

theorem clock_valid (beyond : ℕ → ℕ) {fs : List KeyCall} (hfs : ∀ e ∈ fs, e.Timely) :
    ((keypad beyond).run Initial_KEYPAD fs).clock.Valid := by
  induction fs using List.reverseRecOn with
  | nil => exact ⟨Nat.succ_pos _, Nat.succ_pos _, Nat.succ_pos _, Nat.succ_pos _⟩
  | append_singleton fs e ih =>
    have hprev := ih fun f hf => hfs f (List.mem_append_left _ hf)
    have he := hfs e (List.mem_append_right _ (List.mem_singleton_self e))
    rw [Machine.run_snoc]
    cases hset : e.isSet with
    | false =>
      rw [clock_step beyond _ hset]
      split_ifs
      · exact (tick_valid hprev).1
      · exact hprev
    | true =>
      cases e with
      | time_set sec min hour =>
        obtain ⟨hsec, hmin, hhour⟩ := he
        refine ⟨hprev.count, ?_, ?_, Nat.mod_lt _ (by decide)⟩
        · change sec % 0x100 < 60
          omega
        · change min % 0x100 < 60
          omega
      | timer reads => cases hset
      | get_char => cases hset
      | check_empty => cases hset
      | clear => cases hset
      | time_get => cases hset

theorem time_kept (beyond : ℕ → ℕ) (fs es : List KeyCall) (hfs : ∀ e ∈ fs, e.Timely)
    (hes : ∀ e ∈ es, e.isSet = false) :
    let k := ((keypad beyond).run Initial_KEYPAD fs).clock
    let k' := ((keypad beyond).run Initial_KEYPAD (fs ++ es)).clock
    k'.Valid ∧ k'.tick_count = (k.tick_count + (es.filterMap KeyCall.scan).length) % 5 ∧
      k'.seconds = (k.seconds + (k.tick_count + (es.filterMap KeyCall.scan).length) / 5) % 921600 := by
  intro k
  have hk : k.Valid := clock_valid beyond hfs
  induction es using List.reverseRecOn with
  | nil =>
    obtain ⟨count, sec, min, hour⟩ := hk
    change k.tick_count < 5 at count
    have hlt : k.seconds < 921600 := by
      unfold Clock.seconds
      omega
    simp only [List.append_nil, List.filterMap_nil, List.length_nil, Nat.add_zero]
    refine ⟨⟨count, sec, min, hour⟩, (Nat.mod_eq_of_lt count).symm, ?_⟩
    rw [Nat.div_eq_of_lt count, Nat.add_zero, Nat.mod_eq_of_lt hlt]
  | append_singleton es e ih =>
    obtain ⟨hvalid, hcount, hseconds⟩ := ih fun f hf => hes f (List.mem_append_left _ hf)
    have he := hes e (List.mem_append_right _ (List.mem_singleton_self e))
    rw [← List.append_assoc, Machine.run_snoc, clock_step beyond _ he, List.filterMap_append, List.length_append]
    cases hscan : e.scan with
    | none => simpa [hscan] using ⟨hvalid, hcount, hseconds⟩
    | some scan =>
      obtain ⟨hvalid', hcount', hseconds'⟩ := tick_valid hvalid
      have hone : ([e].filterMap KeyCall.scan).length = 1 := by simp [hscan]
      rw [hone]
      refine ⟨hvalid', ?_, ?_⟩
      · change Clock.tick_count (Clock.tick _) = _
        rw [hcount', hcount]
        omega
      · change Clock.seconds (Clock.tick _) = _
        rw [hseconds', hcount, hseconds]
        omega

theorem time_kept_twice :
    ((keypad fun _ => 0).run Initial_KEYPAD ([.time_set 59 59 23] ++ twice)).clock.seconds = 24 * 60 * 60 :=
  (time_kept (fun _ => 0) [.time_set 59 59 23] twice (by simp [KeyCall.Timely]) (by decide)).2.2

end EmbeddedOS.Board
