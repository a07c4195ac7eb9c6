import EmbeddedOS.Hw3.Threads
import EmbeddedOS.Hw3.Ranking
import EmbeddedOS.Hw3.Requests

/-!
`exit_handler` beside the threads of the server: it writes the log without the mutex, and ranks the
inventory under it.
-/

namespace EmbeddedOS.Hw3

open CText Runs Sections

/-- What `exit_handler` writes to `result.txt` and what it prints; `flushed` are the variables when it
writes, and `g` when it has the mutex. -/
def Threads.exit_handler (flushed g : Globals) (bubble_tmp : Inv) : Text × Text :=
  (flushed.writeToResult, (server_sort g.num ⟨g.data, bubble_tmp⟩).2)

def logOf (x : Globals × Frame) : Text := x.1.writeToResult

namespace Threads

theorem record_once (t : Frame → Text) : Code.Once logOf (block [append t, countResult]) := by
  refine Or.inr ⟨?_, trivial⟩
  intro x
  rfl

theorem show_once : Code.Once logOf server_show := by
  refine Or.inl ⟨fun _ => rfl, Or.inl ⟨fun _ => rfl, Or.inl ⟨fun _ => rfl, ?_⟩⟩⟩
  exact record_once _

theorem loginFails_keeps : Code.Keeps logOf loginFails := ⟨fun _ => rfl, fun _ => rfl, trivial⟩

theorem login_once : Code.Once logOf server_login := by
  apply Code.Keeps.seq_once
  · refine ⟨⟨fun _ => rfl, ?_, loginFails_keeps⟩, loginFails_keeps⟩
    exact ⟨fun _ => rfl, fun _ => rfl, fun _ => rfl, fun _ => rfl, trivial⟩
  · refine Or.inl ⟨fun _ => rfl, ?_, ?_⟩
    · exact record_once _
    · exact record_once _

theorem logout_once : Code.Once logOf server_logout := by
  refine Or.inl ⟨fun _ => rfl, ?_, ?_⟩
  · exact Or.inl ⟨fun _ => rfl, record_once _⟩
  · refine Or.inl ⟨fun _ => rfl, Or.inl ⟨fun _ => rfl, Or.inl ⟨fun _ => rfl, Or.inl ⟨fun _ => rfl, ?_⟩⟩⟩⟩
    exact record_once _

theorem buyFails_keeps : Code.Keeps logOf buyFails := ⟨fun _ => rfl, fun _ => rfl, trivial⟩

theorem sale_keeps : Code.Keeps logOf sale := by
  apply Code.Keeps.seq
  · exact ⟨fun _ => rfl, fun _ => rfl, fun _ => rfl, fun _ => rfl, fun _ => rfl, trivial⟩
  apply Code.Keeps.seq
  · exact ⟨⟨fun _ => rfl, trivial⟩, trivial⟩
  apply Code.Keeps.seq
  · exact ⟨fun _ => rfl, fun _ => rfl, fun _ => rfl, fun _ => rfl, fun _ => rfl, fun _ => rfl, fun _ => rfl, trivial⟩
  · exact ⟨⟨fun _ => rfl, fun _ => rfl, fun _ => rfl, trivial⟩, trivial⟩

theorem buyRequest_keeps : Code.Keeps logOf buyRequest := by
  have hfrom : Code.Keeps logOf buyFrom := ⟨buyFails_keeps, buyFails_keeps, sale_keeps⟩
  refine ⟨fun _ => rfl, buyFails_keeps, buyFails_keeps, buyFails_keeps, buyFails_keeps, fun _ => rfl, hfrom, trivial⟩

theorem buy_once : Code.Once logOf server_buy := by
  refine Or.inl ⟨fun _ => rfl, ?_⟩
  apply Code.Keeps.seq_once
  · exact ⟨buyFails_keeps, buyFails_keeps, buyRequest_keeps⟩
  · exact record_once _

theorem statics_once : Code.Once logOf server_statics := by
  refine Or.inl ⟨fun _ => rfl, Or.inl ⟨fun _ => rfl, Or.inl ⟨fun _ => rfl, ?_⟩⟩⟩
  exact record_once _

theorem invalid_once : Code.Once logOf server_invalid := by
  refine Or.inl ⟨fun _ => rfl, Or.inl ⟨fun _ => rfl, ?_⟩⟩
  exact record_once _

theorem mask_server_once (a : Arrival) : Code.Once logOf (mask_server a) := by
  refine Or.inl ⟨fun _ => rfl, ?_⟩
  exact ⟨show_once, login_once, logout_once, buy_once, statics_once, invalid_once⟩

end Threads

/-- `exit_handler` writes the log while the threads have come as far as `ts`, and has the mutex when they
have done `us` as well: the log has the records of all commands that were entered by then but for the
last, which may be missing, and the ranking is that of the inventory after whole commands. A signal that
interrupts the thread inside leaves the server where it is. -/
structure Exits {b : Boot} (c : Crew b) (bubble_tmp : Inv) (ts us : Schedule) : Prop where
  consistent : (c.after (ts ++ us)).mutex = none →
    ∃ fs, (fs = c.handled ts ∨ fs = (c.handled ts).dropLast) ∧ fs <+: c.handled (ts ++ us) ∧
      Threads.exit_handler (c.after ts).shared (c.after (ts ++ us)).shared bubble_tmp =
        ((b.after fs).globals.writeToResult,
          (server_sort b.num ⟨(b.after (c.handled (ts ++ us))).globals.data, bubble_tmp⟩).2)
  stuck : ∀ k, (c.after ts).mutex = some k → (∀ u ∈ us, u ≠ .goes k) →
    (c.after (ts ++ us)).mutex = some k ∧ c.handled (ts ++ us) = c.handled ts

theorem handled_grows {b : Boot} (c : Crew b) (ts us : Schedule) : c.handled ts <+: c.handled (ts ++ us) := by
  rw [Crew.handled, Crew.handled, entries, entries, notes, notes, Machine.trace_append, List.map_append,
    List.filterMap_append, List.map_append]
  exact List.prefix_append _ _

theorem exit_handler_outputs {b : Boot} (c : Crew b) (bubble_tmp : Inv) (ts us : Schedule) :
    Exits c bubble_tmp ts us := by
  constructor
  · intro hfree
    obtain ⟨qs, hqs, hlog⟩ := seen_after Threads.mask_server (f := Globals.writeToResult) Threads.mask_server_once
      b.globals c.frame ts
    have hfs : qs.map (fun q => q.2.event q.1) = c.handled ts ∨
        qs.map (fun q => q.2.event q.1) = (c.handled ts).dropLast := by
      rcases hqs with rfl | rfl
      · exact Or.inl rfl
      · exact Or.inr (by rw [Crew.handled, List.map_dropLast])
    refine ⟨qs.map fun q => q.2.event q.1, hfs, ?_, ?_⟩
    · rcases hfs with h | h
      · rw [h]
        exact handled_grows c ts us
      · rw [h]
        exact (List.dropLast_prefix _).trans (handled_grows c ts us)
    · have hranked : (c.after (ts ++ us)).shared = (b.after (c.handled (ts ++ us))).globals :=
        (together_free c (ts ++ us) hfree).globals
      rw [Threads.exit_handler, hlog, (together_serial c qs).globals, hranked, num_after]
  · intro k hk hus
    obtain ⟨hm, he⟩ := stuck_after Threads.mask_server b.globals c.frame ts us hk hus
    exact ⟨hm, by rw [Crew.handled, Crew.handled, he]⟩

end EmbeddedOS.Hw3
