import EmbeddedOS.Hw3.Rounds

namespace EmbeddedOS.Hw3.Rounds

open CText Runs Receiving

variable {b : Boot} {p : Script}

def Line.drained (l : Line) : Line := { l with down := l.down.drop 1024 }

section Receive

variable (beyond : Text) {w : World} {k : Fin 30}

end Receive

section Serve

variable {w : World} {k : Fin 30}

end Serve

theorem Invariant.take {w w' : World} {h : List Event} {x : Fin 30 → Link} (hinv : Invariant b p w h x)
    {k : Fin 30} {y : Link}
    (hserver : w'.server = w.server)
    (hlines : w'.lines = Function.update w.lines k (w.lines k).drained)
    (hview : ∀ j : ℕ, j ≠ k → w'.phase.view j = w.phase.view j)
    (htied : Tied (w.lines k).drained (w'.phase.view k) y)
    (hrequest : y.request = (x k).request) (hclosed : w'.closed_fd = w.closed_fd) (htotal : w'.total = w.total)
    (hbought : (w'.buy_succ : ℤ) + y.uncounted = w.buy_succ + (x k).uncounted)
    (hsent : ∀ k : Fin 30, w'.phase.sent k = w.phase.sent k) : Invariant b p w' h (Function.update x k y) := by
  obtain ⟨R, hround⟩ := hinv.round
  obtain ⟨tied, flow, buf⟩ := hinv.kept k
  rw [← hrequest] at flow buf
  refine hinv.move hserver hlines hview ⟨htied, flow, buf⟩ ?_ ?_ hbought ⟨R, ?_⟩
  · rw [hclosed]
    rfl
  · rw [htotal]
    rfl
  · refine hround.congr (fun _ => le_rfl) (fun j => ?_) hsent
    rw [hlines]
    exact commands_put (l := (w.lines k).drained) rfl j

theorem history_snoc (h : List Event) (e : Event) :
    b.history (h ++ [e]) = b.history h ++ [server.moment (b.after h) e] := server.trace_snoc b.start h e

theorem Thread.Rest.writing {t : Thread} {s : Text} {rest : List Text} (h : t.Rest rest) {pending : List Text}
    (ht : t = .writing (s :: pending)) : rest = s :: pending := by
  rcases h with h | ⟨-, h⟩
  · rw [ht] at h
    injection h with h
    exact h.symm
  · rw [ht] at h
    cases h

theorem Thread.Rest.written {t : Thread} {rest : List Text} (h : t.Rest rest) (ht : t = .writing []) :
    rest = [] := by
  rcases h with h | ⟨h, -⟩
  · rw [ht] at h
    injection h with h
    exact h.symm
  · exact h

theorem Invariant.turn {w : World} {h : List Event} {x : Fin 30 → Link} (hinv : Invariant b p w h x) {f : Phase}
    (hview : ∀ k : Fin 30, f.view k = w.phase.view k) (hround : ∃ R, InRound p { w with phase := f } h R) :
    Invariant b p { w with phase := f } h x := by
  obtain ⟨server, kept, closed, total, bought, -⟩ := hinv
  refine ⟨server, fun k => ?_, closed, total, bought, hround⟩
  change Kept _ _ (f.view k) _ _
  rw [hview]
  exact kept k

theorem abreast {w : World} {h : List Event} {x : Fin 30 → Link} (hinv : Invariant b p w h x) (j k : Fin 30) :
    (textsOn h j).length ≤ (textsOn h k).length + 1 ∨ textsOn h k = p.commands k := by
  obtain ⟨R, hround⟩ := hinv.round
  obtain ⟨-, hcount⟩ := hround j
  obtain ⟨hlow, -⟩ := hround k
  have hsent : w.phase.sent j ≤ 1 := by
    cases w.phase with
    | sending i =>
      rw [Phase.sent]
      split_ifs <;> decide
    | receiving i => exact le_rfl
    | purchasing i => exact le_rfl
    | finished => exact le_rfl
  have hj := congrArg List.length (hinv.kept j).flow
  have hk := congrArg List.length (hinv.kept k).flow
  rw [List.length_append, List.length_append] at hj hk
  by_cases hall : (textsOn h k).length = (p.commands k).length
  · right
    have hrest : (x k).request ++ (w.lines k).commands = [] := by
      apply List.eq_nil_of_length_eq_zero
      rw [List.length_append]
      omega
    rw [← (hinv.kept k).flow, hrest, List.append_nil]
  · left
    omega

end EmbeddedOS.Hw3.Rounds
