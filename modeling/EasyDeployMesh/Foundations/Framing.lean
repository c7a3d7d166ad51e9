import Mathlib.Tactic.Common
import Mathlib.Data.List.Chain
import Mathlib.Data.List.Destutter

/-!
# Stop-and-wait transfers

A sequence is sent in frames, all of them full but the last one, which is shorter and may be empty.
Over a lossy link the sender repeats a packet until an answer acknowledges it, and only then goes on
to the next one. If no two consecutive packets are equal, then what was sent, with the repetitions
taken out, is the list of the packets.

## Main definitions

* `Foundations.IsFraming`: the frames of a sequence; `Foundations.chunks`: pieces of one length.
* `Foundations.AckedRun`: the attempts to send one packet.

## Main results

* `Foundations.isFraming_chunks`: the pieces, with an empty one at the end if all are full.
* `Foundations.destutter_flatten_of_ackedRun`: the packets, with the repetitions taken out.
* `Foundations.isChain_flatten_of_ackedRun`: a new packet follows an acknowledged one.
-/

namespace Foundations

variable {α β : Type}

/-! ### Frames -/

/-- The frames of a sequence: full ones of `n` elements, and a last one that is shorter. -/
structure IsFraming (n : ℕ) (sequence : List α) (frames : List (List α)) : Prop where
  flatten_eq : frames.flatten = sequence
  length_of_mem_dropLast : ∀ frame ∈ frames.dropLast, frame.length = n
  exists_getLast : ∃ last, frames.getLast? = some last ∧ last.length < n

theorem isFraming_singleton {n : ℕ} {frame : List α} (h : frame.length < n) :
    IsFraming n frame [frame] where
  flatten_eq := by simp
  length_of_mem_dropLast := by simp
  exists_getLast := ⟨frame, rfl, h⟩

theorem IsFraming.cons {n : ℕ} {frame sequence : List α} {frames : List (List α)}
    (h : IsFraming n sequence frames) (hframe : frame.length = n) :
    IsFraming n (frame ++ sequence) (frame :: frames) := by
  obtain ⟨last, hlast, hshort⟩ := h.exists_getLast
  have hne : frames ≠ [] := by
    rintro rfl
    simp at hlast
  refine ⟨by rw [List.flatten_cons, h.flatten_eq], fun f hf => ?_, last, ?_, hshort⟩
  · rw [List.dropLast_cons_of_ne_nil hne, List.mem_cons] at hf
    rcases hf with rfl | hf
    · exact hframe
    · exact h.length_of_mem_dropLast f hf
  · rw [List.getLast?_cons, hlast]
    rfl

/-- The pieces of `n` elements, and what is left of them. -/
def chunks (n : ℕ) (l : List α) : List (List α) :=
  if n = 0 ∨ l = [] then [] else l.take n :: chunks n (l.drop n)
termination_by l.length
decreasing_by
  have hor := not_or.mp ‹_›
  have := List.length_pos_of_ne_nil hor.2
  rw [List.length_drop]
  omega

theorem chunks_nil (n : ℕ) : chunks n ([] : List α) = [] := by
  rw [chunks, if_pos (.inr rfl)]

theorem chunks_of_ne_nil {n : ℕ} {l : List α} (hn : 0 < n) (hl : l ≠ []) :
    chunks n l = l.take n :: chunks n (l.drop n) := by
  rw [chunks, if_neg (by simp [hl, hn.ne'])]

/-- The pieces of a sequence, with an empty one at the end if all of them are full. -/
theorem isFraming_chunks {n : ℕ} (hn : 0 < n) (l : List α) :
    IsFraming n l (chunks n l ++ if l.length % n = 0 then [[]] else []) := by
  induction hk : l.length using Nat.strong_induction_on generalizing l with
  | h k ih =>
    rcases eq_or_ne l [] with rfl | hl
    · simpa [chunks_nil, ← hk] using isFraming_singleton (show ([] : List α).length < n from hn)
    · rw [chunks_of_ne_nil hn hl, List.cons_append, ← hk]
      have hpos := List.length_pos_of_ne_nil hl
      rcases Nat.lt_or_ge l.length n with hlt | hge
      · rw [List.take_of_length_le hlt.le, List.drop_of_length_le hlt.le, chunks_nil,
          if_neg (by rw [Nat.mod_eq_of_lt hlt]; omega), List.append_nil]
        exact isFraming_singleton hlt
      · have hrest := ih (l.drop n).length (by rw [List.length_drop]; omega) (l.drop n) rfl
        have hmod : (l.drop n).length % n = l.length % n := by
          rw [List.length_drop, ← Nat.mod_eq_sub_mod hge]
        rw [hmod] at hrest
        have hcons := hrest.cons (List.length_take_of_le hge)
        rwa [List.take_append_drop] at hcons

/-! ### Attempts -/

/-- The attempts to send one packet: each sends it, and the last one was acknowledged. -/
structure AckedRun (sent : β → α) (acked : α → β → Prop) (packet : α) (run : List β) : Prop where
  sent_eq : ∀ attempt ∈ run, sent attempt = packet
  exists_getLast : ∃ last, run.getLast? = some last ∧ acked packet last

namespace AckedRun

variable {sent : β → α} {acked : α → β → Prop} {packet : α} {run : List β}

theorem ne_nil (h : AckedRun sent acked packet run) : run ≠ [] := by
  obtain ⟨last, hlast, -⟩ := h.exists_getLast
  rintro rfl
  simp at hlast

theorem singleton {attempt : β} (hsent : sent attempt = packet) (hacked : acked packet attempt) :
    AckedRun sent acked packet [attempt] where
  sent_eq := by simpa using hsent
  exists_getLast := ⟨attempt, rfl, hacked⟩

/-- An attempt that failed comes before the others. -/
theorem cons {attempt : β} (h : AckedRun sent acked packet run) (hsent : sent attempt = packet) :
    AckedRun sent acked packet (attempt :: run) := by
  obtain ⟨last, hlast, hacked⟩ := h.exists_getLast
  refine ⟨fun a ha => ?_, last, ?_, hacked⟩
  · rcases List.mem_cons.mp ha with rfl | ha
    · exact hsent
    · exact h.sent_eq a ha
  · rw [List.getLast?_cons, hlast]
    rfl

/-- What a run sent is its packet, at least once. -/
theorem exists_map_sent (h : AckedRun sent acked packet run) :
    ∃ k, run.map sent = packet :: List.replicate k packet := by
  obtain ⟨first, rest, rfl⟩ := List.exists_cons_of_ne_nil h.ne_nil
  refine ⟨rest.length, ?_⟩
  rw [← List.replicate_succ, ← List.length_cons (a := first), ← List.length_map (f := sent)]
  refine List.eq_replicate_iff.mpr ⟨rfl, fun p hp => ?_⟩
  obtain ⟨attempt, hattempt, rfl⟩ := List.mem_map.mp hp
  exact h.sent_eq attempt hattempt

end AckedRun

/-! ### Transfers -/

section Transfer

variable {sent : β → α} {acked : α → β → Prop} {packets : List α} {runs : List (List β)}

/-- What a transfer sends is one of its packets. -/
theorem sent_mem_of_ackedRun (h : List.Forall₂ (AckedRun sent acked) packets runs) :
    ∀ attempt ∈ runs.flatten, sent attempt ∈ packets := by
  induction h with
  | nil => simp
  | cons hrun _ ih =>
    intro attempt hattempt
    rw [List.flatten_cons, List.mem_append] at hattempt
    rcases hattempt with hattempt | hattempt
    · exact List.mem_cons.mpr (.inl (hrun.sent_eq attempt hattempt))
    · exact List.mem_cons_of_mem _ (ih attempt hattempt)

/-- Repetitions of the element a list starts with do not count. -/
theorem destutter'_replicate_append [DecidableEq α] (k : ℕ) (a : α) (l : List α) :
    (List.replicate k a ++ l).destutter' (· ≠ ·) a = l.destutter' (· ≠ ·) a := by
  induction k with
  | zero => rfl
  | succ k ih =>
    rw [List.replicate_succ, List.cons_append, List.destutter'_cons_neg _ (by simp), ih]

/-- The packets of a transfer are what was sent, with the repetitions taken out. -/
theorem destutter_flatten_of_ackedRun [DecidableEq α]
    (h : List.Forall₂ (AckedRun sent acked) packets runs) (hne : packets.IsChain (· ≠ ·)) :
    (runs.flatten.map sent).destutter (· ≠ ·) = packets := by
  induction h with
  | nil => rfl
  | @cons packet run packets runs hrun hruns ih =>
    obtain ⟨k, hk⟩ := hrun.exists_map_sent
    rw [List.flatten_cons, List.map_append, hk, List.cons_append, List.destutter_cons',
      destutter'_replicate_append]
    have hrest := ih hne.tail
    cases hruns with
    | nil => rfl
    | @cons next run' packets runs hrun' hruns =>
      obtain ⟨j, hj⟩ := hrun'.exists_map_sent
      rw [List.flatten_cons, List.map_append, hj, List.cons_append, List.destutter_cons'] at hrest
      have hpair : packet ≠ next := (List.isChain_cons_cons.mp hne).1
      rw [List.flatten_cons, List.map_append, hj, List.cons_append,
        List.destutter'_cons_pos _ hpair, hrest]

/-- A packet that differs from the one before it is sent after that one was acknowledged. -/
theorem isChain_flatten_of_ackedRun (h : List.Forall₂ (AckedRun sent acked) packets runs) :
    runs.flatten.IsChain fun a b => sent a ≠ sent b → acked (sent a) a := by
  induction h with
  | nil => exact List.IsChain.nil
  | @cons packet run packets runs hrun hruns ih =>
    rw [List.flatten_cons]
    refine List.IsChain.append ?_ ih fun a ha b _ _ => ?_
    · refine List.Pairwise.isChain (List.pairwise_of_forall_mem_list fun a ha b hb hab => ?_)
      exact absurd ((hrun.sent_eq a ha).trans (hrun.sent_eq b hb).symm) hab
    · obtain ⟨last, hlast, hacked⟩ := hrun.exists_getLast
      obtain rfl : last = a := Option.some.inj (hlast.symm.trans ha)
      rwa [hrun.sent_eq last (List.mem_of_getLast? hlast)]

end Transfer

end Foundations
