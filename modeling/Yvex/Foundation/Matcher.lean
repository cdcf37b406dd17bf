import Yvex.Foundation.Stream

namespace Yvex.Matcher

open List

/-! # Matching a pattern while a text arrives

A matcher that sees one byte at a time keeps a window: the end of the text that may still turn
into the pattern. A byte leaves the window once the pattern cannot begin at it, whatever comes
later. -/

def Refuted (pattern text : Bytes) (position : Nat) : Prop :=
  ∀ more, ¬ pattern <+: text.drop position ++ more

variable {pattern text : Bytes} {position : Nat}

theorem Refuted.append (fits : position ≤ text.length) (refuted : Refuted pattern text position)
    (more : Bytes) : Refuted pattern (text ++ more) position := by
  intro later begins
  rw [drop_append_of_le_length fits, append_assoc] at begins
  exact refuted _ begins

theorem Refuted.not_begins (refuted : Refuted pattern text position) :
    ¬ pattern <+: text.drop position := by
  simpa using refuted []

theorem refuted_of_differs (short : (text.drop position).length ≤ pattern.length)
    (differs : ¬ text.drop position <+: pattern) : Refuted pattern text position := by
  intro more begins
  exact differs (prefix_of_prefix_length_le (prefix_append _ more) begins short)

def settle (pattern : Bytes) : Bytes → Bytes × Bytes
  | [] => ([], [])
  | byte :: window =>
    if (byte :: window).isPrefixOf pattern then ([], byte :: window)
    else (byte :: (settle pattern window).1, (settle pattern window).2)

/-- How far a matcher has come: the bytes it gave up and the window behind them. -/
structure Tracks (pattern text given window : Bytes) : Prop where
  split : text = given ++ window
  begins : window <+: pattern
  refuted : ∀ position < given.length, Refuted pattern text position

theorem tracks_nil (pattern : Bytes) : Tracks pattern [] [] [] :=
  ⟨rfl, nil_prefix, fun _ less => absurd less (Nat.not_lt_zero _)⟩

theorem tracks_settle (split : text = given ++ window) (short : window.length ≤ pattern.length)
    (refuted : ∀ position < given.length, Refuted pattern text position) :
    Tracks pattern text (given ++ (settle pattern window).1) (settle pattern window).2 := by
  induction window generalizing given with
  | nil =>
    refine ⟨by simpa [settle] using split, nil_prefix, ?_⟩
    simpa [settle] using refuted
  | cons byte window induction => ?_
  rw [settle]
  split
  · rename_i begins
    refine ⟨by simpa using split, isPrefixOf_iff_prefix.mp begins, ?_⟩
    simpa using refuted
  rename_i differs
  have here : text.drop given.length = byte :: window := by rw [split, drop_left]
  have next := @induction (given ++ [byte]) (by simpa using split)
    (by rw [length_cons] at short; omega)
    (fun position less => by
      rw [length_append] at less
      rcases Nat.lt_succ_iff_lt_or_eq.mp less with before | rfl
      · exact refuted position before
      apply refuted_of_differs
      · rw [here]
        exact short
      · rw [here]
        exact fun begins => differs ( isPrefixOf_iff_prefix.mpr begins))
  simpa using next

section

variable (tracks : Tracks pattern text given window)

include tracks

theorem Tracks.step (unfilled : window.length < pattern.length) (byte : UInt8) :
    Tracks pattern (text ++ [byte]) (given ++ (settle pattern (window ++ [byte])).1)
      (settle pattern (window ++ [byte])).2 := by
  apply tracks_settle
  · rw [tracks.split, append_assoc]
  · rw [length_append]
    exact unfilled
  intro position less
  apply (tracks.refuted position less).append
  rw [tracks.split, length_append]
  omega

theorem Tracks.occurrence_eq
    (full : window.length = pattern.length) : occurrence pattern text = some given.length := by
  have whole : window = pattern := tracks.begins.eq_of_length full
  apply occurrence_eq_some_iff.mpr
  refine ⟨?_, ?_, fun earlier less => (tracks.refuted earlier less).not_begins⟩
  · rw [tracks.split, length_append]
    omega
  · rw [tracks.split, drop_left, whole]

theorem Tracks.occurrence_eq_none
    (unfilled : window.length < pattern.length) : occurrence pattern text = none := by
  apply occurrence_eq_none_iff.mpr
  intro position fits here
  rcases lt_or_ge position given.length with before | behind
  · exact (tracks.refuted position before).not_begins here
  have length := here.length_le
  rw [length_drop, tracks.split, length_append] at length
  omega

end

end Yvex.Matcher
