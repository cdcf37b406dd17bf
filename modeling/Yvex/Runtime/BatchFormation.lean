import Mathlib.Data.List.TakeWhile
import Yvex.Runtime.BatchRuns

namespace Yvex.Runtime

open List

/-! # How a batch is formed

The selection takes the first ticket that is not cancelled and, in the order of the queue, every
compatible one that fits behind it; what the coalescing wait counts is what is then taken. -/

section

variable (tickets : List BatchTicket) (cancels : Nat → Bool)

def cancelledAt (serial : Nat) : Bool := tickets[serial]?.any (·.cancelled (cancels serial))

def rowsOf (serials : List Nat) : Nat :=
  total (fun serial => (tickets[serial]?.map (·.request.rowCount)).getD 0) serials

/-- What `submit` has asked of a ticket's request. -/
def AdmittedAt (serial : Nat) : Prop :=
  ∃ ticket, tickets[serial]? = some ticket ∧ ticket.request.key.valid = true ∧
    ticket.request.rowCount ≤ ticket.request.key.admittedWidth

def CompatibleAt (key : CompatibilityKey) (serial : Nat) : Prop :=
  ∃ ticket, tickets[serial]? = some ticket ∧ key.matches ticket.request.key = true

/-- What is scanned behind `rows` rows of a batch. `admitted_width` is reduced by the rows of the
initial parts of the batch. -/
structure Scans (key : CompatibilityKey) (rows : Nat) (queue : List Nat)
    (selection : BatchSelection) : Prop where
  taken : selection.taken <+ queue
  kept : selection.kept <+ queue
  cancelled : selection.cancelled = queue.filter (cancelledAt tickets cancels)
  compatible : ∀ serial ∈ selection.taken, CompatibleAt tickets key serial
  fits : ∀ part, part <+: selection.taken → rows + rowsOf tickets part ≤ key.admittedWidth

/-- A batch of `queue`, whose first ticket has the key `key`. -/
structure FormsBatch (key : CompatibilityKey) (queue : List Nat) (selection : BatchSelection) : Prop
    extends Scans tickets cancels key 0 queue selection where
  divides : Divides selection queue
  first : selection.taken.head? = (queue.filter (!cancelledAt tickets cancels ·)).head?
  own : ∀ first ∈ selection.taken.head?, ∃ ticket, tickets[first]? = some ticket ∧
    ticket.request.key = key

theorem dropCancelled_eq (queue : List Nat) : dropCancelled tickets cancels queue =
    (queue.takeWhile (cancelledAt tickets cancels),
      queue.dropWhile (cancelledAt tickets cancels)) := by
  induction queue with
  | nil => rfl
  | cons serial queue induction =>
    rw [dropCancelled, takeWhile_cons, dropWhile_cons, cancelledAt, induction]
    cases tickets[serial]? with
    | none => rfl
    | some ticket =>
      simp only [Option.any_some]
      split <;> rfl

theorem rowsOf_initial (present : tickets[serial]? = some ticket) (within : rows ≤ width)
    (fits : ∀ part, part <+: taken → rows + ticket.request.rowCount + rowsOf tickets part ≤ width) :
    ∀ part, part <+: serial :: taken → rows + rowsOf tickets part ≤ width := by
  intro part initial
  rcases prefix_cons_iff.mp initial with rfl | ⟨rest, rfl, later⟩
  · exact within
  have bound := fits rest later
  simp only [rowsOf, total_cons, present, Option.map_some, Option.getD_some] at bound ⊢
  omega

theorem selectCompatible_scans (within : rows ≤ key.admittedWidth) :
    Scans tickets cancels key rows queue (selectCompatible tickets cancels key rows queue) := by
  induction queue generalizing rows with
  | nil =>
    exact ⟨.slnil, .slnil, rfl, by simp [selectCompatible], by simpa [selectCompatible]⟩
  | cons serial queue induction =>
    have plain := induction within
    rw [selectCompatible]
    cases present : tickets[serial]? with
    | none =>
      refine ⟨plain.taken.cons _, plain.kept.cons_cons _, ?_, plain.compatible, plain.fits⟩
      simpa [cancelledAt, present] using plain.cancelled
    | some ticket =>
      dsimp only
      split
      · rename_i answer
        refine ⟨plain.taken.cons _, plain.kept.cons _, ?_, plain.compatible, plain.fits⟩
        simpa [cancelledAt, present, answer] using plain.cancelled
      rename_i live
      split
      · rename_i admits
        rw [Bool.and_eq_true, decide_eq_true_eq, u64Sub_of_le within] at admits
        have next := @induction (rows + ticket.request.rowCount) (by omega)
        refine ⟨next.taken.cons_cons _, next.kept.cons _, ?_, ?_, ?_⟩
        · simpa [cancelledAt, present, live] using next.cancelled
        · exact forall_mem_cons.mpr ⟨⟨ticket, present, admits.1⟩, next.compatible⟩
        · exact rowsOf_initial tickets present within next.fits
      · refine ⟨plain.taken.cons _, plain.kept.cons_cons _, ?_, plain.compatible, plain.fits⟩
        simpa [cancelledAt, present, live] using plain.cancelled

/-- The count and the selection take the same tickets. -/
theorem foldl_countCompatible (within : rows ≤ key.admittedWidth)
    (live : ∀ serial ∈ queue, cancelledAt tickets cancels serial = false) (count : Nat) :
    (queue.foldl (BatchScheduler.countCompatible tickets key) (count, rows)).1 =
      count + (selectCompatible tickets cancels key rows queue).taken.length := by
  induction queue generalizing rows count with
  | nil => rfl
  | cons serial queue induction =>
    rw [forall_mem_cons] at live
    rw [foldl_cons, BatchScheduler.countCompatible, selectCompatible]
    cases present : tickets[serial]? with
    | none => exact induction within live.2 count
    | some ticket =>
      have answer : ticket.cancelled (cancels serial) = false := by
        simpa [cancelledAt, present] using live.1
      simp only [answer, Bool.false_eq_true, if_false, u64Sub_of_le within]
      by_cases admits : key.matches ticket.request.key = true ∧
          ticket.request.rowCount ≤ key.admittedWidth - rows
      · grind
      · grind

theorem forms_schedulerSelect (admitted : ∀ serial ∈ queue, AdmittedAt tickets serial) :
    ∃ key, FormsBatch tickets cancels key queue (schedulerSelect tickets cancels queue) := by
  have divides := divides_schedulerSelect tickets cancels queue
  have whole := takeWhile_append_dropWhile (p := cancelledAt tickets cancels) (l := queue)
  have ahead : ∀ serial ∈ queue.takeWhile (cancelledAt tickets cancels),
      cancelledAt tickets cancels serial = true := fun _ member => mem_takeWhile_imp member
  have live := head?_dropWhile_not (cancelledAt tickets cancels) queue
  rw [schedulerSelect, dropCancelled_eq] at divides ⊢
  generalize queue.takeWhile (cancelledAt tickets cancels) = front at *
  generalize queue.dropWhile (cancelledAt tickets cancels) = behind at *
  subst whole
  have none : front.filter (!cancelledAt tickets cancels ·) = [] := by simpa using ahead
  cases behind with
  | nil =>
    refine ⟨⟨0, .prefill, .moe, 0, 0, 0, 0, 0, 0, 0⟩,
      ⟨nil_sublist _, nil_sublist _, ?_, by simp, ?_⟩, divides, ?_, by simp⟩
    · rw [append_nil, filter_eq_self.mpr ahead]
    · simp [rowsOf]
    · rw [append_nil, none]
  | cons first behind =>
    obtain ⟨ticket, present, valid, fits⟩ := admitted first (by simp)
    have scans := @selectCompatible_scans tickets cancels _ _ behind fits
    simp only [present] at divides ⊢
    refine ⟨ticket.request.key, ⟨?_, ?_, ?_, ?_, ?_⟩, divides, ?_, ?_⟩
    · exact (scans.taken.cons_cons _).trans (sublist_append_right _ _)
    · exact (scans.kept.cons _).trans (sublist_append_right _ _)
    · rw [filter_append, filter_eq_self.mpr ahead, filter_cons_of_neg (by simpa using live),
        scans.cancelled]
    · refine forall_mem_cons.mpr ⟨⟨ticket, present, ?_⟩, scans.compatible⟩
      simp [CompatibilityKey.matches, valid]
    · apply rowsOf_initial tickets present (Nat.zero_le _)
      simpa using scans.fits
    · rw [filter_append, none, filter_cons_of_pos (by simpa using live)]
      rfl
    · rintro _ ⟨⟩
      exact ⟨ticket, present, rfl⟩

end

theorem schedulerSelect_forms (scheduler : BatchScheduler) (cancels : Nat → Bool)
    (admitted : ∀ serial ∈ scheduler.queue, AdmittedAt scheduler.tickets serial) :
    (∃ key, FormsBatch scheduler.tickets cancels key scheduler.queue
      (schedulerSelect scheduler.tickets cancels scheduler.queue)) ∧
      ((∀ serial ∈ scheduler.queue, cancelledAt scheduler.tickets cancels serial = false) →
        (schedulerSelect scheduler.tickets cancels scheduler.queue).taken.length =
          scheduler.compatibleCount) := by
  refine ⟨forms_schedulerSelect _ _ admitted, fun live => ?_⟩
  rw [schedulerSelect, dropCancelled_eq, BatchScheduler.compatibleCount]
  cases queue : scheduler.queue with
  | nil => rfl
  | cons first behind =>
    rw [queue, forall_mem_cons] at live admitted
    obtain ⟨ticket, present, valid, fits⟩ := admitted.1
    have taken : BatchScheduler.countCompatible scheduler.tickets ticket.request.key (0, 0) first =
        (1, ticket.request.rowCount) := by
      simp [BatchScheduler.countCompatible, present, CompatibilityKey.matches, valid,
        u64Sub_of_le, fits]
    simp only [dropWhile_cons, live.1, head?_cons, Option.bind_some, present, foldl_cons, taken,
      foldl_countCompatible _ cancels fits live.2]
    simp [present, add_comm]

/-- A cancelled ticket, a full batch, and a ticket that does not fit. -/
theorem schedulerSelect_forms_four :
    let ticket (rows : Nat) : BatchTicket :=
      { request := ⟨⟨3, .decode, .moe, 0, 0, 0, 1, 0, 1, 4⟩, rows, true, true⟩ }
    let tickets := [ticket 2, ticket 1, ticket 3, ticket 2]
    schedulerSelect tickets (· == 1) [1, 0, 2, 3] = ⟨[0, 3], [1], [2], 4⟩ ∧
      ∃ key, FormsBatch tickets (· == 1) key [1, 0, 2, 3] ⟨[0, 3], [1], [2], 4⟩ :=
  ⟨by decide, (schedulerSelect_forms ⟨4, [1, 0, 2, 3], _, 0, 0, false⟩ (· == 1)
    (by simp [AdmittedAt, CompatibilityKey.valid])).1⟩

end Yvex.Runtime
