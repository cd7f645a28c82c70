import Bookkeeping.Proofs.Execution

/-! # Requests under a recorded transaction

Once an entry of a transaction is recorded, no request under its name has an effect. A transfer is
told that the transaction is recorded already. An opening looks for its account first, so it is told
so only if there is no such account.
-/
namespace Bookkeeping
open Bookkeeping.Time

namespace Store
open Workflow

variable {s : Store} {settings : Settings} {command : Command} {request : Request} {c : Clock}
  {why : Failure}

/-- A command that fails after its first look at the clock, and has opened no unit of work, leaves
the store as it is. -/
theorem serve_of_comes
    (h : (command.workflow settings).Comes ⟨s, [c.next], none⟩ (.error why) ⟨s, [], none⟩) :
    s.serve ⟨settings, command, c⟩ = (some (.failed why), s) := by
  have hplay : Turn.play ⟨settings, command, c.shows 1⟩ s = some (.failed why, s) :=
    Turn.play_eq_some_iff.mpr ⟨.error why, ⟨s, [], none⟩, h, rfl, rfl, rfl⟩
  rw [serve, Schedule.single_of_play hplay]

def refusal (s : Store) (id : AccountId) (t : TransactionId) : LedgerError :=
  if s.book.row id = none then .alreadyRecorded t else .alreadyExists id

theorem judge_create_recorded {checked now : Instant} {id : AccountId} {initial : Amount}
    (hfresh : Fresh settings request checked) (hrecorded : s.book.Records request.transaction) :
    Command.judge settings checked now s.book (.create request id initial) =
      .error (.rejected (s.refusal id request.transaction)) := by
  rw [Command.judge, if_neg (not_not.mpr hfresh), refusal]
  by_cases hrow : s.book.row id = none
  · rw [if_neg (not_not.mpr hrow), if_pos hrecorded, if_pos hrow]
  · rw [if_pos hrow, if_neg hrow]

/-- A fresh request whose transaction is recorded changes nothing at all, whatever accounts and
amount it names and whether or not it is the request that was recorded. -/
theorem repetition_without_effect (hfresh : Fresh settings request c.next)
    (hrecorded : s.book.Records request.transaction) :
    (∀ source destination amount,
      s.serve ⟨settings, .transfer request source destination amount, c⟩ =
        (some (.failed (.rejected (.alreadyRecorded request.transaction))), s)) ∧
    ∀ id initial,
      s.serve ⟨settings, .create request id initial, c⟩ =
        (some (.failed (.rejected (s.refusal id request.transaction))), s) := by
  constructor
  · intro source destination amount
    apply serve_of_comes
    exact (comes_transfer_recorded hfresh hrecorded).map fun _ => Answer.transferred
  · intro id initial
    apply serve_of_comes
    have hjudge : Command.judge settings c.next c.next s.book (.create request id initial) =
        .error (.rejected (s.refusal id request.transaction)) :=
      judge_create_recorded hfresh hrecorded
    exact (comes_create hjudge).map Answer.account

def withOpening : Store := (serveAll {} [.opens System.txA System.idA System.ten]).2

theorem repetition_without_effect_opening :
    Fresh .standard ⟨System.txA, Clock.still.next⟩ Clock.still.next ∧
    withOpening.book.Records System.txA ∧
    withOpening.serve (.moves System.txA System.idA System.idB System.tenth) =
      (some (.failed (.rejected (.alreadyRecorded System.txA))), withOpening) ∧
    withOpening.serve (.opens System.txA System.idB System.tenth) =
      (some (.failed (.rejected (.alreadyRecorded System.txA))), withOpening) := by
  have hfresh : Fresh .standard ⟨System.txA, Clock.still.next⟩ Clock.still.next := by
    decide +kernel
  have hrecorded : withOpening.book.Records System.txA := by decide +kernel
  have hrow : withOpening.book.row System.idB = none := by decide +kernel
  obtain ⟨htransfer, hcreate⟩ := repetition_without_effect hfresh hrecorded
  refine ⟨hfresh, hrecorded, htransfer _ _ _, (hcreate _ _).trans ?_⟩
  rw [refusal, if_pos hrow]

/-- The very request that opened an account is not told that its transaction is recorded. -/
theorem repeated_opening_exists : ¬∀ (vs : List Visit) (settings : Settings) (request : Request)
    (id : AccountId) (initial : Amount) (c : Clock), Fresh settings request c.next →
      (serveAll {} vs).2.book.Records request.transaction →
      ((serveAll {} vs).2.serve ⟨settings, .create request id initial, c⟩).1 =
        some (.failed (.rejected (.alreadyRecorded request.transaction))) := by
  intro h
  have hagain := h [.opens System.txA System.idA System.ten] .standard
    ⟨System.txA, Clock.still.next⟩ System.idA System.ten .still (by decide +kernel)
    (by decide +kernel)
  have hexists : ((serveAll {} [.opens System.txA System.idA System.ten]).2.serve
      (.opens System.txA System.idA System.ten)).1 =
        some (.failed (.rejected (.alreadyExists System.idA))) := by decide +kernel
  have hboth := hexists.symm.trans hagain
  simp at hboth

end Store

end Bookkeeping
