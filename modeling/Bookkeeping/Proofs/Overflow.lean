import Bookkeeping.Proofs.Balances
import Bookkeeping.Proofs.Deadlock
import Bookkeeping.Proofs.Execution

/-! # Values past their range

Two numbers of the books can grow past their range: a balance, by a credit, and the number of an
entry. Nothing else in a command overflows. A debit is checked before it is made; a credit is not.
-/
namespace Bookkeeping
open Bookkeeping.Time

namespace Book

variable {b : Book} {id source destination : AccountId} {settings : Settings} {request : Request}
  {amount : Amount} {checked now : Instant} {a c : Account} {why : Failure} {what : Overflow}

/-- No number is left for the next entry of an account. -/
def IsFull (b : Book) (id : AccountId) : Prop := (b.stream id).length + 1 = 2 ^ 64

theorem Kept.nextNumber_eq_error_iff (h : b.Kept) :
    b.nextNumber id = .error why ↔ b.IsFull id ∧ why = .overflow .sequence := by
  have hvalue := h.lastNumber_value id
  have hlt := (b.lastNumber id).lt
  unfold nextNumber SequenceNumber.next? IsFull
  split_ifs with hnext
  · simp only [false_iff, not_and]
    omega
  · simp only [Except.error.injEq, eq_comm, iff_and_self]
    omega

theorem Kept.move_eq_error_iff (h : b.Kept) :
    b.move settings request source destination amount now a c = .error why ↔
      (¬a.Covers amount ∧ why = .rejected (.insufficientBalance a.id a.balance amount)) ∨
      (a.Covers amount ∧ c.Overfills amount ∧ why = .overflow .balance) ∨
      (a.Covers amount ∧ ¬c.Overfills amount ∧ (b.IsFull source ∨ b.IsFull destination) ∧
        why = .overflow .sequence) := by
  constructor
  · intro h'
    rcases bind_eq_error_iff.mp h' with hdebit | ⟨debited, hdebit, h'⟩
    · exact .inl (Account.debit_eq_error_iff.mp hdebit)
    have hcovers := (Account.covers_iff_exists_debit now).mpr ⟨debited, hdebit⟩
    rcases bind_eq_error_iff.mp h' with hcredit | ⟨credited, hcredit, h'⟩
    · exact .inr (.inl ⟨hcovers, Account.credit_eq_error_iff.mp hcredit⟩)
    have hfits := (Account.not_overfills_iff_exists_credit now).mpr ⟨credited, hcredit⟩
    rcases bind_eq_error_iff.mp h' with hn | ⟨n, hn, h'⟩
    · obtain ⟨hfull, rfl⟩ := h.nextNumber_eq_error_iff.mp hn
      exact .inr (.inr ⟨hcovers, hfits, .inl hfull, rfl⟩)
    rcases bind_eq_error_iff.mp h' with hm | ⟨m, hm, h'⟩
    · obtain ⟨hfull, rfl⟩ := h.nextNumber_eq_error_iff.mp hm
      exact .inr (.inr ⟨hcovers, hfits, .inr hfull, rfl⟩)
    · cases h'
  · rintro (hinsufficient | ⟨hcovers, hover⟩ | ⟨hcovers, hfits, hfull, rfl⟩)
    · exact bind_eq_error_iff.mpr (.inl (Account.debit_eq_error_iff.mpr hinsufficient))
    · obtain ⟨debited, hdebit⟩ := (Account.covers_iff_exists_debit now).mp hcovers
      refine bind_eq_error_iff.mpr (.inr ⟨debited, hdebit, ?_⟩)
      exact bind_eq_error_iff.mpr (.inl (Account.credit_eq_error_iff.mpr hover))
    · obtain ⟨debited, hdebit⟩ := (Account.covers_iff_exists_debit now).mp hcovers
      obtain ⟨credited, hcredit⟩ := (Account.not_overfills_iff_exists_credit now).mp hfits
      refine bind_eq_error_iff.mpr (.inr ⟨debited, hdebit, ?_⟩)
      refine bind_eq_error_iff.mpr (.inr ⟨credited, hcredit, ?_⟩)
      cases hn : b.nextNumber source with
      | error why =>
        obtain ⟨-, rfl⟩ := h.nextNumber_eq_error_iff.mp hn
        rfl
      | ok n =>
        refine bind_eq_error_iff.mpr (.inr ⟨n, rfl, ?_⟩)
        have hdestination : b.IsFull destination := by
          refine hfull.resolve_left fun hsource => ?_
          rw [h.nextNumber_eq_error_iff.mpr ⟨hsource, rfl⟩] at hn
          cases hn
        exact bind_eq_error_iff.mpr (.inl (h.nextNumber_eq_error_iff.mpr ⟨hdestination, rfl⟩))

end Book

namespace Command
open Workflow

variable {settings : Settings} {command : Command} {checked now : Instant} {b : Book}
  {what : Overflow}

theorem judge_eq_overflow_iff : command.judge settings checked now b = .error (.overflow what) ↔
    ∃ request source destination amount a c, command = .transfer request source destination amount ∧
      b.Admits settings checked request source destination a c ∧
      b.move settings request source destination amount now a c = .error (.overflow what) := by
  constructor
  · intro h
    cases command with
    | create request id initial =>
      rcases judge_create_cases with ⟨e, hfail⟩ | ⟨-, -, -, hjudge⟩
      · cases h.symm.trans hfail
      · cases h.symm.trans hjudge
    | get id =>
      rcases bind_eq_error_iff.mp h with hrow | ⟨a, -, h⟩
      · cases (Book.require_eq_error_iff.mp hrow).2
      · cases h
    | transfer request source destination amount =>
      rcases judge_transfer_cases with ⟨e, hfail⟩ | ⟨a, c, hadmits, hjudge⟩
      · cases h.symm.trans hfail
      · exact ⟨request, source, destination, amount, a, c, rfl, hadmits, hjudge.symm.trans h⟩
  · rintro ⟨request, source, destination, amount, a, c, rfl, hadmits, hmove⟩
    exact hadmits.judge_eq.trans hmove

end Command

namespace Visit

variable {v : Visit} {b : Book}

/-- A visit is a transfer that passes all its checks and brings its destination past the largest
decimal. -/
def Overfills (v : Visit) (b : Book) : Prop :=
  ∃ request source destination amount a c,
    v.command = .transfer request source destination amount ∧
    b.Admits v.settings v.clock.next request source destination a c ∧
    a.Covers amount ∧ c.Overfills amount

theorem judge_eq_overflow_balance_iff (h : b.Kept) :
    v.judge b = .error (.overflow .balance) ↔ v.Overfills b := by
  unfold judge Overfills
  rw [Command.judge_eq_overflow_iff]
  simp [h.move_eq_error_iff]

theorem exists_full_of_judge (h : b.Kept) (hjudge : v.judge b = .error (.overflow .sequence)) :
    ∃ id, b.IsFull id := by
  obtain ⟨request, source, destination, amount, a, c, -, -, hmove⟩ :=
    Command.judge_eq_overflow_iff.mp hjudge
  rcases h.move_eq_error_iff.mp hmove with ⟨-, hwhy⟩ | ⟨-, -, hwhy⟩ | ⟨-, -, hfull, -⟩
  · cases hwhy
  · cases hwhy
  · rcases hfull with hfull | hfull
    · exact ⟨source, hfull⟩
    · exact ⟨destination, hfull⟩

end Visit

/-- The difference of two instants that have a date is less than 2^63 milliseconds. -/
theorem Time.Instant.natAbs_since_lt {t u : Instant}
    (ht : firstSecond ≤ t.seconds ∧ t.seconds ≤ lastSecond)
    (hu : firstSecond ≤ u.seconds ∧ u.seconds ≤ lastSecond) :
    (t.since u).natAbs < 2 ^ 63 * 1000000 := by
  have htnanos := t.nanos_lt
  have hunanos := u.nanos_lt
  have hleap : -1 ≤ t.leapSeconds u ∧ t.leapSeconds u ≤ 1 := by
    unfold leapSeconds
    split_ifs <;> omega
  simp only [firstSecond, lastSecond] at ht hu
  simp only [since, toNanos, nanosPerSecond]
  omega

namespace System

variable {actions : List Action}

theorem ready_run (hidle : (run empty actions).store.units = []) :
    (run empty actions).store.Ready := by
  have hqueued := (Queued.run actions).store
  refine ⟨⟨hidle, List.eq_nil_iff_forall_not_mem.mpr ?_⟩, (Orderly.run actions).reached⟩
  rintro ⟨u, x⟩ hx
  have hopen := hqueued.isOpen u x hx
  simp [Store.IsOpen, hidle] at hopen

/-- Whatever has happened before, a command by itself gives a result unless it is a transfer that
passes all its checks and brings its destination past the largest decimal. No number runs out before
2^63 entries, and no difference of two dates before 2^63 milliseconds. A command that fails, by an
overflow or otherwise, leaves the book as it was and no unit of work open. -/
theorem overflows_iff_overfills (hidle : (run empty actions).store.units = []) (v : Visit) :
    ∃ o, ((run empty actions).store.serve v).1 = some o ∧
      (o = .failed (.overflow .balance) ↔ v.Overfills (run empty actions).store.book) ∧
      ((run empty actions).store.entries.length < 2 ^ 63 → o ≠ .failed (.overflow .sequence)) ∧
      (∀ why, o = .failed why →
        ((run empty actions).store.serve v).2.book = (run empty actions).store.book ∧
        ((run empty actions).store.serve v).2.units = []) ∧
      ∀ t u : Instant, Instant.firstSecond ≤ t.seconds ∧ t.seconds ≤ Instant.lastSecond →
        Instant.firstSecond ≤ u.seconds ∧ u.seconds ≤ Instant.lastSecond →
        (t.since u).natAbs < 2 ^ 63 * 1000000 := by
  have hready := ready_run hidle
  have hkept := hready.reached.kept
  obtain ⟨ho, hquiet, hbook⟩ := hready.serve_eq v
  have hfailed (why : Failure) :
      Outcome.ofResult ((v.judge (run empty actions).store.book).map (·.answer)) = .failed why ↔
        v.judge (run empty actions).store.book = .error why := by
    cases v.judge (run empty actions).store.book <;> simp [Outcome.ofResult, Except.map]
  refine ⟨_, ho, ?_, ?_, ?_, fun t u => Instant.natAbs_since_lt⟩
  · rw [hfailed]
    exact Visit.judge_eq_overflow_balance_iff hkept
  · intro hfew hseq
    obtain ⟨id, hfull⟩ := Visit.exists_full_of_judge hkept ((hfailed _).mp hseq)
    have hle : ((run empty actions).store.book.stream id).length ≤
        (run empty actions).store.entries.length := by
      rw [Store.stream_book, List.length_map]
      exact List.length_filter_le _ _
    unfold Book.IsFull at hfull
    omega
  · intro why hwhy
    rw [hbook, (hfailed why).mp hwhy]
    exact ⟨rfl, hquiet.1⟩

def brimming : List Action :=
  [opensWith txA idA ten, opensWith txB idB most] ++ steps 0 8 ++ steps 1 8

theorem overflows_iff_overfills_brimming :
    (run empty brimming).store.units = [] ∧
    Visit.Overfills (.moves txC idA idB ten) (run empty brimming).store.book := by
  have hidle : (run empty brimming).store.units = [] := by decide +kernel
  obtain ⟨o, ho, hover, -⟩ := overflows_iff_overfills hidle (.moves txC idA idB ten)
  have hactual : ((run empty brimming).store.serve (.moves txC idA idB ten)).1 =
      some (.failed (.overflow .balance)) := by decide +kernel
  exact ⟨hidle, hover.mp (Option.some.inj (ho.symm.trans hactual))⟩

/-- Ten units moved to the largest balance there is have no result. -/
theorem credit_past_most : ¬∀ (vs : List Visit) (v : Visit) (what : Overflow),
    ((Store.serveAll {} vs).2.serve v).1 ≠ some (.failed (.overflow what)) := by
  intro h
  refine h [.opens txA idA ten, .opens txB idB most] (.moves txC idA idB ten) .balance ?_
  decide +kernel

end System

end Bookkeeping
