import Bootloader.Std.Program
import Mathlib.Logic.Relation

/-!
# The points a run comes to

A deterministic system goes from point to point by a right-unique step. `ComesTo` says
that its run reaches a last point, `AllAlong` that every point of the run is good. The
rules carry both over a stretch of the run, and decide them where the run goes down in rank
or comes back to a point it has been at. The turns of a loop are such a system.
-/

namespace Bootloader.Std

open Relation

section Deterministic

variable {Point : Type} {step : Point → Point → Prop} {Good Last : Point → Prop}
  {point middle next : Point}

/-- A run comes to a point of a kind. -/
def ComesTo (step : Point → Point → Prop) (Last : Point → Prop) (point : Point) : Prop :=
  ∃ last, ReflTransGen step point last ∧ Last last

/-- Every point a run comes to is good. -/
def AllAlong (step : Point → Point → Prop) (Good : Point → Prop) (point : Point) : Prop :=
  ∀ next, ReflTransGen step point next → Good next

/-- A step from a good point. -/
def GoodStep (step : Point → Point → Prop) (Good : Point → Prop) (point next : Point) : Prop :=
  step point next ∧ Good point

theorem GoodStep.path (path : ReflTransGen (GoodStep step Good) point next) :
    ReflTransGen step point next :=
  ReflTransGen.mono (fun _ _ good => good.1) _ _ path

theorem AllAlong.of_path (along : AllAlong step Good point)
    (path : ReflTransGen step point next) : AllAlong step Good next :=
  fun later further => along later (path.trans further)

/-- The rank rule: where every step from an invariant point goes down in rank, unless that
is a last point, the run comes to one. -/
theorem comesTo_of_rank {Invariant : Point → Prop} (rank : Point → Nat)
    (descend : ∀ point, Invariant point → Last point ∨
      ∃ next, step point next ∧ Invariant next ∧ rank next < rank point)
    (holds : Invariant point) : ComesTo step Last point := by
  induction bound : rank point using Nat.strongRecOn generalizing point with
  | _ bound inductionHypothesis =>
      subst bound
      rcases descend point holds with isLast | ⟨next, stepped, kept, lower⟩
      · exact ⟨point, .refl, isLast⟩
      · obtain ⟨last, path, isLast⟩ := inductionHypothesis _ lower kept rfl
        exact ⟨last, .head stepped path, isLast⟩

section Unique

variable (unique : Relator.RightUnique step)

include unique

/-- Whether a run comes to its last point may be asked later in the run. -/
theorem comesTo_iff_of_path (final : ∀ point next, Last point → ¬ step point next)
    (path : ReflTransGen step point next) :
    ComesTo step Last point ↔ ComesTo step Last next := by
  constructor
  · rintro ⟨last, run, isLast⟩
    rcases ReflTransGen.total_of_right_unique unique path run with further | back
    · exact ⟨last, further, isLast⟩
    · obtain same | ⟨later, stepped, _⟩ := back.cases_head
      · exact ⟨last, same ▸ .refl, isLast⟩
      · exact absurd stepped (final last later isLast)
  · rintro ⟨last, run, isLast⟩
    exact ⟨last, path.trans run, isLast⟩

/-- Behind a stretch of good points, the rest of the run decides. -/
theorem allAlong_iff_of_path (path : ReflTransGen (GoodStep step Good) point next) :
    AllAlong step Good point ↔ AllAlong step Good next := by
  refine ⟨fun along => along.of_path (GoodStep.path path), fun along => ?_⟩
  induction path using ReflTransGen.head_induction_on with
  | refl => exact along
  | head first rest inductionHypothesis =>
      intro later run
      obtain same | ⟨second, stepped, further⟩ := run.cases_head
      · exact same ▸ first.2
      · rw [unique stepped first.1] at further
        exact inductionHypothesis later further

/-- From every point of a run around a cycle, the cycle leads back to its start. -/
theorem cycle_returns (cycle : TransGen (GoodStep step Good) point point)
    (path : ReflTransGen step point next) : TransGen (GoodStep step Good) next point := by
  induction path with
  | refl => exact cycle
  | tail earlier last inductionHypothesis =>
      obtain ⟨second, first, rest⟩ := TransGen.head'_iff.mp inductionHypothesis
      rw [unique first.1 last] at rest
      rcases reflTransGen_iff_eq_or_transGen.mp rest with same | further
      · exact same ▸ cycle
      · exact further

/-- A run around a cycle of good points never leaves it. -/
theorem allAlong_of_cycle (cycle : TransGen (GoodStep step Good) point point) :
    AllAlong step Good point := by
  intro next path
  obtain ⟨_, first, _⟩ := TransGen.head'_iff.mp (cycle_returns unique cycle path)
  exact first.2

/-- A run that comes back to where it has been has no last point. -/
theorem not_comesTo_of_cycle (final : ∀ point next, Last point → ¬ step point next)
    (cycle : TransGen step point point) : ¬ ComesTo step Last point := by
  rintro ⟨last, run, isLast⟩
  have good : TransGen (GoodStep step fun _ => True) point point :=
    TransGen.mono (fun _ _ stepped => ⟨stepped, trivial⟩) _ _ cycle
  obtain ⟨next, first, _⟩ := TransGen.head'_iff.mp (cycle_returns unique good run)
  exact final last next isLast first.1

end Unique

end Deterministic

section Loop

variable {State Value Local : Type}
  {body : Local → State → Outcome State (Turn Local Value)} {current next : Local}
  {before after : State} {value : Value}

/-- A turn of a loop that goes round again, from one point of the loop to the next. -/
def Again (body : Local → State → Outcome State (Turn Local Value))
    (point next : Local × State) : Prop :=
  body point.1 point.2 = .returned (.again next.1) next.2

/-- A loop may be followed from any point it comes to. -/
theorem loop_from {point : Local × State}
    (path : ReflTransGen (Again body) (current, before) point) :
    ∃ made, ∀ turns, loop body (made + turns) current before =
      loop body turns point.1 point.2 := by
  induction path with
  | refl => exact ⟨0, fun turns => by rw [Nat.zero_add]⟩
  | tail earlier last inductionHypothesis =>
      obtain ⟨made, same⟩ := inductionHypothesis
      refine ⟨made + 1, fun turns => ?_⟩
      rw [Nat.add_assoc, Nat.add_comm 1 turns, same, loop_again last]

/-- A loop comes back with a value when it comes to a point where it leaves with it. -/
theorem loop_returns_iff :
    (∃ turns, loop body turns current before = .returned value after) ↔
      ComesTo (Again body) (fun point => body point.1 point.2 = .returned (.leave value) after)
        (current, before) := by
  constructor
  · rintro ⟨turns, ran⟩
    induction turns generalizing current before with
    | zero => cases ran
    | succ turns inductionHypothesis =>
        rw [loop] at ran
        cases turn : body current before with
        | returned outcome middle =>
            rw [turn] at ran
            cases outcome with
            | again next =>
                obtain ⟨last, path, leaves⟩ := inductionHypothesis ran
                have first : Again body (current, before) (next, middle) := turn
                exact ⟨last, .head first path, leaves⟩
            | leave result =>
                cases ran
                exact ⟨_, .refl, turn⟩
        | panicked reason middle =>
            rw [turn] at ran
            cases ran
        | diverged middle =>
            rw [turn] at ran
            cases ran
  · rintro ⟨last, path, leaves⟩
    obtain ⟨made, same⟩ := loop_from path
    exact ⟨made + 1, (same 1).trans (loop_leave leaves)⟩

/-- What holds of every state a loop leaves, however many turns it may take, holds at its
start and of what each turn it comes to leaves. -/
theorem forall_loop_state {Holds : State → Prop} :
    (∀ turns, Holds (loop body turns current before).state) ↔
      Holds before ∧ ∀ point, ReflTransGen (Again body) (current, before) point →
        Holds (body point.1 point.2).state := by
  constructor
  · intro holds
    refine ⟨holds 0, fun point path => ?_⟩
    obtain ⟨made, same⟩ := loop_from path
    have here := holds (made + 1)
    rw [same, loop] at here
    revert here
    cases body point.1 point.2 with
    | returned outcome middle => cases outcome <;> exact id
    | panicked reason middle => exact id
    | diverged middle => exact id
  · rintro ⟨start, holds⟩ turns
    induction turns generalizing current before with
    | zero => exact start
    | succ turns inductionHypothesis =>
        have here : Holds (body current before).state := holds _ .refl
        rw [loop]
        cases turn : body current before with
        | returned outcome middle =>
            rw [turn] at here
            cases outcome with
            | again next =>
                have first : Again body (current, before) (next, middle) := turn
                exact inductionHypothesis here fun point path => holds point (.head first path)
            | leave result => exact here
        | panicked reason middle =>
            rw [turn] at here
            exact here
        | diverged middle =>
            rw [turn] at here
            exact here

end Loop

end Bootloader.Std
